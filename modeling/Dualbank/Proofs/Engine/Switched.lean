import Dualbank.Proofs.Engine.Updated

namespace Dualbank

open Plan Routine Phase
open Call (responding)

/-- What the record of a switch leaves behind. It ends as `y` if it is stored and the marker is
there. -/
inductive RecordsSwitch (a : Responses) (k : Held) (t : Target) (y : Except Error Unit) :
    Except Error Unit → List Call → Held → Prop
  | refused {e : Error} (hp : a.record (.switched t) = .error e) :
      RecordsSwitch a k t y (.error e) [.writePhase (.switched t)] k
  | unmarked {e : OsError} (hp : a.record (.switched t) = .ok ()) (hm : k.marker = false)
      (hc : a.creation = .error e) :
      RecordsSwitch a k t y (.error (.io (.creating Marker.rollback.fileName) e))
        [.writePhase (.switched t), .create .rollback] { k with phase := .switched t }
  | marked (hp : a.record (.switched t) = .ok ()) (hm : k.marker = true ∨ a.creation = .ok ()) :
      RecordsSwitch a k t y y [.writePhase (.switched t), .create .rollback] ⟨.switched t, true⟩

variable {a : Responses} {k k' : Held} {t : Target} {x y : Except Error Unit} {cs : List Call}

theorem RecordsSwitch.eq_ok_iff (h : RecordsSwitch a k t y x cs k') :
    x = .ok () ↔ y = .ok () ∧ a.record (.switched t) = .ok () ∧ k'.marker = true := by
  cases h with
  | refused hp => simp [hp]
  | unmarked _ hm => simp [hm]
  | marked hp => simp [hp]

namespace Target

theorem eq_singleton_of_images {w rest : List Image} {i v : Image} (h : t.images = w ++ i :: rest)
    (hw : w.getLast? = some v) : w = [v] := by
  obtain ⟨w', rfl⟩ := List.getLast?_eq_some_iff.mp hw
  have hlength : t.images.length ≤ 2 := by
    cases t <;> simp [images]
  have hw' : w'.length = 0 := by
    have hsum := congrArg List.length h
    simp only [List.length_append, List.length_cons] at hsum
    omega
  rw [List.eq_nil_of_length_eq_zero hw', List.nil_append]

end Target

theorem WorkDir.create_bind_responds {α : Type} {f : Except OsError Creation → Routine α}
    {post : Except Error α → List HeldEvent → Held → Prop}
    (hcreated : k.marker = false → a.creation = .ok () →
      Finishes (responding a) (f (.ok .created)).run { k with marker := true } fun x es k' =>
        post x (⟨.create .rollback, .ok (), k, { k with marker := true }⟩ :: es) k')
    (hpresent : k.marker = true → ∀ e,
      Finishes (responding a) (f (.ok .alreadyPresent)).run k fun x es k' =>
        post x (⟨.create .rollback, .error e, k, k⟩ :: es) k')
    (hfailed : k.marker = false → ∀ e, a.creation = .error e →
      Finishes (responding a) (f (.error e)).run k fun x es k' =>
        post x (⟨.create .rollback, .error e, k, k⟩ :: es) k') :
    Finishes (responding a) (WorkDir.create .rollback >>= f).run k post := by
  rw [WorkDir.create, LawfulMonad.bind_assoc]
  refine finishes_ask.mpr ?_
  rintro x v ⟨hx, hfits⟩
  cases x with
  | ok u =>
      obtain ⟨hm, rfl⟩ := hx
      exact hcreated hm (hfits hm).symm
  | error e =>
      obtain ⟨he, rfl⟩ := hx
      change Finishes (responding a)
        (f (if e.isAlreadyPresent then .ok .alreadyPresent else .error e)).run v _
      cases hm : v.marker with
      | true =>
          rw [if_pos (he.mpr hm)]
          exact hpresent hm e
      | false =>
          rw [if_neg fun h => by rw [he.mp h] at hm; cases hm]
          exact hfailed hm e (hfits hm).symm

theorem map_image_map_switch (is : List Image) : (is.map Work.switch).map Work.image = is := by
  rw [List.map_map]
  exact List.map_id _

theorem Goes.images_of_failed {is : List Image} {done : List Work} {c : Work} {e : EngineError}
    (h : Goes a (is.map Work.switch) done (some (c, e))) : ∃ w i rest, is = w ++ i :: rest ∧
      done = w.map Work.switch ∧ a.engine (.switch i) = .error e := by
  obtain ⟨works, hworks, he⟩ := h.exists_of_failed
  obtain ⟨w, is', rfl, rfl, his⟩ := List.map_eq_append_iff.mp hworks
  obtain ⟨i, rest, rfl, rfl, -⟩ := List.map_eq_cons_iff.mp his
  exact ⟨w, i, rest, rfl, rfl, he⟩

namespace Update

theorem recordSwitch_bind_responds {g : Unit → Routine Unit} (hg : (g ()).run = .done y) :
    Finishes (responding a) (recordSwitch t >>= g).run k fun x es k' =>
      worked es = [] ∧ RecordsSwitch a k t y x (filed es) k' := by
  rw [recordSwitch, LawfulMonad.bind_assoc]
  refine writePhase_bind_narrowed (Call.responding_faithful a) (fun hx => ?_) fun e hx =>
    ⟨rfl, .refused hx.2.symm⟩
  have hp : a.record (.switched t) = .ok () := hx.2.symm
  rw [LawfulMonad.bind_assoc]
  obtain ⟨p, m⟩ := k
  refine WorkDir.create_bind_responds (fun hm hc => ?_) (fun hm e => ?_) fun hm e hc => ?_
  · change Finishes _ (g ()).run _ _
    rw [hg]
    exact finishes_done.mpr ⟨rfl, .marked hp (.inr hc)⟩
  · obtain rfl : m = true := hm
    change Finishes _ (g ()).run _ _
    rw [hg]
    exact finishes_done.mpr ⟨rfl, .marked hp (.inl rfl)⟩
  · exact finishes_done.mpr ⟨rfl, .unmarked hp hm hc⟩

def leftSwitched (a : Responses) (k : Held) : Handling
  | none, _, e => Records a k (.error (.engine e)) none
  | some w, _, e => RecordsSwitch a k (.only w) (.error (.engine e))

theorem switchImages_responds (before : Option Image) (is : List Image) :
    Finishes (responding a) (switchImages before is).run k (GoneThrough a (is.map Work.switch)
      before (fun x cs k' => x = .ok () ∧ cs = [] ∧ k' = k) (leftSwitched a k)) := by
  induction is generalizing before with
  | nil => exact finishes_done.mpr (.nil ⟨rfl, rfl, rfl⟩)
  | cons i rest ih =>
      refine finishes_ask.mpr ?_
      rintro x v ⟨hv, hx⟩
      rw [show v = k from hv]
      cases x with
      | ok u => exact (ih (some i)).mono fun _ _ _ h => .cons_done rfl rfl rfl hx.symm h
      | error e =>
          cases before with
          | none => exact finishes_done.mpr (.cons_failed rfl rfl rfl hx.symm rfl .nothing)
          | some w =>
              exact (recordSwitch_bind_responds rfl).mono fun _ _ _ h =>
                .cons_failed rfl rfl rfl hx.symm h.1 h.2

theorem leftSwitched_ne_ok {w : Option Image} {c : Work} {e : EngineError}
    (h : leftSwitched a k w c e x cs k') : x ≠ .ok () := by
  cases w with
  | none => exact Records.ne_ok h
  | some w => exact fun hx => nomatch (RecordsSwitch.eq_ok_iff h).mp hx

abbrev SwitchedThrough (a : Responses) (k : Held) (t : Target) :
    Except Error Unit → List HeldEvent → Held → Prop :=
  GoneThrough a (t.images.map Work.switch) none (RecordsSwitch a k t (.ok ())) (leftSwitched a k)

theorem switchTarget_responds (t : Target) :
    Finishes (responding a) (switchTarget t).run k (SwitchedThrough a k t) := by
  refine GoneThrough.bind (switchImages_responds none t.images) ?_ leftSwitched_ne_ok
  rw [← bind_pure (recordSwitch t)]
  exact recordSwitch_bind_responds rfl

theorem switchIf_responds {c : Phase → Prop} [DecidablePred c] {e : Phase → Error}
    (hk : c k.phase) : Finishes (responding a)
      (do let p ← readPhase; if c p then switchTarget t else throw (e p) : Routine Unit).run k
      (SwitchedThrough a k t) := by
  refine readPhase_bind_narrowed (Call.responding_faithful a) ?_
  rw [if_pos hk]
  exact (switchTarget_responds t).mono fun _ _ _ h => h.cons_readPhase

theorem rollback_responds (hk : k.phase = .written t) :
    Finishes (responding a) (rollback t).run k (SwitchedThrough a k t) :=
  switchIf_responds hk

theorem switchSlot_responds (hk : k.phase = idle) :
    Finishes (responding a) (switchSlot t).run k (SwitchedThrough a k t) :=
  switchIf_responds (isIdle_iff.mpr hk)

end Update

/-- What a switch of `t` has come to, the completed images being those that the engine switched. -/
structure Switched (a : Responses) (k : Held) (t : Target) (x : Except Error Unit)
    (es : List HeldEvent) (k' : Held) : Prop where
  engine : ∀ i ∈ completed es, a.engine (.switch i) = .ok ()
  untouched : completed es = [] → filed es = [] ∧ k' = k ∧
    ∃ i rest e, t.images = i :: rest ∧ a.engine (.switch i) = .error e ∧ x = .error (.engine e)
  recorded : completed es ≠ [] → ∃ u y, u.images = completed es ∧
    RecordsSwitch a k u y x (filed es) k' ∧
    (completed es = t.images ∧ y = .ok () ∨
      ∃ i rest e, t.images = completed es ++ i :: rest ∧ a.engine (.switch i) = .error e ∧
        y = .error (.engine e))
  ok_iff : x = .ok () ↔
    completed es = t.images ∧ a.record (.switched t) = .ok () ∧ k'.marker = true

namespace Switched

variable {es : List HeldEvent}

theorem of_all (hdone : completed es = t.images)
    (he : ∀ i ∈ t.images, a.engine (.switch i) = .ok ())
    (h : RecordsSwitch a k t (.ok ()) x (filed es) k') : Switched a k t x es k' where
  engine := hdone ▸ he
  untouched hnone :=
    absurd (congrArg (List.map Work.switch) (hdone.symm.trans hnone)) (Update.images_ne_nil t)
  recorded _ := ⟨t, .ok (), hdone.symm, h, .inl ⟨hdone, rfl⟩⟩
  ok_iff := by
    rw [h.eq_ok_iff, hdone]
    simp

theorem of_failed {w rest : List Image} {i : Image} {c : Work} {e : EngineError}
    (hdone : completed es = w) (ht : t.images = w ++ i :: rest)
    (hw : ∀ j ∈ w, a.engine (.switch j) = .ok ()) (he : a.engine (.switch i) = .error e)
    (h : Update.leftSwitched a k w.getLast? c e x (filed es) k') : Switched a k t x es k' where
  engine := hdone ▸ hw
  untouched hnone := by
    obtain rfl : w = [] := hdone.symm.trans hnone
    have hnothing : Records a k (.error (.engine e)) none x (filed es) k' := h
    generalize filed es = cs at hnothing ⊢
    cases hnothing with
    | nothing => exact ⟨rfl, rfl, i, rest, e, ht, he, rfl⟩
  recorded hsome := by
    obtain ⟨v, hv⟩ := Option.ne_none_iff_exists'.mp
      (mt List.getLast?_eq_none_iff.mp fun hw => hsome (hdone.trans hw))
    rw [hv] at h
    refine ⟨.only v, .error (.engine e), ?_, h, .inr ⟨i, rest, e, hdone ▸ ht, he, rfl⟩⟩
    rw [hdone, Target.eq_singleton_of_images ht hv]
    rfl
  ok_iff := by
    refine iff_of_false (Update.leftSwitched_ne_ok h) fun hall => ?_
    have himages := hdone.symm.trans (hall.1.trans ht)
    simp at himages

theorem of_goneThrough (h : Update.SwitchedThrough a k t x es k') : Switched a k t x es k' := by
  obtain ⟨done, f, hgoes, hworked, hended, hfailed⟩ := h
  have hdone := completed_of_attempted hworked
  have hok := hgoes.ok_of_mem
  cases f with
  | none =>
      obtain rfl := hgoes.eq_of_none
      rw [map_image_map_switch] at hdone
      exact of_all hdone (List.forall_mem_map.mp hok) (hended rfl)
  | some failure =>
      have hleft := hfailed failure.1 failure.2 rfl
      obtain ⟨w, i, rest, himages, rfl, he⟩ := hgoes.images_of_failed
      rw [← List.getLast?_map, map_image_map_switch, Option.or_none] at hleft
      rw [map_image_map_switch] at hdone
      exact of_failed hdone himages (List.forall_mem_map.mp hok) he hleft

end Switched

/-- A rollback or bank switch that the record allows ends, and what it has come to is told by the
answers. -/
theorem switch_records_what_was_done (a : Responses) (t : Target) {k : Held} {r : Routine Unit}
    (hr : r = Update.rollback t ∧ k.phase = .written t ∨
      r = Update.switchSlot t ∧ k.phase = .idle) :
    (∃ x k', Gives (responding a) r.run k x k') ∧
      Finishes (responding a) r.run k (Switched a k t) := by
  refine ⟨exists_gives (Call.exists_responding a) _ k, ?_⟩
  rcases hr with ⟨rfl, hk⟩ | ⟨rfl, hk⟩
  · exact (Update.rollback_responds hk).mono fun _ _ _ h => .of_goneThrough h
  · exact (Update.switchSlot_responds hk).mono fun _ _ _ h => .of_goneThrough h

theorem firmware_switched_alone :
    (∃ x k', Gives (responding (.firmwareOnly .busy)) (Update.rollback .both).run
      ⟨.written .both, false⟩ x k') ∧
    Finishes (responding (.firmwareOnly .busy)) (Update.rollback .both).run ⟨.written .both, false⟩
      fun x es k' => x = .error (.engine .busy) ∧
        filed es = [.writePhase (.switched .firmware), .create .rollback] ∧
        k' = ⟨.switched .firmware, true⟩ := by
  obtain ⟨hends, hruns⟩ := switch_records_what_was_done (.firmwareOnly .busy) .both
    (k := ⟨.written .both, false⟩) (.inl ⟨rfl, rfl⟩)
  refine ⟨hends, hruns.mono ?_⟩
  rintro x es k' ⟨hdone, hnone, hsome, -⟩
  by_cases h : completed es = []
  · obtain ⟨-, -, i, rest, e, himages, he, -⟩ := hnone h
    cases himages
    cases he
  obtain ⟨u, y, hu, hrecords, ⟨hall, -⟩ | ⟨i, rest, e, himages, he, rfl⟩⟩ := hsome h
  · have happlication := hdone .application (by rw [hall]; exact List.mem_cons_of_mem _ (.head _))
    cases happlication
  · rw [← hu] at himages
    cases u with
    | both => cases himages
    | only j =>
        cases himages
        cases he
        generalize filed es = cs at hrecords ⊢
        cases hrecords with
        | refused hp => cases hp
        | unmarked _ _ hc => cases hc
        | marked => exact ⟨rfl, rfl, rfl⟩

end Dualbank
