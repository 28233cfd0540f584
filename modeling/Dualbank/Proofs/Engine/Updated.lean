import Dualbank.Proofs.Engine.Responses

namespace Dualbank

open Plan Routine Phase
open Call (responding)

namespace EngineError

def isRejection : EngineError → Bool
  | rejected .. => true
  | _ => false

end EngineError

/-- What is left behind by a routine that has nothing to record, or one phase. It ends as `y` unless
the record refuses the phase, whose error then comes first. -/
inductive Records (a : Responses) (k : Held) (y : Except Error Unit) :
    Option Phase → Except Error Unit → List Call → Held → Prop
  | nothing : Records a k y none y [] k
  | accepted {p : Phase} (hp : a.record p = .ok ()) :
      Records a k y (some p) y [.writePhase p] { k with phase := p }
  | refused {p : Phase} {e : Error} (hp : a.record p = .error e) :
      Records a k y (some p) (.error e) [.writePhase p] k

variable {a : Responses} {k : Held}

namespace Records

variable {k' : Held} {x y : Except Error Unit} {p? : Option Phase} {cs : List Call}

theorem ne_ok {e : Error} (h : Records a k (.error e) p? x cs k') : x ≠ .ok () := by
  cases h <;> nofun

theorem length_le (h : Records a k y p? x cs k') : cs.length ≤ 1 := by
  cases h <;> simp

end Records

namespace Update

theorem afterFailure?_of_rejection {i : Image} {before : Option Image} {e : EngineError}
    (h : e.isRejection = true) : afterFailure? i before e = some (failed i) := by
  cases e with
  | rejected => rfl
  | busy | system => cases h

theorem afterFailure?_of_not_rejection {i : Image} {before : Option Image} {e : EngineError}
    (h : e.isRejection = false) :
    afterFailure? i before e = before.map fun w => written (.only w) := by
  cases e with
  | rejected => cases h
  | busy | system => rfl

theorem giveUp_responds (i : Image) (before : Option Image) (e : EngineError) :
    Finishes (responding a) (giveUp i before e).run k fun x es k' => worked es = [] ∧
      Records a k (.error (.engine e)) (afterFailure? i before e) x (filed es) k' := by
  unfold giveUp
  cases afterFailure? i before e with
  | none => exact finishes_done.mpr ⟨rfl, .nothing⟩
  | some p =>
      refine finishes_ask.mpr ?_
      rintro x v ⟨hx, hfits⟩
      cases x with
      | ok u =>
          obtain rfl : v = { k with phase := p } := hx
          exact finishes_done.mpr ⟨rfl, .accepted hfits.symm⟩
      | error unrecorded =>
          obtain rfl : v = k := hx
          refine finishes_ask.mpr ?_
          rintro ⟨⟩ _ ⟨rfl, -⟩
          refine finishes_ask.mpr ?_
          rintro ⟨⟩ _ ⟨rfl, -⟩
          exact finishes_done.mpr ⟨rfl, .refused hfits.symm⟩

def givenUp (a : Responses) (k : Held) : Handling := fun before c e =>
  Records a k (.error (.engine e)) (afterFailure? c.image before e)

theorem writeParts_responds (before : Option Image) (parts : List (Image × Package)) :
    Finishes (responding a) (writeParts before parts).run k (GoneThrough a (parts.map Work.ofPart)
      before (fun x cs k' => x = .ok () ∧ cs = [] ∧ k' = k) (givenUp a k)) := by
  induction parts generalizing before with
  | nil => exact finishes_done.mpr (.nil ⟨rfl, rfl, rfl⟩)
  | cons part rest ih =>
      refine finishes_ask.mpr ?_
      rintro x _ ⟨rfl, hx⟩
      cases x with
      | ok u => exact (ih (some part.1)).mono fun _ _ _ h => .cons_done rfl rfl rfl hx.symm h
      | error e =>
          exact (giveUp_responds part.1 before e).mono fun _ _ _ h =>
            .cons_failed rfl rfl rfl hx.symm h.1 h.2

theorem storeWritten_responds (t : Target) : Finishes (responding a) (writePhase (.written t)).run k
    fun x es k' => worked es = [] ∧
      Records a k (.ok ()) (some (.written t)) x (filed es) k' := by
  rw [← bind_pure (writePhase _)]
  exact writePhase_bind_narrowed (Call.responding_faithful a)
    (fun hx => finishes_done.mpr ⟨rfl, .accepted hx.2.symm⟩) fun e hx => ⟨rfl, .refused hx.2.symm⟩

theorem update_responds {o : Offer} {t : Target} (ht : o.target? = some t) (hk : k.phase = idle) :
    Finishes (responding a) (update o).run k (GoneThrough a (o.parts.map Work.ofPart) none
      (Records a k (.ok ()) (some (.written t))) (givenUp a k)) := by
  unfold update
  rw [ht]
  refine readPhase_bind_narrowed (Call.responding_faithful a) ?_
  rw [if_pos (isIdle_iff.mpr hk)]
  exact (GoneThrough.bind (writeParts_responds none o.parts) (storeWritten_responds t)
    fun h => h.ne_ok).mono fun _ _ _ h => h.cons_readPhase

end Update

/-- An update of an idle device ends, and what it leaves behind is told by the answers. If all parts
are written, they are recorded as written. At the first part that fails the engine is left alone:
its refusal is recorded, another failure only if there is a part written before it. -/
theorem update_records_what_was_done (a : Responses) {o : Offer} {t : Target}
    (ht : o.target? = some t) {k : Held} (hk : k.phase = idle) :
    (∃ x k', Gives (responding a) (Update.update o).run k x k') ∧
    Finishes (responding a) (Update.update o).run k fun x es k' =>
      (filed es).length ≤ 1 ∧
      ((∀ part ∈ o.parts, a.engine (.ofPart part) = .ok ()) →
        worked es = o.parts.map (fun part => (.ofPart part, true)) ∧
        Records a k (.ok ()) (some (.written t)) x (filed es) k') ∧
      ∀ first part rest e, o.parts = first ++ part :: rest →
        (∀ d ∈ first, a.engine (.ofPart d) = .ok ()) → a.engine (.ofPart part) = .error e →
        worked es = first.map (fun d => (.ofPart d, true)) ++ [(.ofPart part, false)] ∧
        (e.isRejection = true →
          Records a k (.error (.engine e)) (some (.failed part.1)) x (filed es) k') ∧
        (e.isRejection = false → Records a k (.error (.engine e))
          (first.getLast?.map fun w => .written (.only w.1)) x (filed es) k') := by
  refine ⟨exists_gives (Call.exists_responding a) _ k, (Update.update_responds ht hk).mono ?_⟩
  rintro x es k' ⟨done, f, hgoes, hworked, hdone, hfailed⟩
  refine ⟨?_, fun hok => ?_, fun first part rest e hparts hok he => ?_⟩
  · cases f with
    | none => exact (hdone rfl).length_le
    | some failure => exact Records.length_le (hfailed failure.1 failure.2 rfl)
  · obtain ⟨rfl, rfl⟩ := hgoes.of_forall_ok (List.forall_mem_map.mpr hok)
    refine ⟨?_, hdone rfl⟩
    rw [hworked]
    simp [attempted]
  · rw [hparts, List.map_append, List.map_cons] at hgoes
    obtain ⟨rfl, rfl⟩ := hgoes.of_append (List.forall_mem_map.mpr hok) he
    have hrecorded := hfailed _ e rfl
    rw [Option.or_none, List.getLast?_map, Option.map_map, Update.givenUp] at hrecorded
    refine ⟨?_, fun hreject => ?_, fun hreject => ?_⟩
    · rw [hworked]
      simp [attempted]
    · rwa [Update.afterFailure?_of_rejection hreject] at hrecorded
    · rwa [Update.afterFailure?_of_not_rejection hreject, Option.map_map] at hrecorded

def bothImages : Offer := ⟨some ⟨"fw.raucb", none⟩, some ⟨"app.raucb", none⟩⟩

theorem firmware_recorded_while_busy :
    (∃ x k', Gives (responding (.firmwareOnly .busy)) (Update.update bothImages).run ⟨idle, true⟩ x
      k') ∧
    Finishes (responding (.firmwareOnly .busy)) (Update.update bothImages).run ⟨idle, true⟩
      fun x es k' => x = .error (.engine .busy) ∧ filed es = [.writePhase (.written .firmware)] ∧
        k' = ⟨.written .firmware, true⟩ := by
  obtain ⟨hends, hruns⟩ := update_records_what_was_done (.firmwareOnly .busy)
    (o := bothImages) (t := .both) (k := ⟨idle, true⟩) rfl rfl
  refine ⟨hends, hruns.mono ?_⟩
  rintro x es k' ⟨-, -, hfirst⟩
  obtain ⟨-, -, hbusy⟩ := hfirst [(.firmware, _)] (.application, _) [] .busy rfl
    (List.forall_mem_singleton.mpr rfl) rfl
  have hrecords : Records (.firmwareOnly .busy) ⟨idle, true⟩ (.error (.engine .busy))
      (some (.written .firmware)) x (filed es) k' := hbusy rfl
  generalize filed es = cs at hrecords ⊢
  cases hrecords with
  | accepted => exact ⟨rfl, rfl, rfl⟩
  | refused hp => cases hp

end Dualbank
