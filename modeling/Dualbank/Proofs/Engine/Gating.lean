import Dualbank.Proofs.Engine.Work
import Dualbank.Proofs.Phase.Recorded

namespace Dualbank

open Plan Routine Phase
open Call (recorded Quiet)

namespace Operation

def Allows : Operation → Phase → Prop
  | update _, p | updateIfNewer _, p | switchSlot _, p => p = idle
  | rollback t, p => p = written t
  | _, _ => True

def refusal : Operation → Phase → Error
  | rollback _, p | switchSlot _, p => .notAllowed p
  | _, p => .updateInProgress p

end Operation

def Call.Looks : Call → Prop
  | readPhase | installedVersion _ => True
  | _ => False

def Gated (allowed : Phase → Prop) (e : Event Call.Answer (Option Phase)) : Prop :=
  ¬e.question.Quiet → ∃ p, e.before = some p ∧ allowed p

variable {allowed : Phase → Prop} {s s' : Option Phase} {p : Phase} {α β ε : Type}

theorem Call.Quiet.gated {q : Call} (h : q.Quiet) {x : q.Answer} :
    Gated allowed ⟨q, x, s, s'⟩ := fun hn => absurd h hn

def Gates (allowed : Phase → Prop) (r : ExceptT ε (Plan Call.Answer) α) (s : Option Phase) : Prop :=
  SureOr recorded (Gated allowed) r s (fun _ _ => True) fun _ _ => True

namespace Gates

variable {r : ExceptT ε (Plan Call.Answer) α} {f : α → ExceptT ε (Plan Call.Answer) β}

theorem of_asks (h : Asks Quiet r.run) : Gates allowed r s :=
  h.sureOr (I := fun _ => True) (fun _ _ _ _ hq _ _ => ⟨hq.gated, trivial⟩) trivial

theorem bind (h : Gates allowed r s) (hf : ∀ a s', Gates allowed (f a) s') :
    Gates allowed (r >>= f) s :=
  SureOr.bind h fun a s' _ => hf a s'

theorem readPhase_bind {f : Phase → Routine β} (hf : ∀ p, s = some p → Gates allowed (f p) s) :
    Gates allowed (readPhase >>= f) s :=
  sureOr_readPhase_bind (fun _ _ h => h) (fun _ hn => absurd rfl hn) hf fun _ => trivial

end Gates

namespace Update

theorem writeParts_gates {parts : List (Image × Package)} {before : Option Image} (h : allowed p) :
    Gates allowed (writeParts before parts) (some p) := by
  induction parts generalizing before with
  | nil => exact trivial
  | cons part rest ih =>
      apply sureOr_ask_bind.mpr
      intro x s' hx
      obtain rfl : s' = some p := hx
      refine ⟨fun _ => ⟨p, rfl, h⟩, ?_⟩
      cases x with
      | ok u => exact ih
      | error e => exact Gates.of_asks (giveUp_asks (fun _ => rfl) fun _ => rfl)

theorem update_gates (o : Offer) : Gates (· = idle) (update o) s := by
  unfold update
  split
  · exact trivial
  · apply Gates.readPhase_bind
    rintro p rfl
    split
    · rename_i hidle
      have hparts : Gates (· = idle) (writeParts none o.parts) (some p) :=
        writeParts_gates (isIdle_iff.mp hidle)
      exact hparts.bind fun _ _ => .of_asks (writePhase_asks rfl)
    · exact trivial

theorem updateIfNewer_gates (o : Offer) : Gates (· = idle) (updateIfNewer o) s := by
  refine Gates.bind (.of_asks (offersNewer_asks fun _ _ => rfl)) fun newer s' => ?_
  split
  · exact (update_gates o).bind fun _ _ => trivial
  · exact trivial

theorem switchImages_gates {is : List Image} {before : Option Image} (h : allowed p) :
    Gates allowed (switchImages before is) (some p) := by
  induction is generalizing before with
  | nil => exact trivial
  | cons i rest ih =>
      apply sureOr_ask_bind.mpr
      intro x s' hx
      obtain rfl : s' = some p := hx
      refine ⟨fun _ => ⟨p, rfl, h⟩, ?_⟩
      cases x with
      | ok u => exact ih
      | error e =>
          cases before with
          | none => exact trivial
          | some w =>
              have h : Asks Quiet (recordSwitch (.only w)).run :=
                recordSwitch_asks (fun _ => rfl) rfl
              exact Gates.of_asks (asks_run_bind h fun _ => trivial)

theorem switchTarget_gates {t : Target} (h : allowed p) :
    Gates allowed (switchTarget t) (some p) :=
  (switchImages_gates h).bind fun _ _ => .of_asks (recordSwitch_asks (fun _ => rfl) rfl)

end Update

theorem Operation.gates (op : Operation) (d : WorkDir) : Gates op.Allows (op.routine d) s := by
  cases op with
  | update o => exact Update.update_gates o
  | updateIfNewer o => exact Update.updateIfNewer_gates o
  | rollback t =>
      apply Gates.readPhase_bind
      rintro p rfl
      split
      · rename_i hp
        exact Update.switchTarget_gates hp
      · exact trivial
  | switchSlot t =>
      apply Gates.readPhase_bind
      rintro p rfl
      split
      · rename_i hp
        exact Update.switchTarget_gates (isIdle_iff.mp hp)
      · exact trivial
  | allowAutomatic | commit | download | progress | install | apply =>
      refine Gates.of_asks (asks_quiet ?_ d)
      exact not_false

theorem Call.Looks.recorded_eq {q : Call} (h : q.Looks) {x : q.Answer} (hx : recorded q s x s') :
    s' = s := by
  cases q with
  | readPhase => exact hx.1
  | installedVersion t => exact hx
  | _ => exact h.elim

def LooksAt (p : Phase) (e : Event Call.Answer (Option Phase)) : Prop :=
  e.question.Looks ∧ e.after = some p

def LooksOnly (p : Phase) (r : Routine α) : Prop :=
  SureOr recorded (LooksAt p) r (some p) (fun _ s' => s' = some p) fun _ s' => s' = some p

theorem LooksOnly.of_asks {r : Routine α} (h : Asks Call.Looks r.run) : LooksOnly p r := by
  refine h.sureOr (I := (· = some p)) ?_ rfl
  rintro q _ x v' hq rfl hx
  obtain rfl := hq.recorded_eq hx
  exact ⟨⟨hq, rfl⟩, rfl⟩

theorem looksOnly_readPhase_bind {f : Phase → Routine α} {e : Error} (hf : f p = throw e) :
    LooksOnly p (readPhase >>= f) := by
  refine sureOr_readPhase_bind (fun _ _ h => h) (fun _ => ⟨trivial, rfl⟩) ?_ fun _ => rfl
  intro p' hp
  obtain rfl := Option.some.inj hp
  rw [hf]
  exact rfl

def ReadsPhase (es : List (Event Call.Answer (Option Phase))) : Prop :=
  ∃ p b a, ⟨.readPhase, .ok p, b, a⟩ ∈ es

variable {es : List (Event Call.Answer (Option Phase))}

theorem error_of_readPhase_bind {f : Phase → Routine α} {e : Error} {x : Except Error α}
    (hf : f p = throw e) (hs : Steps recorded (readPhase >>= f).run (some p) es (.done x) s')
    (hr : ReadsPhase es) : x = .error e := by
  obtain ⟨y, v, fs, rfl, ⟨rfl, hread⟩, hs⟩ := Steps.ask_done hs
  cases y with
  | ok p' =>
      obtain rfl := Option.some.inj (hread p' rfl)
      have hs : Steps recorded (f p).run (some p) fs (.done x) s' := hs
      rw [hf] at hs
      cases hs
      rfl
  -- The reading was the only question, and it failed.
  | error e' =>
      cases hs
      obtain ⟨p', b, a, hmem⟩ := hr
      cases List.mem_singleton.mp hmem

namespace Update

theorem update_looksOnly {o : Offer} (h : p ≠ idle) : LooksOnly p (update o) := by
  unfold update
  split
  · exact rfl
  · exact looksOnly_readPhase_bind (if_neg fun hi => h (isIdle_iff.mp hi))

theorem error_of_update {o : Offer} {x : Except Error Unit} (h : p ≠ idle)
    (hs : Steps recorded (update o).run (some p) es (.done x) s') (hr : ReadsPhase es) :
    x = .error (.updateInProgress p) := by
  unfold update at hs
  split at hs
  · cases hs
    obtain ⟨p', b, a, hmem⟩ := hr
    cases hmem
  · exact error_of_readPhase_bind (if_neg fun hi => h (isIdle_iff.mp hi)) hs hr

/-- The versions are compared before the phase is read. -/
theorem not_readsPhase_offersNewer {parts : List (Image × Package)} {q : Plan Call.Answer _}
    (hs : Steps recorded (offersNewer parts).run s es q s') : ¬ReadsPhase es := by
  rintro ⟨p, b, a, hmem⟩
  have h : Asks (fun q => ∃ t, q = .installedVersion t) (offersNewer parts).run :=
    offersNewer_asks fun part _ => ⟨.only part.1, rfl⟩
  obtain ⟨t, ht⟩ := h.of_mem hs _ hmem
  cases ht

theorem offersNewer_looksOnly (parts : List (Image × Package)) : LooksOnly p (offersNewer parts) :=
  .of_asks (offersNewer_asks fun _ _ => trivial)

theorem updateIfNewer_looksOnly {o : Offer} (h : p ≠ idle) : LooksOnly p (updateIfNewer o) := by
  refine SureOr.bind (offersNewer_looksOnly o.parts) ?_
  rintro newer _ rfl
  split
  · exact SureOr.bind (update_looksOnly h) fun _ _ hs => hs
  · exact rfl

theorem error_of_updateIfNewer {o : Offer} {x : Except Error AutomaticOutcome} (h : p ≠ idle)
    (hs : Steps recorded (updateIfNewer o).run (some p) es (.done x) s') (hr : ReadsPhase es) :
    x = .error (.updateInProgress p) := by
  obtain ⟨newer, v, fs, gs, rfl, hfirst, hrest⟩ := Steps.bind_done hs
  obtain ⟨p', b, a, hmem⟩ := hr
  -- The update itself read the phase, with the record still at `p`.
  have hgs : ReadsPhase gs := by
    refine ⟨p', b, a, (List.mem_append.mp hmem).resolve_left fun hf => ?_⟩
    exact not_readsPhase_offersNewer hfirst ⟨p', b, a, hf⟩
  have hv : v = some p := by
    have hl := (offersNewer_looksOnly (p := p) o.parts).steps hfirst
    exact hfirst.world (I := (· = some p)) (fun e he => (hl.1 e he).2) rfl
  subst hv
  match newer with
  -- Without an update nothing is asked any more.
  | .error _ | .ok false =>
      cases hrest
      obtain ⟨p', b, a, hmem⟩ := hgs
      cases hmem
  | .ok true =>
      obtain ⟨y, v, us, ends, rfl, hupdate, hend⟩ := Steps.bind_done hrest
      have hends : ends = [] := by
        cases y with
        | ok u => cases hend; rfl
        | error e => cases hend; rfl
      rw [hends, List.append_nil] at hgs
      rw [error_of_update h hupdate hgs] at hend
      cases hend
      rfl

end Update

namespace Operation

theorem looksOnly {op : Operation} (h : ¬op.Allows p) (d : WorkDir) :
    LooksOnly p (op.routine d) := by
  cases op with
  | update o => exact Update.update_looksOnly h
  | updateIfNewer o => exact Update.updateIfNewer_looksOnly h
  | rollback t => exact looksOnly_readPhase_bind (if_neg h)
  | switchSlot t => exact looksOnly_readPhase_bind (if_neg fun hi => h (isIdle_iff.mp hi))
  | _ => exact absurd trivial h

theorem error_of_readsPhase {op : Operation} {d : WorkDir} {x : Except Error op.Outcome}
    (h : ¬op.Allows p) (hs : Steps recorded (op.routine d).run (some p) es (.done x) s')
    (hr : ReadsPhase es) : x = .error (op.refusal p) := by
  cases op with
  | update o => exact Update.error_of_update h hs hr
  | updateIfNewer o => exact Update.error_of_updateIfNewer h hs hr
  | rollback t => exact error_of_readPhase_bind (if_neg h) hs hr
  | switchSlot t => exact error_of_readPhase_bind (if_neg fun hi => h (isIdle_iff.mp hi)) hs hr
  | _ => exact absurd trivial h

theorem eq_of_mayAsk_switch {op : Operation} {i : Image} (h : op.MayAsk (.switch i)) :
    ∃ t, op = rollback t ∨ op = switchSlot t := by
  cases op with
  | rollback t => exact ⟨t, .inl rfl⟩
  | switchSlot t => exact ⟨t, .inr rfl⟩
  | _ => exact h.elim

theorem allows_of_mayAsk_install {op : Operation} {i : Image} {package : Package}
    (h : op.MayAsk (.install i package)) (hp : op.Allows p) : p = idle := by
  cases op with
  | update o | updateIfNewer o => exact hp
  | _ => exact h.elim

end Operation

namespace CommandLine

open Session

theorem classify_gates {context : String} {r : Routine α} (h : Gates allowed r s) :
    Gates allowed (classify context r) s := by
  have hr : Sure recorded (Gated allowed) r.run s fun _ _ => True :=
    Sure.mono h fun _ _ _ => trivial
  exact Gates.bind (sureOr_lift.mpr hr) fun x _ => .of_asks (classified_asks (fun _ _ => rfl) x)

theorem automatic_gates (d : WorkDir) (stick : Stick) :
    Gates (· = idle) (automatic d stick) s := by
  have hsay {line : String} {r : Report} {s : Option Phase} :
      Gates (· = idle) (do say line; return r) s :=
    .of_asks (asks_run_bind (say_asks fun _ _ => rfl) fun _ => trivial)
  unfold automatic
  split
  · refine Gates.bind (classify_gates (.of_asks (Operation.allowAutomatic_quiet d))) fun admission s' => ?_
    split
    · exact trivial
    · refine Gates.bind (classify_gates (Update.updateIfNewer_gates _)) fun outcome s' => ?_
      split
      · exact trivial
      · exact hsay
      · exact hsay
    · exact hsay
  · exact trivial

end CommandLine

def Does (works : List Work) (r : Routine α) (s : Option Phase) : Prop :=
  ∃ es q s', Steps recorded r.run s es q s' ∧ (worked es).map Prod.fst = works

namespace Does

variable {works : List Work} {r : Routine α} {f : α → Routine β}

theorem bind_left (h : Does works r s) : Does works (r >>= f) s := by
  obtain ⟨es, q, s', hs, hw⟩ := h
  exact ⟨es, _, s', hs.bind _, hw⟩

theorem readPhase_bind {f : Phase → Routine β} (h : Does works (f p) (some p)) :
    Does works (readPhase >>= f) (some p) := by
  obtain ⟨es, q, s', hs, hw⟩ := h
  exact ⟨_, q, s', .ask (Call.recorded_readPhase p) hs, hw⟩

end Does

namespace Update

theorem writeParts_does (parts : List (Image × Package)) (before : Option Image) :
    Does (parts.map Work.ofPart) (writeParts before parts) s := by
  induction parts generalizing before with
  | nil => exact ⟨[], _, s, .refl _ _, rfl⟩
  | cons part rest ih =>
      obtain ⟨es, q, s', hs, hw⟩ := ih (some part.1)
      have hinstall : recorded (.install part.1 part.2) s (.ok ()) s := rfl
      exact ⟨_, q, s', .ask hinstall hs, congrArg (Work.ofPart part :: ·) hw⟩

theorem switchImages_does (is : List Image) (before : Option Image) :
    Does (is.map Work.switch) (switchImages before is) s := by
  induction is generalizing before with
  | nil => exact ⟨[], _, s, .refl _ _, rfl⟩
  | cons i rest ih =>
      obtain ⟨es, q, s', hs, hw⟩ := ih (some i)
      have hswitch : recorded (.switch i) s (.ok ()) s := rfl
      exact ⟨_, q, s', .ask hswitch hs, congrArg (Work.switch i :: ·) hw⟩

end Update

theorem Operation.does {op : Operation} (h : op.Allows p) (hop : ∀ o, op ≠ .updateIfNewer o)
    (d : WorkDir) : Does op.work (op.routine d) (some p) := by
  cases op with
  | update o =>
      obtain rfl : p = idle := h
      change Does (o.parts.map Work.ofPart) (Update.update o) (some idle)
      unfold Update.update
      split
      · rename_i ho
        obtain ⟨_ | f, _ | a⟩ := o
        · exact ⟨[], _, _, .refl _ _, rfl⟩
        all_goals cases ho
      · exact .readPhase_bind (Update.writeParts_does o.parts none).bind_left
  | updateIfNewer o => exact absurd rfl (hop o)
  | rollback t =>
      obtain rfl : p = written t := h
      apply Does.readPhase_bind
      rw [if_pos rfl]
      exact (Update.switchImages_does t.images none).bind_left
  | switchSlot t =>
      obtain rfl : p = idle := h
      exact .readPhase_bind (Update.switchImages_does t.images none).bind_left
  | _ => exact ⟨[], _, _, .refl _ _, rfl⟩

/-- In every run, the engine installs in the idle phase, and switches banks in the idle phase for a
switch and in the phase of the same target for a rollback. Each operation has it write a start of
its list, of which all but the last succeeded: an entry for each image, firmware first, with the
package offered for it. The same goes for unattended updates as the command line has them. An
operation that finds a phase which it does not allow says so, and has only looked; from a phase that
it allows, all of its list may be written. -/
theorem engine_works_where_allowed (d : WorkDir) :
    (∀ s log s', Run recorded d s log s' → ∀ op es, (op, es) ∈ log →
      (∀ i p x b a, ⟨.install i p, x, b, a⟩ ∈ es → b = some idle) ∧
      (∀ i x b a, ⟨.switch i, x, b, a⟩ ∈ es → ∃ t,
        op = .rollback t ∧ b = some (written t) ∨ op = .switchSlot t ∧ b = some idle) ∧
      Follow op.work es ∧
      ∀ t, op.target? = some t → (worked es).map (·.1.image) <+: t.images) ∧
    (∀ stick s es q s', Steps recorded (CommandLine.automatic d stick).run s es q s' →
      (∀ i p x b a, ⟨.install i p, x, b, a⟩ ∈ es → b = some idle) ∧
      Follow (stick.offer.parts.map Work.ofPart) es) ∧
    (∀ (op : Operation) p, ¬op.Allows p →
      ∀ es q s', Steps recorded (op.routine d).run (some p) es q s' →
        s' = some p ∧ (∀ e ∈ es, e.question.Looks) ∧
        ∀ x, q = .done x → ReadsPhase es → x = .error (op.refusal p)) ∧
    ∀ (op : Operation) p, op.Allows p → (∀ o, op ≠ .updateIfNewer o) →
      Does op.work (op.routine d) (some p) := by
  refine ⟨fun s log s' hrun op es hop => ?_, fun stick s es q s' hs => ?_,
    fun op p h es q s' hs => ?_, fun op p h hop => op.does h hop d⟩
  · obtain ⟨v, q, v', hs⟩ := hrun.exists_steps _ hop
    have hg := (Sure.steps (h := op.gates d) hs).1
    have ha := (op.asks d).of_mem hs
    have hf := (op.worksThrough d).steps hs
    refine ⟨fun i package x b a he => ?_, fun i x b a he => ?_, hf, fun t ht => ?_⟩
    · obtain ⟨p, rfl, hp⟩ := hg _ he nofun
      rw [op.allows_of_mayAsk_install (ha _ he) hp]
    · obtain ⟨p, rfl, hp⟩ := hg _ he nofun
      obtain ⟨t, rfl | rfl⟩ := op.eq_of_mayAsk_switch (ha _ he)
      · exact ⟨t, .inl ⟨rfl, congrArg some hp⟩⟩
      · exact ⟨t, .inr ⟨rfl, congrArg some hp⟩⟩
    · have hm := hf.order.map Work.image
      rw [op.map_image_work ht, List.map_map] at hm
      exact hm
  · have hg := (Sure.steps (h := CommandLine.automatic_gates d stick) hs).1
    refine ⟨fun i p x b a he => ?_, (CommandLine.automatic_works d stick).steps hs⟩
    obtain ⟨p, rfl, rfl⟩ := hg _ he nofun
    rfl
  · have hl := (Sure.steps (h := op.looksOnly h d) hs).1
    refine ⟨hs.world (I := (· = some p)) (fun e he => (hl e he).2) rfl,
      fun e he => (hl e he).1, ?_⟩
    rintro x rfl hr
    exact op.error_of_readsPhase h hs hr

end Dualbank
