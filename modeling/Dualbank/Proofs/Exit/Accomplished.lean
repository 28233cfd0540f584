import Dualbank.Proofs.Engine.Work
import Dualbank.Proofs.Exit.Session
import Dualbank.Proofs.Phase.Recorded

namespace Dualbank

open Plan Routine Phase CommandLine

structure Held where
  phase : Phase
  marker : Bool

abbrev HeldEvent := Event Call.Answer Held

namespace Call

/-- A refused write changes nothing. A creation fails because of a marker that is there, or for
another reason while there is none. What is not about the two is answered freely. -/
def faithful : Rules Answer Held
  | readPhase, k, x, k' => x = .ok k.phase ∧ k' = k
  | writePhase p, k, .ok (), k' => k' = { k with phase := p }
  | create .rollback, k, .ok (), k' => k.marker = false ∧ k' = { k with marker := true }
  | create .rollback, k, .error e, k' => (e.isAlreadyPresent ↔ k.marker = true) ∧ k' = k
  | remove (.marker .rollback), k, .ok (), k' => k' = { k with marker := false }
  | _, k, _, k' => k' = k

end Call

open Call (faithful Spares)

/-- All the work was done in order, and then the phase that tells of it was stored for good. -/
structure Accomplishes (works : List Work) (p : Phase) (es : List HeldEvent) (k' : Held) :
    Prop where
  works : worked es = works.map (·, true)
  stored : Answered es (.writePhase p) (.ok ())
  phase : k'.phase = p

variable {W : Type} {rules : Rules Call.Answer W} {w : W} {k k' : Held} {works : List Work}
  {p : Phase} {t : Target} {d : WorkDir} {n : Nat}

section Worked

variable {es fs : List (Event Call.Answer W)}

theorem worked_append : worked (es ++ fs) = worked es ++ worked fs := List.filterMap_append

theorem worked_of_quiet (h : ∀ e ∈ es, e.question.Quiet) : worked es = [] :=
  List.filterMap_eq_nil_iff.mpr fun e he => by rw [h e he]; rfl

theorem Call.IsPrint.quiet {q : Call} (h : q.IsPrint) : q.Quiet := by
  obtain ⟨s, l, rfl⟩ := h.exists_eq
  exact rfl

theorem Talk.worked_append_eq {w' : W} (h : Talk rules w fs w') :
    worked (es ++ fs) = worked es := by
  rw [worked_append, worked_of_quiet fun e he => (h.prints e he).quiet, List.append_nil]

theorem not_answered_of_spares (h : ∀ e ∈ es, e.question.Spares) {x : Except Error Unit} :
    ¬Answered es (.writePhase p) x := by
  refine not_answered ?_
  rintro e he hq
  have hs := h e he
  rw [hq] at hs
  exact hs

end Worked

theorem Talk.held_eq {es : List HeldEvent} (h : Talk faithful k es k') : k' = k :=
  h.world fun _ _ _ _ _ hx => hx

theorem Accomplishes.talk_iff {es fs : List HeldEvent} (h : Talk faithful k fs k') :
    Accomplishes works p (es ++ fs) k' ↔ Accomplishes works p es k := by
  obtain rfl := h.held_eq
  have hworked : worked (es ++ fs) = worked es := h.worked_append_eq
  have hstored : Answered (es ++ fs) (.writePhase p) (.ok ()) ↔
      Answered es (.writePhase p) (.ok ()) := h.answered_append_iff id
  constructor
  · rintro ⟨h₁, h₂, h₃⟩
    exact ⟨hworked ▸ h₁, hstored.mp h₂, h₃⟩
  · rintro ⟨h₁, h₂, h₃⟩
    exact ⟨hworked.trans h₁, hstored.mpr h₂, h₃⟩

theorem Accomplishes.append_iff {es fs : List HeldEvent}
    (hfs : ∀ e ∈ fs, e.question.Quiet ∧ e.question.Spares) :
    Accomplishes works p (fs ++ es) k' ↔ Accomplishes works p es k' := by
  have hworked : worked (fs ++ es) = worked es := by
    rw [worked_append, worked_of_quiet fun e he => (hfs e he).1, List.nil_append]
  have hstored : Answered (fs ++ es) (.writePhase p) (.ok ()) ↔
      Answered es (.writePhase p) (.ok ()) :=
    answered_append.trans (or_iff_right (not_answered_of_spares fun e he => (hfs e he).2))
  constructor
  · rintro ⟨h₁, h₂, h₃⟩
    exact ⟨hworked ▸ h₁, hstored.mp h₂, h₃⟩
  · rintro ⟨h₁, h₂, h₃⟩
    exact ⟨hworked.trans h₁, hstored.mpr h₂, h₃⟩

theorem Accomplishes.read_iff {es : List HeldEvent} {x : Except Error Phase} :
    Accomplishes works p (⟨.readPhase, x, k, k⟩ :: es) k' ↔ Accomplishes works p es k' := by
  have hread : ∀ e ∈ [(⟨.readPhase, x, k, k⟩ : HeldEvent)],
      e.question.Quiet ∧ e.question.Spares := by
    simp [Call.Quiet, Call.work?, Call.Spares]
  exact append_iff hread

/-- A routine that has a list of work done succeeds exactly if all of it is done. -/
structure WorksOff (works : List Work) (x : Except Error Unit) (es : List (Event Call.Answer W)) :
    Prop where
  ok_iff : x = .ok () ↔ worked es = works.map (·, true)
  spares : x = .ok () → ∀ e ∈ es, e.question.Spares

theorem WorksOff.cons_done {c : Work} {q : Call} {x : q.Answer} {y : Except Error Unit} {w' : W}
    {es : List (Event Call.Answer W)} (hq : q.work? = some c) (hx : q.isDone x = true)
    (hs : q.Spares) (h : WorksOff works y es) : WorksOff (c :: works) y (⟨q, x, w, w'⟩ :: es) := by
  refine ⟨?_, fun hy => List.forall_mem_cons.mpr ⟨hs, h.spares hy⟩⟩
  rw [worked_cons_of_work hq, hx, h.ok_iff]
  simp

theorem WorksOff.cons_failed {c : Work} {q : Call} {x : q.Answer} {y : Except Error Unit} {w' : W}
    {es : List (Event Call.Answer W)} (hq : q.work? = some c) (hx : q.isDone x = false)
    (hy : y ≠ .ok ()) : WorksOff (c :: works) y (⟨q, x, w, w'⟩ :: es) := by
  refine ⟨iff_of_false hy ?_, fun h => absurd h hy⟩
  rw [worked_cons_of_work hq, hx]
  simp

namespace Update

theorem throw_fails {r : Routine Unit} {e : Error} :
    Finishes rules (do r; throw e : Routine Unit).run w fun x _ _ => x ≠ .ok () := by
  refine finishes_bind.mpr fun es x v _ => ?_
  cases x with
  | ok u => exact finishes_done.mpr nofun
  | error e => exact finishes_done.mpr nofun

theorem giveUp_fails {i : Image} {before : Option Image} {e : EngineError} :
    Finishes rules (giveUp i before e).run w fun x _ _ => x ≠ .ok () := by
  unfold giveUp
  dsimp only
  split
  · refine finishes_ask.mpr fun x v _ => ?_
    cases x with
    | ok u => exact finishes_done.mpr nofun
    | error e =>
        exact finishes_ask.mpr fun _ _ _ => finishes_ask.mpr fun _ _ _ => finishes_done.mpr nofun
  · exact finishes_done.mpr nofun

theorem writeParts_worksOff {parts : List (Image × Package)} {before : Option Image} :
    Finishes rules (writeParts before parts).run w fun x es _ =>
      WorksOff (parts.map Work.ofPart) x es := by
  induction parts generalizing before w with
  | nil => exact finishes_done.mpr ⟨by simp [worked], by simp⟩
  | cons part rest ih =>
      refine finishes_ask.mpr fun x v _ => ?_
      cases x with
      | ok u => exact ih.mono fun _ _ _ h => h.cons_done rfl rfl trivial
      | error e => exact giveUp_fails.mono fun _ _ _ h => .cons_failed rfl rfl h

theorem switchImages_worksOff {is : List Image} {before : Option Image} :
    Finishes rules (switchImages before is).run w fun x es _ =>
      WorksOff (is.map Work.switch) x es := by
  induction is generalizing before w with
  | nil => exact finishes_done.mpr ⟨by simp [worked], by simp⟩
  | cons i rest ih =>
      refine finishes_ask.mpr fun x v _ => ?_
      cases x with
      | ok u => exact ih.mono fun _ _ _ h => h.cons_done rfl rfl trivial
      | error e =>
          cases before with
          | none => exact finishes_done.mpr (.cons_failed rfl rfl (by simp))
          | some j =>
              have hfails : Finishes rules
                  (do recordSwitch (.only j); throw (.engine e) : Routine Unit).run v
                  fun x _ _ => x ≠ .ok () := throw_fails
              exact hfails.mono fun _ _ _ h => .cons_failed rfl rfl h

end Update

namespace Routine

variable {α : Type} {rules : Rules Call.Answer Held}
  {post : Except Error α → List HeldEvent → Held → Prop}

theorem readPhase_bind_narrowed (hr : ∀ q k x k', rules q k x k' → faithful q k x k')
    {f : Phase → Routine α} (h : Finishes rules (f k.phase).run k fun x es k' =>
      post x (⟨.readPhase, .ok k.phase, k, k⟩ :: es) k') :
    Finishes rules (readPhase >>= f).run k post := by
  rw [readPhase, LawfulMonad.bind_assoc]
  refine finishes_ask.mpr fun x v hx => ?_
  obtain ⟨rfl, rfl⟩ := hr _ _ _ _ hx
  exact h

theorem writePhase_bind_narrowed (hr : ∀ q k x k', rules q k x k' → faithful q k x k')
    {f : Unit → Routine α}
    (hok : rules (.writePhase p) k (.ok ()) { k with phase := p } →
      Finishes rules (f ()).run { k with phase := p } fun x es k' =>
        post x (⟨.writePhase p, .ok (), k, { k with phase := p }⟩ :: es) k')
    (herror : ∀ e, rules (.writePhase p) k (.error e) k →
      post (.error e) [⟨.writePhase p, .error e, k, k⟩] k) :
    Finishes rules (writePhase p >>= f).run k post := by
  rw [writePhase, LawfulMonad.bind_assoc]
  refine finishes_ask.mpr fun x v hx => ?_
  cases x with
  | ok u =>
      obtain rfl : v = { k with phase := p } := hr _ _ _ _ hx
      exact hok hx
  | error e =>
      obtain rfl : v = k := hr _ _ _ _ hx
      exact finishes_done.mpr (herror e hx)

theorem readPhase_bind_finishes {f : Phase → Routine α}
    (h : Finishes faithful (f k.phase).run k fun x es k' =>
      post x (⟨.readPhase, .ok k.phase, k, k⟩ :: es) k') :
    Finishes faithful (readPhase >>= f).run k post :=
  readPhase_bind_narrowed (fun _ _ _ _ hx => hx) h

theorem writePhase_bind_finishes {f : Unit → Routine α}
    (hok : Finishes faithful (f ()).run { k with phase := p } fun x es k' =>
      post x (⟨.writePhase p, .ok (), k, { k with phase := p }⟩ :: es) k')
    (herror : ∀ e, post (.error e) [⟨.writePhase p, .error e, k, k⟩] k) :
    Finishes faithful (writePhase p >>= f).run k post :=
  writePhase_bind_narrowed (fun _ _ _ _ hx => hx) (fun _ => hok) fun e _ => herror e

end Routine

/-- Work off the list, and then store the phase for good: it succeeds exactly if both is done. -/
theorem accomplishes_of_worksOff {r : Routine Unit} {f : Unit → Routine Unit} {Q : Held → Prop}
    (hr : Finishes faithful r.run k fun x es _ => WorksOff works x es)
    (hf : ∀ k, Finishes faithful (f ()).run k fun x es k' => (∀ e ∈ es, e.question.Quiet) ∧
      (x = .ok () ↔ Answered es (.writePhase p) (.ok ()) ∧ k'.phase = p ∧ Q k')) :
    Finishes faithful (r >>= f).run k fun x es k' =>
      x = .ok () ↔ Accomplishes works p es k' ∧ Q k' := by
  refine finishes_bind.mpr fun es y v hy => ?_
  obtain ⟨hok, hspares⟩ := hr es y v hy
  cases y with
  | error e =>
      refine finishes_done.mpr (iff_of_false nofun ?_)
      rintro ⟨⟨hworks, -, -⟩, -⟩
      rw [List.append_nil] at hworks
      cases hok.mpr hworks
  | ok u =>
      refine (hf v).mono ?_
      rintro x fs k' ⟨hquiet, hx⟩
      have hworks : worked (es ++ fs) = works.map (·, true) := by
        rw [worked_append, worked_of_quiet hquiet, List.append_nil]
        exact hok.mp rfl
      have hstored : Answered (es ++ fs) (.writePhase p) (.ok ()) ↔
          Answered fs (.writePhase p) (.ok ()) :=
        answered_append.trans (or_iff_right (not_answered_of_spares (hspares rfl)))
      rw [hx, ← hstored]
      constructor
      · rintro ⟨hs, hp, hq⟩
        exact ⟨⟨hworks, hs, hp⟩, hq⟩
      · rintro ⟨⟨-, hs, hp⟩, hq⟩
        exact ⟨hs, hp, hq⟩

namespace Update

theorem storeWritten_finishes (t : Target) : Finishes faithful (writePhase (.written t)).run k
    fun x es k' => (∀ e ∈ es, e.question.Quiet) ∧ (x = .ok () ↔
      Answered es (.writePhase (.written t)) (.ok ()) ∧ k'.phase = .written t ∧ True) := by
  refine finishes_ask.mpr fun x v hx => ?_
  cases x with
  | ok u =>
      obtain rfl : v = { k with phase := .written t } := hx
      exact finishes_done.mpr ⟨by simp [Call.Quiet, Call.work?], by simp [Answered]⟩
  | error e => exact finishes_done.mpr ⟨by simp [Call.Quiet, Call.work?], by simp [Answered]⟩

theorem recordSwitch_finishes (t : Target) : Finishes faithful (recordSwitch t).run k
    fun x es k' => (∀ e ∈ es, e.question.Quiet) ∧ (x = .ok () ↔
      Answered es (.writePhase (.switched t)) (.ok ()) ∧ k'.phase = .switched t ∧
        k'.marker = true) := by
  refine writePhase_bind_finishes (finishes_ask.mpr fun x v hx => ?_) fun e => ?_
  · cases x with
    | ok u =>
        obtain ⟨-, rfl⟩ := hx
        exact finishes_done.mpr ⟨by simp [Call.Quiet, Call.work?], by simp [Answered]⟩
    | error e =>
        obtain ⟨he, rfl⟩ := hx
        dsimp only [Plan.bind, ExceptT.bindCont, Function.comp, Plan.pure_eq_done]
        cases hpresent : e.isAlreadyPresent with
        | true =>
            refine finishes_done.mpr ⟨by simp [Call.Quiet, Call.work?], ?_⟩
            exact iff_of_true rfl ⟨by simp [Answered], rfl, he.mp hpresent⟩
        | false =>
            refine finishes_done.mpr ⟨by simp [Call.Quiet, Call.work?], ?_⟩
            refine iff_of_false (by simp) ?_
            rintro ⟨-, -, hmarker⟩
            rw [he.mpr hmarker] at hpresent
            cases hpresent
  · exact ⟨by simp [Call.Quiet, Call.work?], by simp [Answered]⟩

theorem refused_finishes {e : Error} (hw : works ≠ []) : Finishes faithful
    (throw e : Routine Unit).run k fun x es k' => x ≠ .ok () ∧ ¬Accomplishes works p es k' := by
  refine finishes_done.mpr ⟨nofun, ?_⟩
  rintro ⟨hworks, -, -⟩
  exact hw (List.map_eq_nil_iff.mp hworks.symm)

theorem parts_ne_nil {o : Offer} (ht : o.target? = some t) : o.parts.map Work.ofPart ≠ [] := by
  rcases o with ⟨_ | f, _ | a⟩
  · cases ht
  all_goals exact nofun

theorem images_ne_nil (t : Target) : t.images.map Work.switch ≠ [] := by
  rcases t with _ | _ <;> exact nofun

theorem update_finishes {o : Offer} (ht : o.target? = some t) :
    Finishes faithful (update o).run k fun x es k' =>
      x = .ok () ↔ Accomplishes (o.parts.map Work.ofPart) (.written t) es k' := by
  unfold update
  rw [ht]
  refine readPhase_bind_finishes ?_
  simp only [Accomplishes.read_iff]
  split
  · refine (accomplishes_of_worksOff (Q := fun _ => True) writeParts_worksOff
      fun k => storeWritten_finishes t).mono ?_
    intro x es k' hx
    exact hx.trans (and_iff_left trivial)
  · exact (refused_finishes (parts_ne_nil ht)).mono fun _ _ _ h => iff_of_false h.1 h.2

theorem switchTarget_finishes (t : Target) : Finishes faithful (switchTarget t).run k
    fun x es k' => x = .ok () ↔
      Accomplishes (t.images.map Work.switch) (.switched t) es k' ∧ k'.marker = true :=
  accomplishes_of_worksOff switchImages_worksOff fun _ => recordSwitch_finishes t

theorem switchIf_finishes (t : Target) (c : Prop) [Decidable c] {e : Error} : Finishes faithful
    (if c then switchTarget t else throw e).run k fun x es k' => x = .ok () ↔
      Accomplishes (t.images.map Work.switch) (.switched t) es k' ∧ k'.marker = true := by
  split
  · exact switchTarget_finishes t
  · exact (refused_finishes (images_ne_nil t)).mono fun _ _ _ h =>
      iff_of_false h.1 fun h' => h.2 h'.1

theorem rollback_finishes (t : Target) : Finishes faithful (rollback t).run k
    fun x es k' => x = .ok () ↔
      Accomplishes (t.images.map Work.switch) (.switched t) es k' ∧ k'.marker = true := by
  refine readPhase_bind_finishes ?_
  simp only [Accomplishes.read_iff]
  exact switchIf_finishes t _

theorem switchSlot_finishes (t : Target) : Finishes faithful (switchSlot t).run k
    fun x es k' => x = .ok () ↔
      Accomplishes (t.images.map Work.switch) (.switched t) es k' ∧ k'.marker = true := by
  refine readPhase_bind_finishes ?_
  simp only [Accomplishes.read_iff]
  exact switchIf_finishes t _

end Update

namespace Call

def Consults : Call → Prop
  | readPhase | isRebooted _ | print .. => True
  | _ => False

theorem Spares.held_phase {q : Call} {x : q.Answer} (h : q.Spares) (hx : faithful q k x k') :
    k'.phase = k.phase := by
  cases q with
  | readPhase => exact congrArg Held.phase hx.2
  | writePhase p => exact h.elim
  | create m =>
      cases m with
      | rollback =>
          cases x with
          | ok u => rw [hx.2]
          | error e => exact congrArg Held.phase hx.2
      | _ => exact congrArg Held.phase hx
  | remove e =>
      rcases e with (_ | _ | _ | _ | _) | _
      case marker.rollback =>
        cases x with
        | ok u => rw [show k' = { k with marker := false } from hx]
        | error e => exact congrArg Held.phase hx
      all_goals exact congrArg Held.phase hx
  | _ => exact congrArg Held.phase hx

end Call

theorem Phase.afterCommit_ne (h : p ≠ idle) : p.afterCommit ≠ p := by
  cases p with
  | idle => exact absurd rfl h
  | _ => exact nofun

inductive CommitResult (k : Held) : Except Error CommitOutcome → List HeldEvent → Held → Prop
  | notNeeded (h : k.phase = idle) :
      CommitResult k (.ok .notNeeded) [⟨.readPhase, .ok k.phase, k, k⟩] k
  | rebootPending (h : k.phase.awaitsReboot) :
      CommitResult k (.ok (.rebootPending k.phase.includesFirmware))
        [⟨.readPhase, .ok k.phase, k, k⟩,
          ⟨.isRebooted k.phase.includesFirmware, .ok false, k, k⟩] k
  | committed {es : List HeldEvent} {k' : Held} (h : k.phase ≠ idle)
      (hp : k'.phase = k.phase.afterCommit) : CommitResult k (.ok .committed) es k'
  | failed {e : Error} {es : List HeldEvent} {k' : Held} (h : k.phase ≠ idle)
      (hp : k'.phase = k.phase)
      (hd : ¬Answered es (.isRebooted k.phase.includesFirmware) (.ok false)) :
      CommitResult k (.error e) es k'

namespace CommitResult

variable {y : Except Error CommitOutcome} {es : List HeldEvent}

theorem committed_iff (h : CommitResult k y es k') :
    y = .ok .committed ↔ k.phase ≠ idle ∧ k'.phase = k.phase.afterCommit := by
  cases h with
  | notNeeded h => simp [h]
  | committed h hp => simp [h, hp]
  | rebootPending h =>
      refine iff_of_false nofun ?_
      rintro ⟨hidle, hp⟩
      exact afterCommit_ne hidle hp.symm
  | failed h hp =>
      refine iff_of_false nofun ?_
      rintro ⟨hidle, hp'⟩
      exact afterCommit_ne hidle (hp'.symm.trans hp)

theorem notNeeded_iff (h : CommitResult k y es k') :
    y = .ok .notNeeded ↔ k.phase = idle ∧ k' = k ∧ ∀ e ∈ es, e.question.Consults := by
  cases h with
  | notNeeded h => simp [h, Call.Consults]
  | committed h => simp [h]
  | failed h => simp [h]
  | rebootPending h =>
      refine iff_of_false nofun ?_
      rintro ⟨hidle, -⟩
      rw [hidle] at h
      cases h

theorem rebootPending_iff (h : CommitResult k y es k') {f : Bool} :
    y = .ok (.rebootPending f) ↔ k.phase.awaitsReboot ∧ k.phase.includesFirmware = f ∧
      Answered es (.isRebooted f) (.ok false) ∧ k' = k ∧ ∀ e ∈ es, e.question.Consults := by
  cases h with
  | notNeeded h => simp [h, awaitsReboot, isWritten, isSwitched]
  | rebootPending h =>
      constructor
      · rintro ⟨⟩
        exact ⟨h, rfl, ⟨k, k, by simp⟩, rfl, by simp [Call.Consults]⟩
      · rintro ⟨-, rfl, -⟩
        rfl
  | committed h hp =>
      refine iff_of_false nofun ?_
      rintro ⟨-, -, -, rfl, -⟩
      exact afterCommit_ne h hp.symm
  | failed h hp hd =>
      refine iff_of_false nofun ?_
      rintro ⟨-, rfl, ha, -⟩
      exact hd ha

end CommitResult

namespace Update

theorem confirm_ends : Finishes faithful (confirm d p).run k fun x _ k' =>
    (x = .ok .committed ∧ k'.phase = p.afterCommit) ∨
      (∃ e, x = .error e) ∧ k'.phase = k.phase := by
  have hwrite (k : Held) : Finishes faithful
      (do writePhase p.afterCommit; return .committed : Routine CommitOutcome).run k fun x _ k' =>
        (x = .ok .committed ∧ k'.phase = p.afterCommit) ∨
          (∃ e, x = .error e) ∧ k'.phase = k.phase :=
    writePhase_bind_finishes (finishes_done.mpr (.inl ⟨rfl, rfl⟩)) fun e => .inr ⟨⟨e, rfl⟩, rfl⟩
  unfold confirm
  dsimp only
  split
  · refine finishes_bind.mpr fun es y v hy => ?_
    have hclear : Asks Spares d.clear.run := WorkDir.clear_asks fun _ => trivial
    have hphase : v.phase = k.phase :=
      (hy.invariant (I := fun v => v.phase = k.phase) (fun e he hb =>
        ((hclear.of_mem hy e he).held_phase (hy.rules_of_mem e he)).trans hb) rfl).1
    cases y with
    | ok u => exact (hwrite v).mono fun _ _ _ h => hphase ▸ h
    | error e => exact finishes_done.mpr (.inr ⟨⟨e, rfl⟩, hphase⟩)
  · exact hwrite k

theorem commit_results (d : WorkDir) : Finishes faithful (commit d).run k (CommitResult k) := by
  have hconfirm (fs : List HeldEvent) (hidle : k.phase ≠ idle)
      (hfs : ¬Answered fs (.isRebooted k.phase.includesFirmware) (.ok false)) :
      Finishes faithful (confirm d k.phase).run k fun x es k' =>
        CommitResult k x (fs ++ es) k' := by
    have hasks : Asks (fun q => ∀ f, q ≠ .isRebooted f) (confirm d k.phase).run :=
      confirm_asks (fun _ => nofun) fun _ => nofun
    intro es x k' hs
    rcases confirm_ends es x k' hs with ⟨rfl, hp⟩ | ⟨⟨e, rfl⟩, hp⟩
    · exact .committed hidle hp
    · refine .failed hidle hp fun h => ?_
      rcases answered_append.mp h with h | ⟨v, v', h⟩
      · exact hfs h
      · exact hasks.of_mem hs _ h _ rfl
  rw [commit_eq]
  refine readPhase_bind_finishes ?_
  by_cases hidle : k.phase = idle
  · rw [if_pos (isIdle_iff.mpr hidle)]
    exact finishes_done.mpr (.notNeeded hidle)
  rw [if_neg fun h => hidle (isIdle_iff.mp h)]
  dsimp only
  split
  case isFalse => exact hconfirm [_] hidle (by simp [Answered])
  case isTrue hreboot =>
    rw [isRebooted, Routine.isRebooted, LawfulMonad.bind_assoc]
    refine finishes_ask.mpr fun x v hx => ?_
    rw [show v = k from hx]
    rcases x with e | _ | _
    · exact finishes_done.mpr (.failed hidle rfl (by simp [Answered]))
    · exact finishes_done.mpr (.rebootPending hreboot)
    · exact hconfirm [_, _] hidle (by simp [Answered])

end Update

def UpToDate (parts : List (Image × Package)) (es : List (Event Call.Answer W)) : Prop :=
  ∀ part ∈ parts, ∃ v u, part.2.version = some v ∧
    Answered es (.installedVersion (.only part.1)) (.ok u) ∧ v.newerThan u = false

def Unwritten (es : List (Event Call.Answer W)) : Prop :=
  ∀ e ∈ es, e.question.Quiet ∧ e.question.Spares

theorem UpToDate.congr {parts : List (Image × Package)} {es fs : List (Event Call.Answer W)}
    (h : ∀ part ∈ parts, ∀ u, Answered es (.installedVersion (.only part.1)) (.ok u) ↔
      Answered fs (.installedVersion (.only part.1)) (.ok u)) :
    UpToDate parts es ↔ UpToDate parts fs := by
  refine forall_congr' fun part => forall_congr' fun hpart => ?_
  refine exists_congr fun v => exists_congr fun u => and_congr_right fun _ => ?_
  exact and_congr_left fun _ => h part hpart u

theorem Offer.nodup_images (o : Offer) : (o.parts.map Prod.fst).Nodup := by
  rcases o with ⟨_ | f, _ | a⟩ <;> simp [parts]

/-- An answer about one image tells nothing of the parts for the others. -/
theorem upToDate_cons_iff {i : Image} {p : Package} {v u : Version} {w' : W}
    {rest : List (Image × Package)} {es : List (Event Call.Answer W)} (hv : p.version = some v)
    (hi : i ∉ rest.map Prod.fst)
    (hes : ∀ e ∈ es, ∃ part ∈ rest, e.question = .installedVersion (.only part.1)) :
    UpToDate ((i, p) :: rest) (⟨.installedVersion (.only i), .ok u, w, w'⟩ :: es) ↔
      v.newerThan u = false ∧ UpToDate rest es := by
  have hother : ∀ part ∈ rest,
      (.installedVersion (.only i) : Call) ≠ .installedVersion (.only part.1) := by
    intro part hpart h
    have hpart' : part.1 = i := by simpa [eq_comm] using h
    exact hi (List.mem_map.mpr ⟨part, hpart, hpart'⟩)
  refine List.forall_mem_cons.trans (and_congr ?_ (UpToDate.congr fun part hpart u' =>
    answered_cons_of_ne (hother part hpart)))
  constructor
  · rintro ⟨v', u', hv', ⟨a, b, hmem⟩, h⟩
    obtain rfl := Option.some.inj (hv.symm.trans hv')
    rcases List.mem_cons.mp hmem with he | hmem
    · cases he
      exact h
    · obtain ⟨part, hpart, hq⟩ := hes _ hmem
      exact absurd hq (hother part hpart)
  · intro h
    exact ⟨v, u, hv, ⟨w, w', List.mem_cons_self⟩, h⟩

namespace Update

theorem offersNewer_finishes {parts : List (Image × Package)} (hn : (parts.map Prod.fst).Nodup) :
    Finishes rules (offersNewer parts).run w fun x es _ => x = .ok false ↔ UpToDate parts es := by
  induction parts generalizing w with
  | nil => exact finishes_done.mpr (iff_of_true rfl (by simp [UpToDate]))
  | cons part rest ih =>
      obtain ⟨i, p⟩ := part
      obtain ⟨hi, hn⟩ := List.nodup_cons.mp hn
      have hasks : Asks (fun q => ∃ part ∈ rest, q = .installedVersion (.only part.1))
          (offersNewer rest).run := offersNewer_asks fun part hpart => ⟨part, hpart, rfl⟩
      have hrest (b : Bool) (w : W) : Finishes rules
          (do return b || (← offersNewer rest) : Routine Bool).run w fun x es _ =>
            (∀ e ∈ es, ∃ part ∈ rest, e.question = .installedVersion (.only part.1)) ∧
              (x = .ok false ↔ b = false ∧ UpToDate rest es) := by
        refine finishes_bind.mpr fun es y v hy => ?_
        have hasked := hasks.of_mem hy
        have hok := ih hn es y v hy
        cases y with
        | error e =>
            refine finishes_done.mpr ⟨by simpa using hasked, iff_of_false (by simp) ?_⟩
            rintro ⟨-, hup⟩
            rw [List.append_nil] at hup
            cases hok.mpr hup
        | ok later =>
            refine finishes_done.mpr ⟨by simpa using hasked, ?_⟩
            rw [List.append_nil, ← hok]
            simp
      rw [offersNewer]
      split
      case h_1 hnone =>
        refine (hrest true w).mono ?_
        rintro x es w' ⟨-, hx⟩
        refine hx.trans (iff_of_false (by simp) fun hup => ?_)
        obtain ⟨v, u, hv, -⟩ := hup (i, p) List.mem_cons_self
        cases hnone.symm.trans hv
      case h_2 v hv =>
        rw [installedVersion, LawfulMonad.bind_assoc]
        refine finishes_ask.mpr fun y w₁ _ => ?_
        cases y with
        | error e =>
            refine finishes_done.mpr (iff_of_false (by simp) fun hup => ?_)
            obtain ⟨v, u, -, hu, -⟩ := hup (i, p) List.mem_cons_self
            simp [Answered] at hu
        | ok u =>
            refine (hrest (v.newerThan u) w₁).mono ?_
            rintro x es w' ⟨hasked, hx⟩
            exact hx.trans (upToDate_cons_iff hv hi hasked).symm

theorem updateIfNewer_finishes {o : Offer} (ht : o.target? = some t) :
    Finishes faithful (updateIfNewer o).run k fun x es k' => (∃ a, x = .ok a) ↔
      (UpToDate o.parts es ∧ Unwritten es) ∨
        Accomplishes (o.parts.map Work.ofPart) (.written t) es k' := by
  have hasks : Asks (fun q => q.Quiet ∧ q.Spares) (offersNewer o.parts).run :=
    offersNewer_asks fun _ _ => ⟨rfl, trivial⟩
  refine finishes_bind.mpr fun fs y v hy => ?_
  have hnewer := offersNewer_finishes o.nodup_images fs y v hy
  have hfs : Unwritten fs := hasks.of_mem hy
  have hread {es : List HeldEvent} {k' : Held} (hes : worked es = [])
      (h : Accomplishes (o.parts.map Work.ofPart) (.written t) es k') : False :=
    parts_ne_nil ht (List.map_eq_nil_iff.mp (h.works.symm.trans hes))
  rcases y with e | _ | _
  · refine finishes_done.mpr (iff_of_false (by simp) ?_)
    rw [List.append_nil]
    rintro (⟨hup, -⟩ | h)
    · cases hnewer.mpr hup
    · exact hread (worked_of_quiet fun e he => (hfs e he).1) h
  · refine finishes_done.mpr (iff_of_true ⟨_, rfl⟩ (.inl ?_))
    rw [List.append_nil]
    exact ⟨hnewer.mp rfl, hfs⟩
  · refine finishes_bind.mpr fun gs x k' hx => ?_
    have hup : ¬UpToDate o.parts (fs ++ gs) := by
      have hother : Asks (fun q => ∀ t, q ≠ .installedVersion t) (update o).run :=
        update_asks nofun (fun _ _ => nofun) (fun _ => nofun) fun _ => nofun
      have hbefore : UpToDate o.parts (fs ++ gs) ↔ UpToDate o.parts fs :=
        UpToDate.congr fun part _ u => answered_append.trans
          (or_iff_left (not_answered fun e he => hother.of_mem hx e he _))
      rw [hbefore, ← hnewer]
      exact nofun
    have hok : x = .ok () ↔ Accomplishes _ _ (fs ++ gs) k' :=
      Iff.trans (update_finishes ht gs x k' hx) (Accomplishes.append_iff hfs).symm
    cases x with
    | ok u =>
        refine finishes_done.mpr (iff_of_true ⟨_, rfl⟩ (.inr ?_))
        rw [List.append_nil]
        exact hok.mp rfl
    | error e =>
        refine finishes_done.mpr (iff_of_false (by simp) ?_)
        rw [List.append_nil]
        rintro (⟨h, -⟩ | h)
        · exact hup h
        · cases hok.mpr h

end Update

end Dualbank
