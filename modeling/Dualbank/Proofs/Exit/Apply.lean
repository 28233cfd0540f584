import Dualbank.Proofs.Exit.Session
import Dualbank.Proofs.Footprint

namespace Dualbank

open Plan Routine
open CommandLine

namespace Call

/-- What an answer makes of an activation. A failed reboot without a number counts as one with that
of an input/output error. -/
def decision? : (q : Call) → q.Answer → Option ApplyOutcome
  | reboot, .ok () => some .successful
  | reboot, .error e => some (.rebootFailed (e.errno?.getD Errno.inputOutput))
  | create .apply, .ok () => some .successful
  | create .apply, .error e => some (if e.isAlreadyPresent then .successful else .failed)
  | _, _ => none

def Undecided (q : Call) : Prop := ∀ x : q.Answer, q.decision? x = none

end Call

open Call (Undecided)

variable {W α : Type} {rules : Rules Call.Answer W} {w : W} {d : WorkDir}
  {es fs : List (Event Call.Answer W)} {o : ApplyOutcome}

def decisions (es : List (Event Call.Answer W)) : List ApplyOutcome :=
  es.filterMap fun e => e.question.decision? e.answer

def Decided (es : List (Event Call.Answer W)) (o : ApplyOutcome) : Prop :=
  decisions es = [o] ∨ decisions es = [] ∧ o = .nothingToApply

theorem decisions_append : decisions (es ++ fs) = decisions es ++ decisions fs :=
  List.filterMap_append

theorem decisions_of_undecided (h : ∀ e ∈ es, e.question.Undecided) : decisions es = [] :=
  List.filterMap_eq_nil_iff.mpr fun e he => h e he e.answer

theorem returns {r : Routine α} (h : Asks Undecided r.run) :
    FinishesOr rules (do let _ ← r; return o) w (fun o' es _ => o' = o ∧ decisions es = [])
      fun _ _ _ => True := by
  refine finishesOr_bind.mpr ?_
  intro es x v hs
  have hes := decisions_of_undecided (h.of_mem hs)
  cases x with
  | error e => exact trivial
  | ok a => exact finishesOr_pure.mpr ⟨rfl, (List.append_nil es).symm ▸ hes⟩

def Decides (rules : Rules Call.Answer W) (r : Routine ApplyOutcome) (w : W) : Prop :=
  FinishesOr rules r w (fun o es _ => Decided es o) fun _ _ _ => True

theorem Decides.bind {r : Routine α} {f : α → Routine ApplyOutcome} (h : Asks Undecided r.run)
    (hf : ∀ a w, Decides rules (f a) w) : Decides rules (r >>= f) w := by
  refine finishesOr_bind.mpr ?_
  intro es x v hs
  have hes := decisions_of_undecided (h.of_mem hs)
  cases x with
  | error e => exact trivial
  | ok a =>
      refine (hf a v).mono ?_ fun _ _ _ _ => trivial
      intro o fs w' ho
      rwa [Decided, decisions_append, hes, List.nil_append]

namespace Staging

theorem request_decides : Decides rules apply.request w := by
  refine finishesOr_bind.mpr (finishesOr_ask_bind.mpr ?_)
  intro x v _
  cases x with
  | ok u => exact finishesOr_pure.mpr (finishesOr_pure.mpr (.inl rfl))
  | error e =>
      refine finishesOr_pure.mpr ?_
      cases he : e.isAlreadyPresent with
      | true => exact finishesOr_pure.mpr (.inl (by simp [decisions, Call.decision?, he]))
      | false => exact finishesOr_pure.mpr (.inl (by simp [decisions, Call.decision?, he]))

theorem reboot_decides :
    FinishesOr rules reboot w (fun o es _ => decisions es = [o]) fun _ _ _ => True := by
  refine finishesOr_ask_bind.mpr ?_
  intro x v _
  cases x with
  | ok u => exact finishesOr_pure.mpr rfl
  | error e => exact finishesOr_pure.mpr rfl

theorem restart_decides {undo : Int → Routine ApplyOutcome} (hundo : ∀ n v,
      FinishesOr rules (undo n) v (fun o es _ => o = .rebootFailed n ∧ decisions es = [])
        fun _ _ _ => True) : Decides rules (restart d undo) w := by
  refine finishesOr_bind.mpr (reboot_decides.mono ?_ fun _ _ _ _ => trivial)
  intro o es v ho
  have hsame {r : Routine ApplyOutcome} (hr : FinishesOr rules r v
      (fun o' es _ => o' = o ∧ decisions es = []) fun _ _ _ => True) :
      FinishesOr rules r v (fun o fs _ => Decided (es ++ fs) o) fun _ _ _ => True := by
    refine hr.mono ?_ fun _ _ _ _ => trivial
    rintro o' fs v' ⟨rfl, hfs⟩
    refine .inl ?_
    rw [decisions_append, ho, hfs, List.append_nil]
  split
  case h_1 n => exact hsame (hundo n v)
  case h_2 => exact hsame (returns (WorkDir.remove_asks fun _ => rfl))

theorem applyRollback_decides : Decides rules (applyRollback d) w := by
  rw [applyRollback_eq]
  refine Decides.bind (readPhase_asks fun _ => rfl) fun p w => ?_
  dsimp only
  split
  · refine Decides.bind (writePhase_asks fun _ => rfl) fun _ w => restart_decides ?_
    exact fun n v => returns ⟨fun _ => rfl, fun _ => trivial⟩
  · exact restart_decides fun n v => finishesOr_pure.mpr ⟨rfl, rfl⟩

theorem apply_decides : Decides rules (apply d) w := by
  have hhas {m : Marker} : Undecided (.has m) := fun _ => rfl
  rw [apply_eq]
  refine Decides.bind (WorkDir.has_asks hhas) fun rollback w => ?_
  split
  · exact applyRollback_decides
  refine Decides.bind (WorkDir.has_asks hhas) fun installed w => ?_
  split
  · exact finishesOr_pure.mpr (.inr ⟨rfl, rfl⟩)
  refine Decides.bind (WorkDir.has_asks hhas) fun requested w => ?_
  split
  · exact request_decides
  refine Decides.bind (WorkDir.has_asks hhas) fun downloaded w => ?_
  split
  · exact request_decides
  · exact reboot_decides.mono (fun _ _ _ h => .inl h) fun _ _ _ _ => trivial

end Staging

namespace CommandLine

open Session

variable {context : String}

theorem require_ends {r : Routine α} : Finishes rules (require context r).run w
    (Ends rules r w fun y => y.mapError (.failed context)) := by
  apply ends_of_says
  intro y
  cases y with
  | ok a => exact rfl
  | error e => exact rfl

theorem Command.apply_ends {n : Nat} : Finishes rules (Command.apply.run d n).run w
    (Ends rules (Staging.apply d) w fun y => (fun o => (Report.apply o).exitStatus) <$>
      y.mapError (.failed "failed to apply the update")) := by
  have hrun : Command.apply.run d n = (do
      let outcome ← require "failed to apply the update" (Staging.apply d)
      print .stdout (applyText outcome)
      return (Report.apply outcome).exitStatus) := by
    simp [run, Command.report]
  rw [hrun]
  exact ends_bind require_ends (fun _ => says_print.bind says_pure) fun _ => rfl

end CommandLine

theorem Report.process_apply (o : ApplyOutcome) :
    (Report.apply o).exitStatus.process = ResultCode.applySuccessful.number ↔
      o = .successful ∨ o = .rebootFailed 67 := by
  cases o with
  | rebootFailed n =>
      simp only [exitStatus, ofApply, ExitStatus.process, ResultCode.number, reduceCtorEq, false_or,
        ApplyOutcome.rebootFailed.injEq]
      split <;> omega
  | successful | nothingToApply | failed =>
      simp [exitStatus, ofApply, ExitStatus.process, ResultCode.number]

theorem Talk.decisions_eq {w' : W} (h : Talk rules w es w') : decisions es = [] := by
  refine decisions_of_undecided fun e he => ?_
  obtain ⟨s, l, hq⟩ := (h.prints e he).exists_eq
  rw [hq]
  exact fun _ => rfl

/-- The exit code of an activation is that of a success after a success, and after a reboot that
failed with the number of that code. This is so for every outcome, and for every run to its end in
any world; which of the outcomes it is, one answer of the run decides. -/
theorem apply_exit_code (d : WorkDir) (attempts : Nat) :
    (∀ o : ApplyOutcome,
      (Report.apply o).exitStatus.process = ResultCode.applySuccessful.number ↔
        o = .successful ∨ o = .rebootFailed 67) ∧
    ∀ {W : Type} (rules : Rules Call.Answer W) w es x w',
      Steps rules (Command.apply.run d attempts).run w es (.done x) w' →
      (exitCode x = ResultCode.applySuccessful.number ↔ (∃ status, x = .ok status) ∧
        (.successful ∈ decisions es ∨ .rebootFailed 67 ∈ decisions es)) := by
  refine ⟨Report.process_apply, ?_⟩
  intro W rules w es x w' hs
  obtain ⟨y, fs, gs, v, rfl, hy, ht, rfl⟩ := Command.apply_ends es x w' hs
  have hdecides := Staging.apply_decides fs y v hy
  rw [decisions_append, ht.decisions_eq, List.append_nil]
  cases y with
  | error e =>
      have hcode : ResultCode.unhandled.number ≠ ResultCode.applySuccessful.number := by decide
      refine iff_of_false hcode ?_
      rintro ⟨⟨status, h⟩, -⟩
      cases h
  | ok o =>
      have hok : ∃ status, Except.ok (Report.apply o).exitStatus = (.ok status : Except Abort _) :=
        ⟨_, rfl⟩
      refine (Report.process_apply o).trans (Iff.trans ?_ (and_iff_right hok).symm)
      rcases hdecides with h | ⟨h, rfl⟩
      · rw [h]
        simp [eq_comm]
      · rw [h]
        simp

/-- A reboot that fails with 67 as its number passes for a success. -/
theorem failed_reboot_passes_for_success :
    ¬∀ o : ApplyOutcome,
      (Report.apply o).exitStatus.process = ResultCode.applySuccessful.number ↔
        o = .successful := by
  intro h
  cases (h (.rebootFailed 67)).mp (by decide)

end Dualbank
