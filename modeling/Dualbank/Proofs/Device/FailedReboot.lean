import Dualbank.Proofs.Device.Retry
import Dualbank.Proofs.Footprint
import Dualbank.Proofs.Plan.Finishes

namespace Dualbank

open Plan Phase

def Accepts (p : Phase) : Event Call.Answer Board → Prop
  | ⟨.writePhase p', .ok _, _, _⟩ => p' = p
  | _ => False

namespace Device

variable {α : Type} {dev : Device} {sort : SysCall → Prop} {b b' : Board}

/-- What a plan may end with where nothing fails. -/
def Answers (dev : Device) (b : Board) (p : Plan Call.Answer α) (a : α) : Prop :=
  ∃ b', Gives (dev.calls Never) p b a b'

theorem answers_iff {p : Plan Call.Answer α} {x y : α} {c : Board}
    (h : ∀ x b', Gives (dev.calls Never) p b x b' ↔ x = y ∧ b' = c) :
    dev.Answers b p x ↔ x = y := by
  simp only [Answers, h, exists_and_left, exists_eq, and_true]

theorem answers_readPhase {x : Except Error Phase} :
    dev.Answers b Routine.readPhase.run x ↔ x = b.phase := by
  refine answers_iff (c := b) fun x b' => SureOr.gives_iff (dev.exists_calls Never) ?_
  exact sureOr_readPhase (fun _ hp => ⟨hp.symm, rfl⟩) (fun _ he => ⟨he.symm, rfl⟩)
    (fun _ => False.elim) fun _ _ => False.elim

theorem answers_isRebooted {includesFirmware : Bool} {x : Except Error Bool} :
    dev.Answers b (Routine.isRebooted includesFirmware).run x ↔ x = .ok b.isRebooted := by
  refine answers_iff (c := b) fun x b' => SureOr.gives_iff (dev.exists_calls Never) ?_
  exact sureOr_isRebooted ⟨rfl, rfl⟩ (fun _ => False.elim) fun _ _ => False.elim

theorem answers_commit {t : Target} {x : Except Error CommitOutcome}
    (hp : b.phase = .ok (switched t)) :
    dev.Answers b (Update.commit dev.workDir).run x ↔
      x = .ok (if b.isRebooted then .committed else .rebootPending t.includesFirmware) := by
  cases hr : b.isRebooted with
  | true =>
      have hn : dev.workDir.removedPaths (switched t) = [] := rfl
      refine answers_iff fun x b' => Update.gives_commit_committed hp nofun (fun _ => hr) ?_
      rw [hn]
      exact List.forall_mem_nil _
  | false => exact answers_iff fun x b' => Update.gives_commit_pending hp rfl hr

theorem eq_of_calls_reboot {x : Except OsError Unit}
    (h : dev.calls (Inert sort) .reboot b x b') : b' = b := by
  have hs : Sure (SysCall.rules dev.record (Inert sort)) (fun _ => True)
      (rebootBy dev.rebootCommand) b fun _ b' => b' = b := by
    cases dev.rebootCommand with
    | nil => exact rfl
    | cons program args =>
        intro x b' hx
        obtain rfl : b' = b := by
          rcases hx with rfl | ⟨-, -, rfl⟩
          · rfl
          · rfl
        refine ⟨trivial, ?_⟩
        cases x with
        | ok status => exact rfl
        | error e => exact rfl
  exact hs.gives h

theorem of_calls_has {m : Marker} {x : Except OsError Bool}
    (h : dev.calls (Inert sort) (.has m) b x b') :
    b' = b ∧ ∀ y, x = .ok y → y = (b.nodes (dev.workDir.pathOf (.marker m)) != .absent) := by
  rcases gives_call.mp h with ⟨rfl, rfl⟩ | ⟨⟨e, rfl⟩, -, rfl⟩
  · exact ⟨rfl, fun y hy => (Except.ok.inj hy).symm⟩
  · exact ⟨rfl, nofun⟩

theorem of_calls_readPhase {x : Except Error Phase}
    (h : dev.calls (Inert sort) .readPhase b x b') :
    b' = b ∧ ∀ p, x = .ok p → b.phase = .ok p ∨ p = .idle ∧ ∃ q, sort q := by
  have hs : SureOr (SysCall.rules dev.record (Inert sort)) (fun _ => True) dev.record.readPhase b
      (fun p b' => b' = b ∧ (b.phase = .ok p ∨ p = .idle ∧ ∃ q, sort q)) fun _ b' => b' = b :=
    Record.sureOr_readPhase (fun _ _ _ => trivial) (fun _ hp => ⟨rfl, .inl hp⟩) (fun _ _ => rfl)
      (fun _ hf => ⟨hf.2, .inr ⟨rfl, _, hf.1⟩⟩) fun _ _ hf => hf.2
  cases x with
  | ok p =>
      obtain ⟨hb, hp⟩ := hs.gives_ok h
      exact ⟨hb, fun p' hp' => Except.ok.inj hp' ▸ hp⟩
  | error e => exact ⟨hs.gives_error h, nofun⟩

theorem of_calls_writePhase {p : Phase} {x : Except Error Unit}
    (h : dev.calls (Inert sort) (.writePhase p) b x b') :
    (∀ u, x = .ok u → b' = b.record p) ∧ ∀ e, x = .error e → ∃ q, sort q := by
  have hs : SureOr (SysCall.rules dev.record (Inert sort)) (fun _ => True)
      (dev.record.writePhase p) b (fun _ b' => b' = b.record p) fun _ _ => ∃ q, sort q :=
    Record.sureOr_writePhase rfl (fun _ _ _ hf => ⟨_, hf.1⟩) fun _ _ _ hf => ⟨_, hf.1⟩
  constructor
  · rintro u rfl
    exact hs.gives_ok h
  · rintro e rfl
    exact hs.gives_error h

end Device

namespace Staging

open Device

variable {dev : Device} {sort : SysCall → Prop} {b b' : Board} {t : Target}

/-- A reboot that failed, after which the phase was put back: the record is as if the phase was
written now. Only a call that failed keeps it from being put back. -/
def Restored (sort : SysCall → Prop) (b : Board) (t : Target) (o : ApplyOutcome)
    (es : List (Event Call.Answer Board)) (b' : Board) : Prop :=
  ∀ n, o = .rebootFailed n →
    ((∃ e ∈ es, Accepts (switched t) e) → b' = b.record (switched t)) ∧
      ((∀ q, ¬sort q) → ∃ e ∈ es, Accepts (switched t) e)

theorem reboot_finishes {post : ApplyOutcome → List (Event Call.Answer Board) → Board → Prop}
    {fail : Error → List (Event Call.Answer Board) → Board → Prop}
    (h : ∀ o x, post o [⟨.reboot, x, b, b⟩] b) :
    FinishesOr (dev.calls (Inert sort)) reboot b post fail := by
  apply finishesOr_ask_bind.mpr
  intro x b' hx
  obtain rfl := eq_of_calls_reboot hx
  cases x with
  | ok u => exact finishesOr_pure.mpr (h _ _)
  | error e => exact finishesOr_pure.mpr (h _ _)

theorem restored_of_ne {o : ApplyOutcome} {r : Routine Unit} {c : Board}
    {past : List (Event Call.Answer Board) → List (Event Call.Answer Board)}
    (ho : ∀ n, o ≠ .rebootFailed n) :
    FinishesOr (dev.calls (Inert sort)) (do r; return o) c
      (fun o es b' => Restored sort b t o (past es) b') fun _ _ _ => True := by
  refine finishesOr_bind.mpr fun fs x b' _ => ?_
  cases x with
  | ok u => exact finishesOr_pure.mpr fun n hn => absurd hn (ho n)
  | error e => trivial

theorem restart_finishes {undo : Int → Routine ApplyOutcome} {c : Board}
    (before : List (Event Call.Answer Board))
    (hundo : ∀ n x, FinishesOr (dev.calls (Inert sort)) (undo n) c
      (fun o es b' => Restored sort b t o (before ++ ⟨.reboot, x, c, c⟩ :: es) b')
      fun _ _ _ => True) :
    FinishesOr (dev.calls (Inert sort)) (restart dev.workDir undo) c
      (fun o es b' => Restored sort b t o (before ++ es) b') fun _ _ _ => True := by
  apply finishesOr_bind.mpr
  apply reboot_finishes
  intro o x
  cases o with
  | rebootFailed n => exact hundo n x
  | _ => exact restored_of_ne fun _ => nofun

/-- The answer alone tells whether the phase was put back. -/
theorem putBack_finishes {n : Int} (before : List (Event Call.Answer Board))
    (hbefore : ∀ e ∈ before, ¬Accepts (switched t) e) :
    FinishesOr (dev.calls (Inert sort))
      (do discard (Routine.ask (.writePhase (switched t))); return ApplyOutcome.rebootFailed n)
      (b.record (reverted t)) (fun o es b' => Restored sort b t o (before ++ es) b')
      fun _ _ _ => True := by
  refine finishesOr_bind.mpr (finishesOr_ask_bind.mpr fun x b' hx => ?_)
  obtain ⟨hok, herror⟩ := of_calls_writePhase hx
  refine finishesOr_pure.mpr (finishesOr_pure.mpr fun m _ => ?_)
  cases x with
  | ok u =>
      rw [hok u rfl, Board.record_record]
      exact ⟨fun _ => rfl, fun _ => by simp [Accepts]⟩
  | error e =>
      obtain ⟨q, hq⟩ := herror e rfl
      refine ⟨fun ⟨e', he', ha⟩ => ?_, fun hn => absurd hq (hn q)⟩
      rcases List.mem_append.mp he' with he' | he'
      · exact absurd ha (hbefore e' he')
      · obtain rfl := List.mem_singleton.mp he'
        exact ha.elim

theorem applyRollback_finishes (hp : b.phase = .ok (switched t)) :
    FinishesOr (dev.calls (Inert sort)) (applyRollback dev.workDir) b (Restored sort b t)
      fun _ _ _ => True := by
  rw [applyRollback_eq, Routine.readPhase, LawfulMonad.bind_assoc]
  apply finishesOr_ask_bind.mpr
  intro x b' hx
  obtain ⟨rfl, hread⟩ := of_calls_readPhase hx
  cases x with
  | error e => exact finishesOr_throw.mpr trivial
  | ok p =>
      apply finishesOr_bind.mpr
      apply finishesOr_pure.mpr
      rcases hread p rfl with hp' | ⟨rfl, q, hq⟩
      · obtain rfl := Except.ok.inj (hp.symm.trans hp')
        apply finishesOr_bind.mpr
        apply finishesOr_ask_bind.mpr
        intro x b₁ hx
        cases x with
        | error e => exact finishesOr_throw.mpr trivial
        | ok u =>
            obtain rfl := (of_calls_writePhase hx).1 u rfl
            refine finishesOr_pure.mpr (restart_finishes [_, _] fun n x => ?_)
            exact putBack_finishes [_, _, _] (by simp [Accepts, afterCommit])
      -- A phase that reads as idle is neither demoted nor put back.
      · refine restart_finishes [_] fun n x => finishesOr_pure.mpr fun m _ => ?_
        refine ⟨?_, fun hn => absurd hq (hn q)⟩
        simp [Accepts]

theorem apply_finishes (hp : b.phase = .ok (switched t))
    (hm : b.nodes (dev.workDir.pathOf (.marker .rollback)) ≠ .absent) :
    FinishesOr (dev.calls (Inert sort)) (apply dev.workDir) b (Restored sort b t)
      fun _ _ _ => True := by
  rw [apply_eq]
  apply finishesOr_bind.mpr
  apply finishesOr_ask_bind.mpr
  intro x b' hx
  obtain ⟨rfl, hread⟩ := of_calls_has hx
  cases x with
  | error e => exact finishesOr_throw.mpr trivial
  | ok y =>
      obtain rfl : y = true := by
        rw [hread y rfl]
        exact bne_iff_ne.mpr hm
      refine finishesOr_pure.mpr ((applyRollback_finishes hp).mono ?_ fun _ _ _ _ => trivial)
      intro o es b' h n hn
      simpa [Accepts] using h n hn

/-- The marker of a rollback is there, and the switch is still pending when the reboot fails and
the phase is put back. The phase is answered as before; that the device rebooted is answered as
before, and a commit ends as before, just where there was no reboot to forget. -/
theorem apply_of_failed_reboot {es : List (Event Call.Answer Board)} {n : Int}
    (hid : Text.IsWord b.bootId) (hp : b.phase = .ok (switched t))
    (hm : b.nodes (dev.workDir.pathOf (.marker .rollback)) ≠ .absent)
    (hs : Steps (dev.calls (Inert sort)) (apply dev.workDir).run b es
      (.done (.ok (.rebootFailed n))) b')
    (hw : ∃ e ∈ es, Accepts (switched t) e) :
    (∀ x, dev.Answers b' Routine.readPhase.run x ↔ dev.Answers b Routine.readPhase.run x) ∧
      ((∀ f x, dev.Answers b' (Routine.isRebooted f).run x ↔
        dev.Answers b (Routine.isRebooted f).run x) ↔ b.isRebooted = false) ∧
      ((∀ x, dev.Answers b' (Update.commit dev.workDir).run x ↔
        dev.Answers b (Update.commit dev.workDir).run x) ↔ b.isRebooted = false) ∧
      ∀ x, dev.Answers b' (Update.commit dev.workDir).run x ↔
        x = .ok (.rebootPending t.includesFirmware) := by
  obtain rfl : b' = b.record (switched t) := (apply_finishes hp hm es _ b' hs n rfl).1 hw
  have hrebooted : (b.record (switched t)).isRebooted = false :=
    Board.isRebooted_of_stamped hid (Board.record_bootIdVariable b _)
  have hcommit (x : Except Error CommitOutcome) :
      dev.Answers (b.record (switched t)) (Update.commit dev.workDir).run x ↔
        x = .ok (.rebootPending t.includesFirmware) := by
    rw [answers_commit (Board.record_phase b _), hrebooted]
    rfl
  refine ⟨fun x => ?_, ?_, ?_, hcommit⟩
  · rw [answers_readPhase, answers_readPhase, Board.record_phase, hp]
  · simp only [answers_isRebooted, hrebooted]
    constructor
    · intro h
      exact (Except.ok.inj ((h true (.ok false)).mp rfl)).symm
    · intro h f x
      rw [h]
  · simp only [hcommit, answers_commit hp]
    cases b.isRebooted with
    | true =>
        refine iff_of_false (fun h => ?_) nofun
        cases (h (.ok .committed)).mpr rfl
    | false => exact iff_of_true (fun _ => Iff.rfl) rfl

def switchedBoard : Board :=
  Board.mk (fun _ => none) (fun _ => .file) 0 "first\n" |>.record (switched .both)

def applied (b : Board) : Except Error ApplyOutcome × Board :=
  plainDevice.runBut (fun _ => false) (apply plainDevice.workDir).run b

theorem exists_steps_applied {n : Int} (hp : b.phase = .ok (switched t))
    (hm : b.nodes (plainDevice.workDir.pathOf (.marker .rollback)) ≠ .absent)
    (h : (applied b).1 = .ok (.rebootFailed n)) :
    ∃ es, Steps (plainDevice.calls Never) (apply plainDevice.workDir).run b es
      (.done (.ok (.rebootFailed n))) (applied b).2 ∧ ∃ e ∈ es, Accepts (switched t) e := by
  have hg : Gives (plainDevice.calls Never) (apply plainDevice.workDir).run b
      (.ok (.rebootFailed n)) (applied b).2 := gives_runBut nofun h
  obtain ⟨es, hs⟩ := hg
  exact ⟨es, hs, (apply_finishes hp hm es _ _ hs n rfl).2 fun _ => id⟩

theorem apply_of_failed_reboot_in_first_boot :
    (applied switchedBoard).1 = .ok (.rebootFailed Errno.inputOutput) ∧
      ∀ x, plainDevice.Answers (applied switchedBoard).2 (Update.commit plainDevice.workDir).run x ↔
        plainDevice.Answers switchedBoard (Update.commit plainDevice.workDir).run x := by
  have hx : (applied switchedBoard).1 = .ok (.rebootFailed Errno.inputOutput) := by decide +kernel
  have hp : switchedBoard.phase = .ok (switched .both) := by decide +kernel
  obtain ⟨es, hs, hw⟩ := exists_steps_applied hp (by decide +kernel) hx
  have h := apply_of_failed_reboot (by decide +kernel) hp (by decide +kernel) hs hw
  exact ⟨hx, h.2.2.1.mpr (by decide +kernel)⟩

/-- The attempt is made in the next boot: before it a commit succeeds, after it another reboot is
needed. -/
theorem reboot_forgotten_by_failed_reboot :
    ¬∀ (es : List (Event Call.Answer Board)) (b' : Board) (n : Int),
      let b := switchedBoard.reboot "second\n"
      Text.IsWord b.bootId → b.phase = .ok (switched .both) →
      b.nodes (plainDevice.workDir.pathOf (.marker .rollback)) ≠ .absent →
      Steps (plainDevice.calls Never) (apply plainDevice.workDir).run b es
        (.done (.ok (.rebootFailed n))) b' →
      (∃ e ∈ es, Accepts (switched .both) e) →
      (∀ f x, plainDevice.Answers b' (Routine.isRebooted f).run x ↔
        plainDevice.Answers b (Routine.isRebooted f).run x) ∧
      ∀ x, plainDevice.Answers b' (Update.commit plainDevice.workDir).run x ↔
        plainDevice.Answers b (Update.commit plainDevice.workDir).run x := by
  intro h
  have hx : (applied (switchedBoard.reboot "second\n")).1 =
    .ok (.rebootFailed Errno.inputOutput) := by decide +kernel
  have hp : (switchedBoard.reboot "second\n").phase = .ok (switched .both) := by decide +kernel
  obtain ⟨es, hs, hw⟩ := exists_steps_applied hp (by decide +kernel) hx
  obtain ⟨hr, -⟩ := h _ _ _ (by decide +kernel) hp (by decide +kernel) hs hw
  have hbefore : (switchedBoard.reboot "second\n").isRebooted = true := by decide +kernel
  have hafter : (applied (switchedBoard.reboot "second\n")).2.isRebooted = false := by
    decide +kernel
  have hf := (hr true (.ok true)).mpr (answers_isRebooted.mpr (by rw [hbefore]))
  rw [answers_isRebooted, hafter] at hf
  cases hf

end Staging

end Dualbank
