import Dualbank.Proofs.Device.Calls

namespace Dualbank

open Plan Routine

namespace Text

theorem containsChars_iff (sub cs : List Char) : containsChars sub cs ↔ sub <:+: cs := by
  induction cs with
  | nil => simp [containsChars]
  | cons c cs ih => simp [containsChars, ih, List.infix_cons_iff]

theorem contains_iff (sub s : String) : contains sub s ↔ sub.toList <:+: s.toList :=
  containsChars_iff _ _

end Text

namespace BootEnv

def ReportsUndefined (name err : String) : Prop :=
  ("## Error: \"" ++ name ++ "\" not defined").toList <:+: err.toList

theorem readingOf_of_failed {tool name : String} {f : Finished} (hf : ¬f.status.isSuccess) :
    readingOf tool name f =
      if Text.contains "not defined" f.err then .ok none else .error (failure tool f) :=
  if_neg hf

end BootEnv

namespace Record

def phaseOfFailure (r : Record) (f : Finished) : Except Error Phase :=
  if Text.contains "not defined" f.err then .ok .idle
  else .error (.bootEnv (BootEnv.failure r.env.printTool f))

variable {r : Record} {f : Finished}

theorem goesOn_readPhase (hf : ¬f.status.isSuccess) :
    GoesOn r.readPhase.run (.run r.env.printTool [phaseVariable]) (.ok f)
      (.done (r.phaseOfFailure f)) := by
  have hc : BootEnv.checkName phaseVariable = .ok () := if_pos isName_phaseVariable
  rw [readPhase, BootEnv.read, hc, phaseOfFailure]
  refine ⟨_, rfl, ?_⟩
  change ((inEnv (MonadExcept.ofExcept (BootEnv.readingOf r.env.printTool phaseVariable f)) >>=
    fun v => _ : DevicePlan Phase)).run = _
  rw [BootEnv.readingOf_of_failed hf]
  split
  · rfl
  · rfl

theorem phaseOfFailure_eq_idle_iff :
    r.phaseOfFailure f = .ok .idle ↔ "not defined".toList <:+: f.err.toList := by
  rw [phaseOfFailure, ← Text.contains_iff]
  split
  case isTrue h => exact iff_of_true rfl h
  case isFalse h => exact iff_of_false nofun h

theorem phaseOfFailure_of_ne_idle (h : r.phaseOfFailure f ≠ .ok .idle) :
    r.phaseOfFailure f =
      .error (.bootEnv (.failed r.env.printTool f.status.code (Text.trim f.err))) := by
  rw [phaseOfFailure] at h ⊢
  split at h
  case isTrue => exact absurd rfl h
  case isFalse hc => exact if_neg hc

/-- Only the report of this very variable makes the phase idle; all else is an error. -/
def FailsClosed (err : String) (x : Except Error Phase) : Prop :=
  (x = .ok .idle → BootEnv.ReportsUndefined phaseVariable err) ∧
    (¬BootEnv.ReportsUndefined phaseVariable err → ∃ e, x = .error e)

theorem failsClosed_iff : FailsClosed f.err (r.phaseOfFailure f) ↔
    ("not defined".toList <:+: f.err.toList → BootEnv.ReportsUndefined phaseVariable f.err) := by
  rw [← phaseOfFailure_eq_idle_iff (r := r)]
  constructor
  · exact fun h => h.1
  · intro h
    refine ⟨h, fun hn => ⟨_, phaseOfFailure_of_ne_idle fun hi => hn (h hi)⟩⟩

end Record

namespace Device

variable {α : Type} {dev : Device} {f : Finished}

theorem perform_readPhase_bind (g : Phase → Routine α) :
    dev.perform (readPhase >>= g).run = dev.record.readPhase.run >>= fun
      | .ok p => dev.perform (g p).run
      | .error e => .done (.error e) := by
  refine congrArg _ (funext fun x => ?_)
  cases x with
  | ok p => rfl
  | error e => rfl

def updateAfter (dev : Device) (o : Offer) (t : Target) :
    Except Error Phase → SysPlan (Except Error Unit)
  | .ok p =>
    if p.isIdle then
      dev.perform (do Update.writeParts none o.parts; writePhase (.written t) : Routine Unit).run
    else .done (.error (.updateInProgress p))
  | .error e => .done (.error e)

theorem perform_update {o : Offer} {t : Target} (h : o.target? = some t) :
    dev.perform (Update.update o).run = dev.record.readPhase.run >>= dev.updateAfter o t := by
  unfold Update.update
  rw [h]
  dsimp only
  rw [perform_readPhase_bind]
  refine congrArg _ (funext fun x => ?_)
  cases x with
  | ok p =>
      dsimp only [updateAfter]
      split
      · rfl
      · rfl
  | error e => rfl

/-- The tool runs and fails. The phase reads as idle just where the error text has the two words,
and an update then goes on to write; otherwise both end in the failure of the tool. That is right
only as long as nothing but the variable is said to be not defined. -/
theorem reading_fails_closed_iff (dev : Device) (hf : ¬f.status.isSuccess) :
    ∃ x : Except Error Phase,
      GoesOn dev.record.readPhase.run (.run dev.record.env.printTool [Record.phaseVariable]) (.ok f)
        (.done x) ∧
      (x = .ok .idle ↔ "not defined".toList <:+: f.err.toList) ∧
      (x ≠ .ok .idle → x = .error
        (.bootEnv (.failed dev.record.env.printTool f.status.code (Text.trim f.err)))) ∧
      (Record.FailsClosed f.err x ↔
        ("not defined".toList <:+: f.err.toList →
          BootEnv.ReportsUndefined Record.phaseVariable f.err)) ∧
      ∀ o t, o.target? = some t →
        GoesOn (dev.perform (Update.update o).run)
          (.run dev.record.env.printTool [Record.phaseVariable]) (.ok f)
          (dev.updateAfter o t x) := by
  have hread := Record.goesOn_readPhase (r := dev.record) hf
  refine ⟨_, hread, Record.phaseOfFailure_eq_idle_iff, Record.phaseOfFailure_of_ne_idle,
    Record.failsClosed_iff, fun o t h => ?_⟩
  rw [perform_update h]
  exact hread.bind _

def failedWith (err : String) : Finished := ⟨.exited 1, "", err⟩

def accessDenied : Finished := failedWith "Cannot access /dev/mtd1\n"

def foreignReport : Finished :=
  failedWith "## Error: device /dev/mtd1 not defined in /etc/fw_env.config\n"

theorem no_update_without_environment :
    ¬accessDenied.status.isSuccess ∧
      ∀ o t, o.target? = some t →
        GoesOn (plainDevice.perform (Update.update o).run)
          (.run "fw_printenv" [Record.phaseVariable]) (.ok accessDenied)
          (.done (.error (.bootEnv (.failed "fw_printenv" 1 "Cannot access /dev/mtd1")))) := by
  have hf : ¬accessDenied.status.isSuccess := by decide
  have hw : ¬"not defined".toList <:+: accessDenied.err.toList := by
    rw [← Text.contains_iff]
    decide +kernel
  have ht : Text.trim accessDenied.err = "Cannot access /dev/mtd1" := by decide +kernel
  obtain ⟨x, -, hidle, herror, -, hupdate⟩ := reading_fails_closed_iff plainDevice hf
  have hx := herror fun h => hw (hidle.mp h)
  rw [ht] at hx
  refine ⟨hf, fun o t h => ?_⟩
  have hgo := hupdate o t h
  rw [hx] at hgo
  exact hgo

/-- A report about something else reads as an idle phase. -/
theorem idle_read_without_report :
    ¬∀ x, GoesOn plainDevice.record.readPhase.run (.run "fw_printenv" [Record.phaseVariable])
        (.ok foreignReport) (.done x) → Record.FailsClosed foreignReport.err x := by
  intro h
  have hclosed := (Record.failsClosed_iff (r := plainDevice.record)).mp
    (h _ (Record.goesOn_readPhase (f := foreignReport) (by decide)))
  have hw : Text.contains "not defined" foreignReport.err := by decide +kernel
  have hr : ¬Text.contains ("## Error: \"" ++ Record.phaseVariable ++ "\" not defined")
    foreignReport.err := by decide +kernel
  rw [Text.contains_iff] at hw hr
  exact hr (hclosed hw)

end Device

end Dualbank
