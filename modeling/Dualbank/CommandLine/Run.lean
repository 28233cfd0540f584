import Dualbank.CommandLine.Command
import Dualbank.Exit.Report

namespace Dualbank.CommandLine

open Routine

inductive Abort
  | noPackage
  | noPackageOnStick (mount : String)
  | failed (context : String) (cause : Error)
  deriving DecidableEq, Repr

namespace Abort

def message : Abort → String
  | noPackage => "no firmware or application package given"
  | noPackageOnStick mount =>
    s!"no complete firmware or application package on update stick `{mount}`"
  | failed context _ => context

def cause? : Abort → Option Error
  | failed _ e => some e
  | _ => none

end Abort

abbrev Session := ExceptT Abort (Plan Call.Answer)

namespace Session

def print (stream : Stream) (line : String) : Session Unit :=
  ExceptT.lift (Plan.call (Call.print stream line))

def say (line : String) : Session Unit := do
  print .stdout line
  print .console line

def complain (line : String) : Session Unit := do
  print .stderr line
  print .console line

def require {α : Type} (context : String) (r : Routine α) : Session α := do
  match ← ExceptT.lift r.run with
  | .ok a => return a
  | .error e => throw (.failed context e)

/-- Runs a routine and reports an error by its class. A user who is not root is told of a failure of
the system in one more line, to try again as root; the commands here are run as root, and that line
is left out. -/
def classify {α : Type} (context : String) (r : Routine α) : Session (Except ErrorClass α) := do
  match ← ExceptT.lift r.run with
  | .ok a => return .ok a
  | .error e =>
    if e.errorClass = .fatal then throw (.failed context e)
    complain s!"{context}: {e.message}"
    return .error e.errorClass

def act (name success : String) (r : Routine Unit) : Session (Except ErrorClass Unit) := do
  let result ← classify s!"{name} failed" r
  if result.isOk then print .stdout s!"{name} {success}"
  return result

end Session

open Session

def admissionText : Admission → String
  | .allowed => "Allowed"
  | .formerFailure .application => "FormerAppUpdateFailed"
  | .formerFailure .firmware => "FormerFwUpdateFailed"
  | .formerBootFailure => "FormerFwRebootFailed"
  | .rebootPending f => s!"RebootPending \x7b includes_firmware: {f} \x7d"

def automatic (d : WorkDir) (stick : Stick) : Session Report := do
  let some t := stick.offer.target? | throw (.noPackageOnStick stick.mount)
  match ← classify "Allowing automatic update failed" (Update.allowAutomatic d) with
  | .error c => return .automatic t (.error c)
  | .ok .allowed =>
    let name := s!"Automatic {t.text} update"
    match ← classify s!"{name} failed" (Update.updateIfNewer stick.offer) with
    | .error c => return .automatic t (.error c)
    | .ok .updated => say s!"{name} successful"
    | .ok .upToDate => say s!"{t.capitalized} is up to date"
    return .automatic t (.ok ())
  | .ok admission =>
    say s!"Automatic update not allowed: {admissionText admission}"
    return .admission admission

def state : Session Report := do
  let p ← require "failed to read the reboot state" readPhase
  let rebooted ←
    if p.isWritten then require "failed to check for a reboot" (Update.isRebooted p) else pure true
  print .stdout p.text
  if !rebooted then print .stdout "Reboot pending"
  return .phase p rebooted

def printVersion (t : Target) : Session Unit := do
  let v ← require s!"failed to read the {t.text} version" (installedVersion t)
  print .stdout s!"{t.capitalized} version: {v.text}"

def availableText : Option Announcement → String
  | some a => s!"{a.target.capitalized} update {a.version.text} available, {a.size} bytes"
  | none => "No update available"

def downloadText : DownloadOutcome → String
  | .notQueued => "No download queued"
  | .started => "Download started"
  | .startedBefore => "Download started before"
  | .failed => "Download could not be requested"

def progressText : ProgressOutcome → String
  | .noDownloadStarted => "No download started"
  | .waitingToStart => "Waiting for download to start"
  | .inProgress percent => toString percent
  | .finished => "100"

def installText : InstallOutcome → String
  | .notQueued => "No installation queued"
  | .inProgress => "Installation in progress"
  | .finished => "Installation finished"
  | .failed => "Installation failed"

def applyText : ApplyOutcome → String
  | .successful => "Apply update successful"
  | .nothingToApply => "Nothing to apply"
  | .failed => "Apply update failed"
  | .rebootFailed _ => "Apply update failed, reboot not possible"

def commitText : CommitOutcome → String
  | .committed => "Commit update successful"
  | .notNeeded => "Commit update not needed"
  | .rebootPending _ => "Commit update not possible, reboot pending"

def healthText (bad : Bool) : String := if bad then "bad" else "good"

/-- The images whose versions are shown; both, unless one is asked for. -/
def versionsOf (t : Option Target) : List Image := (t.getD .both).images

def slot (s : String) : Routine Slot := MonadExcept.ofExcept (Slot.read s)

/-- What a command reports; showing versions has no code of its own. -/
def Command.report (d : WorkDir) (attempts : Nat) : Command → Session (Option Report)
  | update firmware application => do
    let offer : Offer := ⟨firmware.map (⟨·, none⟩), application.map (⟨·, none⟩)⟩
    let some t := offer.target? | throw .noPackage
    some <$> .update t <$> act s!"{t.capitalized} update" "successful" (Update.update offer)
  | commit => do
    let result ← classify "Commit failed" (Update.commit d)
    if let .ok outcome := result then print .stdout (commitText outcome)
    return some (.commit result)
  | rollback t =>
    some <$> .rollback t <$> act s!"{t.capitalized} rollback" "successful" (Update.rollback t)
  | switchSlot t =>
    some <$> .rollback t <$> act s!"{t.capitalized} slot switch" "successful" (Update.switchSlot t)
  | state => some <$> CommandLine.state
  | automatic stick => some <$> CommandLine.automatic d stick
  | versions t => do
    (versionsOf t).forM fun i => printVersion (.only i)
    return none
  | available => do
    let a ← require "failed to read the update descriptor" (Staging.announced d)
    print .stdout (availableText a)
    return some (.available (a.map (·.target)))
  | download => do
    let outcome ← require "failed to request the download" (Staging.download d)
    print .stdout (downloadText outcome)
    return some (.download outcome)
  | progress => do
    let outcome ← require "failed to determine the download progress" (Staging.progress d attempts)
    print .stdout (progressText outcome)
    return some (.progress outcome)
  | install => do
    let outcome ← require "failed to request the installation" (Staging.install d)
    print .stdout (installText outcome)
    return some (.install outcome)
  | apply => do
    let outcome ← require "failed to apply the update" (Staging.apply d)
    print .stdout (applyText outcome)
    return some (.apply outcome)
  | markBad t s => do
    let result ← classify "Marking slot bad failed" do Routine.markBad t (← slot s)
    if result.isOk then print .stdout s!"{t.capitalized} slot {s} marked bad"
    return some (.slotHealth (result.map fun _ => false))
  | isBad t s => do
    let result ← classify "Reading slot state failed" do Routine.isBad t (← slot s)
    if let .ok bad := result then
      print .stdout s!"{t.capitalized} slot {s} is {healthText bad}"
    return some (.slotHealth result)

def Command.run (d : WorkDir) (attempts : Nat) (c : Command) : Session ExitStatus := do
  match ← c.report d attempts with
  | none => return .success
  | some r => return r.exitStatus

end Dualbank.CommandLine
