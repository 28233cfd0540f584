import Dualbank.Update

namespace Dualbank

open Routine Text
open MonadExcept (ofExcept)

structure Announcement where
  target : Target
  version : Version
  /-- Expected size of the artifact in bytes. -/
  size : Nat
  source : Option String
  deriving DecidableEq, Repr

inductive DownloadOutcome
  | notQueued
  | started
  | startedBefore
  | failed
  deriving DecidableEq, Repr

inductive ProgressOutcome
  | noDownloadStarted
  | waitingToStart
  | inProgress (percent : Nat)
  | finished
  deriving DecidableEq, Repr

inductive InstallOutcome
  | notQueued
  | inProgress
  | finished
  | failed
  deriving DecidableEq, Repr

inductive ApplyOutcome
  | successful
  | nothingToApply
  | failed
  | rebootFailed (errno : Int)
  deriving DecidableEq, Repr

namespace Announcement

/-- Reads the three trimmed descriptor texts, in the order type, version, size. -/
def ofTexts (type version size : String) : Except Error (Option String → Announcement) := do
  let some t := Target.ofDescriptor? type | throw (.invalidDescriptor (.unknownType type))
  let .ok v := Version.read version | throw (.invalidDescriptor (.invalidVersion version))
  let .ok n := readNat maxU64 size.toList | throw (.invalidDescriptor (.invalidSize size))
  return fun source => ⟨t, v, n, source⟩

end Announcement

namespace ProgressOutcome

/-- How much of the expected bytes is there. The percentage is counted in 64 bits and stops at their
greatest number. -/
def ofSizes (actual expected : Nat) : ProgressOutcome :=
  let percent := min (actual * 100) maxU64 / expected
  if percent = 0 then noDownloadStarted
  else if percent < 100 then inProgress percent
  else finished

end ProgressOutcome

namespace Staging

def announced (d : WorkDir) : Routine (Option Announcement) := do
  let type ← d.read .type
  let version ← d.read .version
  let size ← d.read .size
  match type, version, size with
  | some t, some v, some n => do
    let announcement ← ofExcept (Announcement.ofTexts t v n)
    return some (announcement (← d.location))
  | _, _, _ => return none

def download (d : WorkDir) : Routine DownloadOutcome := do
  if (← announced d).isNone then return .notQueued
  match ← WorkDir.create .download with
  | .ok .created => return .started
  | .ok .alreadyPresent => return .startedBefore
  | .error _ => return .failed

/-- Looks for the location of the artifact, and up to `n` times more after a pause. -/
def awaitLocation (d : WorkDir) : Nat → Routine (Option String)
  | 0 => d.location
  | n + 1 => do
    match ← d.location with
    | some l => return some l
    | none => do
      ask .pause
      awaitLocation d n

def artifactSize (path : String) : Routine Nat := do
  match ← ask (.inspect path) with
  | .ok (.regular n) => return n
  | .ok .other => throw (.invalidDescriptor (.notRegular path))
  | .error e => if e.isNotFound then return 0 else throw (.io (.measuring path) e)

/-- How far the download got. The location is looked for `attempts` times, at least once. -/
def progress (d : WorkDir) (attempts : Nat) : Routine ProgressOutcome := do
  if !(← d.has .download) then return .noDownloadStarted
  match ← announced d with
  | none => return .noDownloadStarted
  | some a =>
    if a.size = 0 then throw (.invalidDescriptor .zeroSize)
    match ← awaitLocation d (attempts - 1) with
    | none => return .waitingToStart
    | some path => return .ofSizes (← artifactSize path) a.size

def install (d : WorkDir) : Routine InstallOutcome := do
  if (← d.location).isNone then return .notQueued
  if ← d.has .installed then return .finished
  match ← WorkDir.create .install with
  | .ok _ => return .inProgress
  | .error _ => return .failed

/-- Reboots; a failure without a number of its own counts as an input/output error. -/
def reboot : Routine ApplyOutcome := do
  match ← ask .reboot with
  | .ok () => return .successful
  | .error e => return .rebootFailed (e.errno?.getD Errno.inputOutput)

/-- Takes a pending switch to its next phase before the reboot, and back if the reboot fails. Not
being able to take it back is no failure of its own. -/
def applyRollback (d : WorkDir) : Routine ApplyOutcome := do
  let p ← readPhase
  if p.isSwitched then writePhase p.afterCommit
  match ← reboot with
  | .rebootFailed n => do
    if p.isSwitched then discard (ask (.writePhase p))
    return .rebootFailed n
  | outcome => do
    d.remove (.marker .rollback)
    return outcome

/-- Activates an installed update or a pending switch. A package that came over the network only
gets its marker, and the supervisor reboots; a local one reboots at once. -/
def apply (d : WorkDir) : Routine ApplyOutcome := do
  if ← d.has .rollback then applyRollback d
  else if !(← d.has .installed) then return .nothingToApply
  else if ← d.has .apply then request
  else if ← d.has .download then request
  else reboot
where
  request : Routine ApplyOutcome := do
    match ← WorkDir.create .apply with
    | .ok _ => return .successful
    | .error _ => return .failed

end Staging

end Dualbank
