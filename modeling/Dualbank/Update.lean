import Dualbank.WorkDir

namespace Dualbank

open Routine

inductive CommitOutcome
  | committed
  | notNeeded
  /-- The device has not rebooted yet; nothing changed. -/
  | rebootPending (includesFirmware : Bool)
  deriving DecidableEq, Repr

inductive AutomaticOutcome
  | updated
  | upToDate
  deriving DecidableEq, Repr

/-- Whether an automatic update may start, and what is in its way otherwise. -/
inductive Admission
  | allowed
  | formerFailure (i : Image)
  | formerBootFailure
  | rebootPending (includesFirmware : Bool)
  deriving DecidableEq, Repr

namespace Phase

def awaitsReboot (p : Phase) : Bool := p.isWritten || p.isSwitched

def afterCommit : Phase → Phase
  | switched t => reverted t
  | _ => idle

def formerFailure? : Phase → Option Admission
  | failed i => some (.formerFailure i)
  | bootFailed => some .formerBootFailure
  | _ => none

/-- What the failure of an image leaves behind: a refused image counts as failed, otherwise the
image written just before waits for its commit. -/
def afterFailure? (i : Image) (before : Option Image) : EngineError → Option Phase
  | .rejected .. => some (failed i)
  | _ => before.map fun w => written (.only w)

end Phase

namespace Update

/-- Records a failure and passes it on. Not being able to record it comes first, and the log keeps
both. -/
def giveUp (i : Image) (before : Option Image) (e : EngineError) : Routine Unit := do
  if let some p := Phase.afterFailure? i before e then
    if let .error unrecorded ← ask (.writePhase p) then
      ask (.log s!"{i.text} update failed: {e.message}")
      ask (.log s!"failed to record `{p.text}`: {unrecorded.message}")
      throw unrecorded
  throw (.engine e)

/-- Writes the packages in order, `before` being the image written last. -/
def writeParts : Option Image → List (Image × Package) → Routine Unit
  | _, [] => return ()
  | before, (i, p) :: rest => do
    match ← ask (.install i p) with
    | .ok () => writeParts (some i) rest
    | .error e => giveUp i before e

def update (o : Offer) : Routine Unit :=
  match o.target? with
  | none => throw (.invalidParameter .noPackage)
  | some t => do
    let p ← readPhase
    if p.isIdle then
      writeParts none o.parts
      writePhase (.written t)
    else throw (.updateInProgress p)

/-- Whether some part has no version or one above the installed version. -/
def offersNewer : List (Image × Package) → Routine Bool
  | [] => return false
  | (i, p) :: rest => do
    let newer ← match p.version with
      | none => pure true
      | some v => pure (v.newerThan (← installedVersion (.only i)))
    let later ← offersNewer rest
    return newer || later

def updateIfNewer (o : Offer) : Routine AutomaticOutcome := do
  if ← offersNewer o.parts then
    update o
    return .updated
  else return .upToDate

def isRebooted (p : Phase) : Routine Bool := Routine.isRebooted p.includesFirmware

/-- Confirms the recorded phase. The workflow's files go first, so that the record still tells of
them when they could not be removed. -/
def commit (d : WorkDir) : Routine CommitOutcome := do
  let p ← readPhase
  if p.isIdle then return .notNeeded
  if p.awaitsReboot then
    if !(← isRebooted p) then return .rebootPending p.includesFirmware
  if p.afterCommit.isIdle then d.clear
  writePhase p.afterCommit
  return .committed

/-- The longest way to idle takes two commits. -/
def maxForcedCommits : Nat := 3

/-- Commits until nothing is pending, at most `n` times. -/
def settle (d : WorkDir) : Nat → Routine Admission
  | 0 => do
    if (← readPhase).isIdle then return .allowed
    else throw (.contractViolation (.unresolved maxForcedCommits))
  | n + 1 => do
    let p ← readPhase
    if p.isIdle then return .allowed
    match ← commit d with
    | .notNeeded => throw (.contractViolation (.commitNotNeeded p))
    | .rebootPending f => return .rebootPending f
    | .committed =>
      match p.formerFailure? with
      | some g => return g
      | none => settle d n

def allowAutomatic (d : WorkDir) : Routine Admission := settle d maxForcedCommits

/-- Records a switch. The record comes before the marker: there is no marker without its record. -/
def recordSwitch (t : Target) : Routine Unit := do
  writePhase (.switched t)
  match ← WorkDir.create .rollback with
  | .ok _ => return ()
  | .error e => throw (.io (.creating Marker.rollback.fileName) e)

def switchImages : Option Image → List Image → Routine Unit
  | _, [] => return ()
  | before, i :: rest => do
    match ← ask (.switch i) with
    | .ok () => switchImages (some i) rest
    | .error e => do
      if let some w := before then recordSwitch (.only w)
      throw (.engine e)

def switchTarget (t : Target) : Routine Unit := do
  switchImages none t.images
  recordSwitch t

/-- Returns to the bank in use before an update that was not committed. -/
def rollback (t : Target) : Routine Unit := do
  let p ← readPhase
  if p = .written t then switchTarget t else throw (.notAllowed p)

/-- Boots the other bank of a committed system. -/
def switchSlot (t : Target) : Routine Unit := do
  let p ← readPhase
  if p.isIdle then switchTarget t else throw (.notAllowed p)

end Update

end Dualbank
