import Dualbank.Target

namespace Dualbank

inductive Verdict
  | successful
  | progressError
  | internalError
  | systemError
  deriving DecidableEq, Repr

namespace Verdict

def offset : Verdict → Nat
  | successful => 0
  | progressError => 1
  | internalError => 2
  | systemError => 3

end Verdict

inductive ResultCode
  | update (t : Target) (v : Verdict)
  | rollback (i : Image) (v : Verdict)
  | automatic (t : Target) (v : Verdict)
  | commitSuccessful
  | commitNotNeeded
  | commitNotAllowed
  | commitSystemError
  | updateFailed (i : Image)
  | bootFailed
  | updateIncomplete (t : Target)
  | rebootPending (includesFirmware : Bool)
  | nothingPending
  | rollbackRebootPending (i : Image)
  | rollbackIncomplete (i : Image)
  | automaticAllowed
  | formerUpdateFailed (i : Image)
  | formerBootFailed
  | noUpdateAvailable
  | updateAvailable (t : Target)
  | noDownloadQueued
  | downloadStarted
  | downloadStartedBefore
  | noDownloadStarted
  | downloadInProgress
  | downloadFinished
  | noInstallationQueued
  | installationInProgress
  | installationFinished
  | installationFailed
  | applySuccessful
  | applyFailed
  | slotSuccessful
  | slotParameterWrong
  | slotBad
  | unhandled
  deriving DecidableEq, Repr

namespace ResultCode

/-- Calling automation matches on the numbers, so they never change. -/
def number : ResultCode → Nat
  | update .firmware v => v.offset
  | update .application v => 8 + v.offset
  | update .both v => 16 + v.offset
  | rollback .firmware v => 4 + v.offset
  | rollback .application v => 12 + v.offset
  | automatic .firmware v => 37 + v.offset
  | automatic .application v => 41 + v.offset
  | automatic .both v => 45 + v.offset
  | commitSuccessful => 20
  | commitNotNeeded => 21
  | commitNotAllowed => 22
  | commitSystemError => 23
  | updateFailed .application => 24
  | updateFailed .firmware => 25
  | bootFailed => 26
  | updateIncomplete .firmware => 27
  | updateIncomplete .application => 28
  | updateIncomplete .both => 29
  | rebootPending true => 30
  | rebootPending false => 31
  | nothingPending => 32
  | rollbackRebootPending .firmware => 33
  | rollbackRebootPending .application => 34
  | rollbackIncomplete .firmware => 35
  | rollbackIncomplete .application => 36
  | automaticAllowed => 49
  | formerUpdateFailed .application => 50
  | formerUpdateFailed .firmware => 51
  | formerBootFailed => 52
  | noUpdateAvailable => 53
  | updateAvailable .firmware => 54
  | updateAvailable .application => 55
  | updateAvailable .both => 56
  | noDownloadQueued => 57
  | downloadStarted => 58
  | downloadStartedBefore => 59
  | noDownloadStarted => 60
  | downloadInProgress => 61
  | downloadFinished => 62
  | noInstallationQueued => 63
  | installationInProgress => 64
  | installationFinished => 65
  | installationFailed => 66
  | applySuccessful => 67
  | applyFailed => 68
  | slotSuccessful => 69
  | slotParameterWrong => 70
  | slotBad => 71
  | unhandled => 124

end ResultCode

inductive ExitStatus
  | success
  | code (c : ResultCode)
  /-- The number of a failed reboot, passed through. -/
  | systemError (errno : Int)
  deriving DecidableEq, Repr

namespace ExitStatus

/-- The exit code of the process; an error number that does not fit becomes the greatest code. -/
def process : ExitStatus → Nat
  | success => 0
  | code c => c.number
  | systemError n => if 0 ≤ n ∧ n ≤ 255 then n.toNat else 255

end ExitStatus

end Dualbank
