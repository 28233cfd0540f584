import Dualbank.Exit.Code
import Dualbank.Staging

namespace Dualbank

inductive Report
  | update (t : Target) (result : Except ErrorClass Unit)
  /-- Rollbacks and bank switches share their codes. -/
  | rollback (t : Target) (result : Except ErrorClass Unit)
  | automatic (t : Target) (result : Except ErrorClass Unit)
  | admission (a : Admission)
  | commit (result : Except ErrorClass CommitOutcome)
  | phase (p : Phase) (rebooted : Bool)
  | available (t : Option Target)
  | download (outcome : DownloadOutcome)
  | progress (outcome : ProgressOutcome)
  | install (outcome : InstallOutcome)
  | apply (outcome : ApplyOutcome)
  | slotHealth (result : Except ErrorClass Bool)
  | unhandled

namespace Report

/-- The code of a family that stands for a result; what is not allowed counts as another update in
the way. -/
def ofResult (family : Verdict → ResultCode) : Except ErrorClass Unit → ResultCode
  | .ok () => family .successful
  | .error .progress | .error .notAllowed => family .progressError
  | .error .internal => family .internalError
  | .error .system => family .systemError
  | .error .fatal => .unhandled

/-- The image whose codes a rollback of the target uses: firmware if it has any. -/
def leading (t : Target) : Image := if t.includesFirmware then .firmware else .application

def ofAdmission : Admission → ResultCode
  | .allowed => .automaticAllowed
  | .formerFailure i => .formerUpdateFailed i
  | .formerBootFailure => .formerBootFailed
  | .rebootPending f => .rebootPending f

def ofCommit : Except ErrorClass CommitOutcome → ResultCode
  | .ok .committed => .commitSuccessful
  | .ok .notNeeded => .commitNotNeeded
  | .ok (.rebootPending f) => .rebootPending f
  | .error .notAllowed => .commitNotAllowed
  | .error .fatal => .unhandled
  | .error .progress | .error .internal | .error .system => .commitSystemError

def ofPhase (rebooted : Bool) : Phase → ResultCode
  | .idle => .nothingPending
  | .failed i => .updateFailed i
  | .bootFailed => .bootFailed
  | .written t => if rebooted then .updateIncomplete t else .rebootPending t.includesFirmware
  | .switched t => .rollbackRebootPending (leading t)
  | .reverted t => .rollbackIncomplete (leading t)

def ofDownload : DownloadOutcome → ResultCode
  | .notQueued | .failed => .noDownloadQueued
  | .started => .downloadStarted
  | .startedBefore => .downloadStartedBefore

def ofProgress : ProgressOutcome → ResultCode
  | .noDownloadStarted | .waitingToStart => .noDownloadStarted
  | .inProgress _ => .downloadInProgress
  | .finished => .downloadFinished

def ofInstall : InstallOutcome → ResultCode
  | .notQueued => .noInstallationQueued
  | .inProgress => .installationInProgress
  | .finished => .installationFinished
  | .failed => .installationFailed

def ofApply : ApplyOutcome → ExitStatus
  | .successful => .code .applySuccessful
  | .nothingToApply | .failed => .code .applyFailed
  | .rebootFailed n => .systemError n

def ofSlotHealth : Except ErrorClass Bool → ResultCode
  | .ok false => .slotSuccessful
  | .ok true => .slotBad
  | .error .notAllowed => .slotParameterWrong
  | .error _ => .unhandled

def exitStatus : Report → ExitStatus
  | update t r => .code (ofResult (.update t) r)
  | rollback t r => .code (ofResult (.rollback (leading t)) r)
  | automatic t r => .code (ofResult (.automatic t) r)
  | admission a => .code (ofAdmission a)
  | commit r => .code (ofCommit r)
  | phase p rebooted => .code (ofPhase rebooted p)
  | available none => .code .noUpdateAvailable
  | available (some t) => .code (.updateAvailable t)
  | download o => .code (ofDownload o)
  | progress o => .code (ofProgress o)
  | install o => .code (ofInstall o)
  | apply o => ofApply o
  | slotHealth r => .code (ofSlotHealth r)
  | unhandled => .code .unhandled

end Report

end Dualbank
