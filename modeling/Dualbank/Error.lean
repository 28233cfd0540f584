import Dualbank.OsError
import Dualbank.Phase
import Dualbank.Slot

namespace Dualbank

inductive Attempt
  | checking (path : String)
  | removing (path : String)
  | reading (path : String)
  | measuring (path : String)
  | creating (name : String)
  | opening (path : String)
  | readingBootId (path : String)
  | recording (phase : Phase)
  | configuring (target : Target)
  | running (program : String)
  | readingVersion (target : Target) (path : String)
  | parsingVersion (target : Target) (contents : String)
  | named (text : String)
  deriving DecidableEq, Repr

namespace Attempt

def text : Attempt → String
  | checking p => s!"failed checking `{p}`"
  | removing p => s!"failed removing `{p}`"
  | reading p => s!"failed reading `{p}`"
  | measuring p => s!"failed reading size of `{p}`"
  | creating n => s!"failed creating `{n}`"
  | opening p => s!"failed opening `{p}`"
  | readingBootId p => s!"failed reading boot id from `{p}`"
  | recording p => s!"failed writing `{p.text}`"
  | configuring t => s!"no {t.text} command configured"
  | running p => s!"failed to run `{p}`"
  | readingVersion t p => s!"failed reading {t.text} version from `{p}`"
  | parsingVersion t c => s!"invalid {t.text} version `{c}`"
  | named text => text

end Attempt

inductive EngineError
  | busy
  | rejected (target : Target) (code : Int) (detail : String)
  | system (attempt : Attempt) (cause : OsError)
  deriving DecidableEq, Repr

namespace EngineError

def message : EngineError → String
  | busy => "the update engine is busy with another update"
  | rejected t code detail =>
    s!"update engine rejected the {t.text} operation with code {code}: {detail}"
  | system a cause => s!"{a.text}: {cause.message}"

end EngineError

inductive BootEnvError
  | invalidName (name : String)
  | notStarted (tool : String) (cause : OsError)
  | failed (tool : String) (status : Int) (stderr : String)
  | malformed (tool name output : String)
  deriving DecidableEq, Repr

namespace BootEnvError

def message : BootEnvError → String
  | invalidName n => s!"invalid environment variable name `{n}`"
  | notStarted tool cause => s!"failed to run `{tool}`: {cause.message}"
  | failed tool status stderr => s!"`{tool}` exited with {status}: {stderr}"
  | malformed tool name output => s!"unexpected output of `{tool}` for `{name}`: {output}"

end BootEnvError

inductive DescriptorFault
  | unknownType (text : String)
  | invalidVersion (text : String)
  | invalidSize (text : String)
  | zeroSize
  | notRegular (path : String)
  deriving DecidableEq, Repr

namespace DescriptorFault

def message : DescriptorFault → String
  | unknownType s => s!"unknown update type `{s}`"
  | invalidVersion s => s!"invalid update version `{s}`"
  | invalidSize s => s!"invalid update size `{s}`"
  | zeroSize => "expected update size is zero"
  | notRegular p => s!"`{p}` is not a regular file"

end DescriptorFault

inductive ParameterFault
  | noPackage
  | unknownSlot (text : String)
  | slotOfBoth
  | noConsole
  | noConsoleDevice (setting : String)
  | named (text : String)
  deriving DecidableEq, Repr

namespace ParameterFault

def message : ParameterFault → String
  | noPackage => "no package given"
  | unknownSlot s => s!"invalid slot `{s}`, please use either A/a/0 or B/b/1"
  | slotOfBoth => "slot health is tracked per firmware or application"
  | noConsole => "`console` is not set"
  | noConsoleDevice s => s!"no console device in `{s}`"
  | named text => text

end ParameterFault

inductive ContractFault
  | commitNotNeeded (phase : Phase)
  | unresolved (commits : Nat)
  deriving DecidableEq, Repr

namespace ContractFault

def message : ContractFault → String
  | commitNotNeeded p => s!"commit reported not needed in reboot state `{p.text}`"
  | unresolved n => s!"no resolved reboot state after {n} forced commits"

end ContractFault

inductive Error
  | updateInProgress (phase : Phase)
  | notAllowed (phase : Phase)
  | unknownPhase (stored : String)
  | engine (e : EngineError)
  | bootEnv (e : BootEnvError)
  | io (attempt : Attempt) (cause : OsError)
  | invalidDescriptor (fault : DescriptorFault)
  | invalidParameter (fault : ParameterFault)
  | contractViolation (fault : ContractFault)
  deriving DecidableEq, Repr

inductive ErrorClass
  | progress
  | notAllowed
  | internal
  | system
  /-- An invariant is broken; no exit code stands for this. -/
  | fatal
  deriving DecidableEq, Repr

namespace Error

def message : Error → String
  | updateInProgress p => s!"an update or rollback is already in progress (reboot state: {p.text})"
  | notAllowed p => s!"action not allowed in reboot state: {p.text}"
  | unknownPhase s => s!"unrecognized reboot state `{s}` in bootloader environment"
  | engine e => e.message
  | bootEnv e => s!"bootloader environment: {e.message}"
  | io a cause => s!"{a.text}: {cause.message}"
  | invalidDescriptor f => s!"invalid update descriptor: {f.message}"
  | invalidParameter f => s!"invalid parameter: {f.message}"
  | contractViolation f => s!"contract violation: {f.message}"

def errorClass : Error → ErrorClass
  | updateInProgress _ | engine .busy => .progress
  | notAllowed _ | unknownPhase _ | invalidParameter _ => .notAllowed
  | engine (.rejected ..) | invalidDescriptor _ => .internal
  | engine (.system ..) | bootEnv _ | io .. => .system
  | contractViolation _ => .fatal

def errno? : Error → Option Int
  | io _ cause | engine (.system _ cause) | bootEnv (.notStarted _ cause) => cause.errno?
  | _ => none

end Error

/-- Reads the recorded phase; what it does not know is passed on as it is stored. -/
def Phase.read (s : String) : Except Error Phase :=
  match decode? s with
  | some p => .ok p
  | none => .error (.unknownPhase s)

def Slot.read (s : String) : Except Error Slot :=
  match ofText? s with
  | some slot => .ok slot
  | none => .error (.invalidParameter (.unknownSlot s))

end Dualbank
