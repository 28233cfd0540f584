import Dualbank.Error
import Dualbank.Package
import Dualbank.Plan
import Dualbank.Slot
import Dualbank.WorkDir.Entry

namespace Dualbank

inductive Stream
  | stdout
  | stderr
  /-- The serial console; lines to it are lost when none is open. -/
  | console
  deriving DecidableEq, Repr

inductive FileKind
  | regular (size : Nat)
  | other
  deriving DecidableEq, Repr

inductive Call
  | readPhase
  | writePhase (p : Phase)
  /-- Whether the device rebooted since the phase was last written. -/
  | isRebooted (includesFirmware : Bool)
  | markBad (t : Target) (s : Slot)
  | isBad (t : Target) (s : Slot)
  | install (i : Image) (p : Package)
  | switch (i : Image)
  | installedVersion (t : Target)
  | reboot
  | has (m : Marker)
  | create (m : Marker)
  | remove (e : Entry)
  | read (d : Descriptor)
  | inspect (path : String)
  | pause
  | print (stream : Stream) (line : String)
  | log (message : String)
  deriving DecidableEq, Repr

namespace Call

abbrev Answer : Call → Type
  | readPhase => Except Error Phase
  | writePhase _ => Except Error Unit
  | isRebooted _ => Except Error Bool
  | markBad .. => Except Error Unit
  | isBad .. => Except Error Bool
  | install .. => Except EngineError Unit
  | switch _ => Except EngineError Unit
  | installedVersion _ => Except EngineError Version
  | reboot => Except OsError Unit
  | has _ => Except OsError Bool
  | create _ => Except OsError Unit
  | remove _ => Except OsError Unit
  | read _ => Except OsError String
  | inspect _ => Except OsError FileKind
  | pause => Unit
  | print .. => Unit
  | log _ => Unit

theorem nonempty_answer (q : Call) : Nonempty q.Answer := by
  cases q with
  | readPhase => exact ⟨.ok .idle⟩
  | isRebooted | isBad | has => exact ⟨.ok true⟩
  | installedVersion => exact ⟨.ok ⟨0⟩⟩
  | read => exact ⟨.ok ""⟩
  | inspect => exact ⟨.ok .other⟩
  | writePhase | markBad | install | switch | reboot | create | remove => exact ⟨.ok ()⟩
  | pause | print | log => exact ⟨()⟩

end Call

abbrev Routine := ExceptT Error (Plan Call.Answer)

namespace Routine

open MonadExcept (ofExcept)

def ask (q : Call) : Routine q.Answer := ExceptT.lift (Plan.call q)

def readPhase : Routine Phase := do ofExcept (← ask .readPhase)

def writePhase (p : Phase) : Routine Unit := do ofExcept (← ask (.writePhase p))

def isRebooted (includesFirmware : Bool) : Routine Bool := do
  ofExcept (← ask (.isRebooted includesFirmware))

def markBad (t : Target) (s : Slot) : Routine Unit := do ofExcept (← ask (.markBad t s))

def isBad (t : Target) (s : Slot) : Routine Bool := do ofExcept (← ask (.isBad t s))

def installedVersion (t : Target) : Routine Version := do
  ofExcept ((← ask (.installedVersion t)).mapError .engine)

end Routine

end Dualbank
