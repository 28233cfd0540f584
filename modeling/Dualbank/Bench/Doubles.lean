import Dualbank.Bench.Machine
import Dualbank.Device.Files

namespace Dualbank.Bench

inductive Injury
  | busy
  | rejected (code : Int)
  | system (errno : Int)
  deriving DecidableEq, Repr

namespace Injury

def error (t : Target) : Injury → EngineError
  | busy => .busy
  | rejected code => .rejected t code "rejected by fake engine"
  | system n => .system (.named "fake engine") (.number n)

end Injury

inductive Reading
  | phase (p : Phase)
  | unknown (stored : String)
  | failure (errno : Int)
  deriving DecidableEq, Repr

namespace Reading

def answer : Reading → Except Error Phase
  | phase p => .ok p
  | unknown s => .error (.unknownPhase s)
  | failure n => .error (.io (.named "scripted read") (.number n))

end Reading

structure RecordDouble where
  phase : Phase := .idle
  unknown? : Option String := none
  rebooted : Bool := true
  writes : Nat := 0
  budget? : Option Nat := none
  bad : List (Image × Slot) := []

namespace RecordDouble

def read (r : RecordDouble) : Except Error Phase :=
  match r.unknown? with
  | some s => .error (.unknownPhase s)
  | none => .ok r.phase

def write (r : RecordDouble) (p : Phase) : Except Error Unit × RecordDouble :=
  if r.budget?.any (· ≤ r.writes) then
    (.error (.io (.recording p) (.number Errno.readOnly)), r)
  else (.ok (), { r with phase := p, unknown? := none, writes := r.writes + 1 })

def combinedSlot : Error := .invalidParameter (.named "combined slot")

def markBad (r : RecordDouble) (s : Slot) : Target → Except Error Unit × RecordDouble
  | .both => (.error combinedSlot, r)
  | .only i => (.ok (), { r with bad := (i, s) :: r.bad })

def isBad (r : RecordDouble) (s : Slot) : Target → Except Error Bool
  | .both => .error combinedSlot
  | .only i => .ok (r.bad.contains (i, s))

end RecordDouble

structure EngineDouble where
  applied : List (Image × Package) := []
  switched : List Image := []
  versions : List (Target × Version) := []
  installInjuries : List (Target × Injury) := []
  switchInjuries : List (Target × Injury) := []

namespace EngineDouble

def install (e : EngineDouble) (i : Image) (p : Package) : Except EngineError Unit × EngineDouble :=
  match e.installInjuries.lookup (.only i) with
  | some f => (.error (f.error (.only i)), e)
  | none => (.ok (), { e with applied := e.applied ++ [(i, p)] })

def switch (e : EngineDouble) (i : Image) : Except EngineError Unit × EngineDouble :=
  match e.switchInjuries.lookup (.only i) with
  | some f => (.error (f.error (.only i)), e)
  | none => (.ok (), { e with switched := e.switched ++ [i] })

def version (e : EngineDouble) (t : Target) : Version := (e.versions.lookup t).getD ⟨0⟩

end EngineDouble

structure RebootDouble where
  calls : Nat := 0
  errno? : Option Int := none

namespace RebootDouble

def reboot (r : RebootDouble) : Except OsError Unit × RebootDouble :=
  (match r.errno? with
    | some n => .error (.number n)
    | none => .ok (), { r with calls := r.calls + 1 })

end RebootDouble

structure Interposed where
  /-- Readings of the phase, the last of which repeats; as long as there is one, writes are accepted
  and dropped. -/
  script : List Reading := []
  rebootCheck? : Option Int := none
  versionFailures : List (Target × Int) := []

namespace Interposed

def afterFirst : List Reading → List Reading
  | [r] => [r]
  | rs => rs.drop 1

end Interposed

structure Doubles where
  machine : Machine
  workDir : WorkDir
  record : RecordDouble := {}
  engine : EngineDouble := {}
  reboot : RebootDouble := {}
  interposed : Interposed := {}

namespace Doubles

def onMachine {α : Type} (p : SysPlan α) : StateM Doubles α := fun b =>
  let (a, machine) := p.run Machine.answer b.machine
  (a, { b with machine })

def onRecord {α : Type} (f : RecordDouble → α × RecordDouble) : StateM Doubles α := fun b =>
  let (a, record) := f b.record
  (a, { b with record })

def onEngine {α : Type} (f : EngineDouble → α × EngineDouble) : StateM Doubles α := fun b =>
  let (a, engine) := f b.engine
  (a, { b with engine })

def answer : (q : Call) → StateM Doubles q.Answer
  | .readPhase => onRecord fun r => (r.read, r)
  | .writePhase p => onRecord (·.write p)
  | .isRebooted _ => onRecord fun r => (.ok r.rebooted, r)
  | .markBad t s => onRecord (·.markBad s t)
  | .isBad t s => onRecord fun r => (r.isBad s t, r)
  | .install i p => onEngine (·.install i p)
  | .switch i => onEngine (·.switch i)
  | .installedVersion t => onEngine fun e => (.ok (e.version t), e)
  | .reboot => fun b =>
    let (a, reboot) := b.reboot.reboot
    (a, { b with reboot })
  | .has m => do onMachine ((← get).workDir.answerHas m)
  | .create m => do onMachine ((← get).workDir.answerCreate m)
  | .remove e => do onMachine ((← get).workDir.answerRemove e)
  | .read f => do onMachine ((← get).workDir.answerRead f)
  | .inspect path => onMachine (SysPlan.ask (.inspect path))
  | .pause => pure ()
  | .print stream line => onMachine (SysPlan.ask (.print stream line))
  | .log message => onMachine (SysPlan.ask (.log .error message))

def answerInterposed : (q : Call) → StateM Doubles q.Answer
  | .readPhase => fun b =>
    match b.interposed.script with
    | [] => answer .readPhase b
    | r :: rs => (r.answer, { b with interposed.script := Interposed.afterFirst (r :: rs) })
  | .writePhase p => fun b =>
    if b.interposed.script.isEmpty then answer (.writePhase p) b else (.ok (), b)
  | .isRebooted f => fun b =>
    match b.interposed.rebootCheck? with
    | some n => (.error (.io (.named "scripted reboot check") (.number n)), b)
    | none => answer (.isRebooted f) b
  | .installedVersion t => fun b =>
    match b.interposed.versionFailures.lookup t with
    | some n => (.error (.system (.named "scripted version") (.number n)), b)
    | none => answer (.installedVersion t) b
  | q => answer q

end Doubles

end Dualbank.Bench
