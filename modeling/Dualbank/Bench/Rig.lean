import Dualbank.Bench.Doubles
import Dualbank.Program

namespace Dualbank.Bench

inductive Rig
  | doubles (b : Doubles)
  | device (m : Machine) (d : Device)

namespace Rig

def machine : Rig → Machine
  | doubles b => b.machine
  | device m _ => m

def workDir : Rig → WorkDir
  | doubles b => b.workDir
  | device _ d => d.workDir

def onMachine {α : Type} (f : Machine → α × Machine) : Rig → α × Rig
  | doubles b =>
    let (a, machine) := f b.machine
    (a, doubles { b with machine })
  | device m d =>
    let (a, m) := f m
    (a, device m d)

def onFiles (f : FileTree → Except OsError FileTree) : Rig → Except OsError Unit × Rig :=
  onMachine fun m => m.update (f m.files)

def performSys {α : Type} (p : SysPlan α) : Rig → α × Rig := onMachine (p.run Machine.answer)

def perform {α : Type} (p : Plan Call.Answer α) : Rig → α × Rig
  | doubles b =>
    let (a, b) := p.run Doubles.answerInterposed b
    (a, doubles b)
  | device m d =>
    let (a, m) := (d.perform p).run Machine.answer m
    (a, device m d)

structure Outcome where
  result : Except CommandLine.Stop (Except CommandLine.Abort ExitStatus)
  out : String
  err : String

def written (f : Rig → Except CommandLine.Stop (Except CommandLine.Abort ExitStatus) × Rig)
    (r : Rig) : Outcome × Rig :=
  let (_, r) := onMachine (fun m => ((), { m with out := [], err := [] })) r
  let (result, r) := f r
  (⟨result, Text.decodeLossy r.machine.out, Text.decodeLossy r.machine.err⟩, r)

def withEnvironment {α : Type} (env : List (String × String)) (f : Rig → α × Rig) (r : Rig) :
    α × Rig :=
  let environment := env.foldl (fun e v => e.set v.1 (Text.encode v.2)) r.machine.environment
  let (_, inside) := onMachine (fun m => ((), { m with environment })) r
  let (a, inside) := f inside
  let (_, r) := onMachine (fun m => ((), { m with environment := r.machine.environment })) inside
  (a, r)

def command (attempts : Nat) (env : List (String × String)) (args : List String) :
    Rig → Outcome × Rig :=
  written <| withEnvironment env fun r =>
    match CommandLine.read env args with
    | .error s => (.error s, r)
    | .ok i =>
      let (a, r) := r.perform (i.command.run r.workDir attempts).run
      (.ok a, r)

/-- Runs a command line, split at every blank, on the doubles alone with a work directory of its
own. -/
def commandAlone (attempts : Nat) (dir : WorkDir) (line : String) : Rig → Outcome × Rig :=
  written fun r =>
    match CommandLine.read [] ((line.toList.splitOn ' ').map String.ofList) with
    | .error s => (.error s, r)
    | .ok i =>
      match r with
      | doubles b =>
        let plan := (i.command.run dir attempts).run
        let (a, s) := plan.run Doubles.answer { b with workDir := dir }
        (.ok a, doubles { s with workDir := b.workDir })
      | r =>
        let (a, r) := r.perform (i.command.run dir attempts).run
        (.ok a, r)

/-- Runs the whole program on the machine; gives its exit code and its standard output. Only the
console that it opens itself is open to it. -/
def launch (env : List (String × String)) (args : List String) : Rig → (Nat × String) × Rig :=
  withEnvironment env <| onMachine fun m =>
    let (code, after) := (Program.run env args).run Machine.answer
      { m with out := [], err := [], console? := none }
    ((code, Text.decodeLossy after.out),
      { after with console? := m.console?, copiesLog := m.copiesLog })

end Rig

end Dualbank.Bench
