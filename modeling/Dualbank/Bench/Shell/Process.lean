import Dualbank.Bench.Executable
import Dualbank.Device.System

namespace Dualbank.Bench

abbrev Environment := List (String × Bytes)

namespace Environment

def set (e : Environment) (name : String) (value : Bytes) : Environment :=
  (name, value) :: e.filter fun v => v.1 ≠ name

def unset (e : Environment) (name : String) : Environment := e.filter fun v => v.1 ≠ name

def directories (e : Environment) : String :=
  ((e.lookup Executable.searchVariable).map Text.decodeLossy).getD Executable.defaultDirectories

end Environment

namespace Shell

inductive Sink
  | buffer (k : Nat)
  | file (number : Nat)
  | nowhere
  deriving DecidableEq, Repr

structure Process where
  files : FileTree
  buffers : List Bytes := [[], []]
  out : Sink := .buffer 0
  err : Sink := .buffer 1
  input : Bytes := []
  name : Bytes := []
  args : List Bytes := []
  bindings : Environment := []
  exported : List String := []
  line : Nat := 0
  status : Nat := 0
  /-- The status of the last command substitution. -/
  substituted : Nat := 0
  /-- Ends at the first command that fails, unless its status is only asked for. -/
  endsOnFailure : Bool := false
  guarded : Bool := false
  ended : Option Status := none

namespace Process

def emit (p : Process) (sink : Sink) (bs : Bytes) : Process :=
  match sink with
  | .buffer k => { p with buffers := p.buffers.modify k (· ++ bs) }
  | .file n => { p with files := p.files.appendTo n bs }
  | .nowhere => p

def print (p : Process) (bs : Bytes) : Process := p.emit p.out bs

def text (bs : Bytes) : String := Text.decodeLossy bs

def complain (p : Process) (line : Bytes) : Process := p.emit p.err (line ++ [10])

def report (p : Process) (message : String) : Process :=
  p.complain (p.name ++ Text.encode s!": {p.line}: {message}")

def withStatus (p : Process) (n : Nat) : Process := { p with status := n }

def finish (p : Process) (s : Status) : Process := { p with ended := p.ended <|> some s }

def result (p : Process) : Status := p.ended.getD (.exited (p.status % 256))

def written (p : Process) (k : Nat) : Bytes := p.buffers.getD k []

def setVariable (p : Process) (name : String) (value : Bytes) : Process :=
  { p with bindings := p.bindings.set name value }

def exportVariable (p : Process) (name : String) : Process :=
  { p with exported := name :: p.exported.filter (· ≠ name) }

def environment (p : Process) : Environment :=
  p.bindings.filter fun v => p.exported.contains v.1

def child (p : Process) (name : Bytes) (args : List Bytes) : Process :=
  { p with
    name, args, bindings := p.environment, exported := p.environment.map (·.1), line := 0,
    status := 0, endsOnFailure := false, guarded := false, ended := none }

def after (p child : Process) : Process :=
  { p with files := child.files, buffers := child.buffers }

/-- The number that stands for every process. -/
def number : Nat := 4242

def spaced (args : List Bytes) : Bytes := [32].intercalate args

def parameter? (p : Process) (name : String) : Option Bytes :=
  match name with
  | "#" => some (Text.encode (toString p.args.length))
  | "?" => some (Text.encode (toString p.status))
  | "$" => some (Text.encode (toString number))
  | "0" => some p.name
  | "*" | "@" => if p.args.isEmpty then none else some (spaced p.args)
  | _ =>
    match name.toNat? with
    | some n => p.args[n - 1]?
    | none => p.bindings.lookup name

def parameter (p : Process) (name : String) : Bytes := (p.parameter? name).getD []

end Process

end Shell

end Dualbank.Bench
