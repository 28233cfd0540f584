import Dualbank.CommandLine.Scan
import Dualbank.Package
import Dualbank.Path

namespace Dualbank.CommandLine

structure Stick where
  mount : String
  firmwareFile : Option String
  firmwareVersion : Option Version
  applicationFile : Option String
  applicationVersion : Option Version
  deriving DecidableEq, Repr

inductive Command
  | update (firmware application : Option String)
  | commit
  | rollback (t : Target)
  | switchSlot (t : Target)
  | state
  | automatic (stick : Stick)
  | versions (t : Option Target)
  | available
  | download
  | progress
  | install
  | apply
  | markBad (t : Target) (slot : String)
  | isBad (t : Target) (slot : String)
  deriving DecidableEq, Repr

def Command.isAutomatic : Command → Bool
  | .automatic _ => true
  | _ => false

structure Invocation where
  config : Option String
  workDir : Option String
  debug : Bool
  command : Command
  deriving DecidableEq, Repr

namespace Stick

/-- A package needs its file and its version. Absolute files are taken from the stick, too. -/
def package? (s : Stick) (file : Option String) (version : Option Version) : Option Package :=
  match file, version with
  | some f, some v => some ⟨Path.join s.mount (Path.relative f), some v⟩
  | _, _ => none

def offer (s : Stick) : Offer :=
  ⟨s.package? s.firmwareFile s.firmwareVersion, s.package? s.applicationFile s.applicationVersion⟩

end Stick

namespace Given

def text? (g : Given) (p : Param) : Option String :=
  match g.values.lookup p with
  | some (.text s) | some (.path s) => some s
  | _ => none

def target? (g : Given) : Option Target :=
  match g.values.lookup .target with
  | some (.target t) => some t
  | _ => none

def version? (g : Given) (p : Param) : Option Version :=
  match g.values.lookup p with
  | some (.version v) => some v
  | _ => none

def addVariables (env : List (String × String)) (g : Given) : List Opt → Except Stop Given
  | [] => .ok g
  | o :: os => do
    match o.effect, if g.has o.param then none else o.envName?.bind (List.lookup · env) with
    | .value k, some s =>
      let v ← k.read s
      addVariables env { g with values := g.values ++ [(o.param, v)] } os
    | _, _ => addVariables env g os

def required {α : Type} : Option α → Except Stop α
  | some a => .ok a
  | none => .error .missingArgument

end Given

namespace Verb

open Given in
def command (g : Given) : Verb → Except Stop Command
  | update => .ok (.update (g.text? .firmware) (g.text? .application))
  | commit => .ok .commit
  | rollback => .rollback <$> required g.target?
  | switchSlot => .switchSlot <$> required g.target?
  | state => .ok .state
  | automatic => do
    let mount ← required (g.text? .updateStick)
    return .automatic ⟨mount, g.text? .firmwareFile, g.version? .firmwareVersion,
      g.text? .applicationFile, g.version? .applicationVersion⟩
  | versions => .ok (.versions g.target?)
  | available => .ok .available
  | download => .ok .download
  | progress => .ok .progress
  | install => .ok .install
  | apply => .ok .apply
  | markBad => return .markBad (← required g.target?) (← required (g.text? .slot))
  | isBad => return .isBad (← required g.target?) (← required (g.text? .slot))
  | help => .error .help

def read (v : Verb) (env : List (String × String)) (skip : Nat) (args : List String) :
    Except Stop (Given × Command) := do
  let (s, _) ← Scanner.scan v.level skip args {}
  let s ← s.settle
  let g ← s.given.addVariables env v.level.opts
  return (g, ← v.command g)

/-- The subcommand `help` knows the names of the others and nothing below them. -/
def help? : List String → Stop
  | [] => .help
  | [name] => if (ofName? name).isSome then .help else .invalidSubcommand
  | _ => .invalidSubcommand

end Verb

/-- Reads a command line without the program's name. An option given at both levels counts at the
lower one. -/
def read (env : List (String × String)) (args : List String) : Except Stop Invocation := do
  let (s, rest?) ← Scanner.scan top 0 args {}
  match rest? with
  | none =>
    let s ← s.settle
    throw (if s.given.isEmpty then .helpForMissing else .missingSubcommand)
  | some rest =>
    if rest.verb = .help then throw (Verb.help? rest.args)
    let (g, c) ← rest.verb.read env rest.skip rest.args
    let s ← s.settle
    let upper := s.given
    return ⟨g.text? .config <|> upper.text? .config, g.text? .workDir <|> upper.text? .workDir,
      g.has .debug || upper.has .debug, c⟩

end Dualbank.CommandLine
