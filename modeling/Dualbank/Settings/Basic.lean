import Dualbank.Device.Engine
import Dualbank.Settings.Value
import Dualbank.Text.Decimal

namespace Dualbank

structure Settings where
  workDir : String
  env : BootEnv
  bootIdPath : String
  rebootCommand : List String
  pollAttempts : Nat
  pollInterval : Nat
  firmware : EngineCommands
  application : EngineCommands
  deriving DecidableEq, Repr

namespace Settings

def raucCommands (versionFile : String) : EngineCommands :=
  ⟨["rauc", "install"], ["rauc", "status", "mark-active", "other"], versionFile⟩

def defaults : Settings where
  workDir := "/tmp/adu/.work"
  env := {}
  bootIdPath := "/proc/sys/kernel/random/boot_id"
  rebootCommand := ["reboot"]
  pollAttempts := 5
  pollInterval := 1000
  firmware := raucCommands "/etc/fw_version"
  application := raucCommands "/etc/app_version"

inductive Fault
  | invalidType
  | invalidValue
  | invalidLength
  | missingField
  deriving DecidableEq, Repr

/-- Reading a value may fail at a path below it. -/
abbrev Reading (α : Type) := Except (List String × Fault) α

def fail {α : Type} (f : Fault) : Reading α := .error ([], f)

def below {α : Type} (name : String) (r : Reading α) : Reading α :=
  r.mapError fun e => (name :: e.1, e.2)

def required {α : Type} : Option α → Reading α
  | some a => .ok a
  | none => fail .missingField

def text : Value → Reading String
  | .text s => .ok s
  | _ => fail .invalidType

def natural (bound : Nat) : Value → Reading Nat
  | .int n => if 0 ≤ n ∧ n ≤ bound then .ok n.toNat else fail .invalidValue
  | _ => fail .invalidType

def textsFrom (i : Nat) : List Value → Reading (List String)
  | [] => .ok []
  | v :: vs => do
    let s ← below (toString i) (text v)
    return s :: (← textsFrom (i + 1) vs)

def command : Value → Reading (List String)
  | .list vs => textsFrom 0 vs
  | _ => fail .invalidType

def entry? {α : Type} (read : Value → Reading α) (name : String) (es : Entries) :
    Reading (Option α) :=
  match es.lookup name with
  | some v => some <$> below name (read v)
  | none => .ok none

def element {α : Type} (read : Value → Reading α) (i : Nat) (vs : List Value) : Reading α :=
  match vs[i]? with
  | some v => below (toString i) (read v)
  | none => fail .invalidLength

/-- The commands for an image: a table, or a list of its entries in their order. -/
def engineCommands : Value → Reading EngineCommands
  | .table es => do
    let install ← entry? command "install" es
    let rollback ← entry? command "rollback" es
    let versionFile ← entry? text "version_file" es
    return ⟨← required install, ← required rollback, ← required versionFile⟩
  | .list vs => do
    return ⟨← element command 0 vs, ← element command 1 vs, ← element text 2 vs⟩
  | _ => fail .invalidType

/-- Other entries count for nothing. Entries are read in the order of their names, and the first one
that does not fit decides. -/
def ofEntries (es : Entries) : Reading Settings := do
  let application ← entry? engineCommands "application" es
  let bootIdPath ← entry? text "boot_id_path" es
  let firmware ← entry? engineCommands "firmware" es
  let printTool ← entry? text "fw_printenv" es
  let setTool ← entry? text "fw_setenv" es
  let attempts ← entry? (natural Text.maxU32) "progress_poll_attempts" es
  let interval ← entry? (natural Text.maxU64) "progress_poll_interval" es
  let rebootCommand ← entry? command "reboot_command" es
  let workDir ← entry? text "work_dir" es
  return {
    workDir := ← required workDir
    env := ⟨← required printTool, ← required setTool⟩
    bootIdPath := ← required bootIdPath
    rebootCommand := ← required rebootCommand
    pollAttempts := ← required attempts
    pollInterval := ← required interval
    firmware := ← required firmware
    application := ← required application }

def ofValue : Value → Reading Settings
  | .table es => ofEntries es
  | _ => fail .invalidType

def ofTexts (ss : List String) : Value := .list (ss.map .text)

def ofEngineCommands (c : EngineCommands) : Value :=
  .table [("install", ofTexts c.install), ("rollback", ofTexts c.rollback),
    ("version_file", .text c.versionFile)]

def toValue (s : Settings) : Value :=
  .table [("application", ofEngineCommands s.application), ("boot_id_path", .text s.bootIdPath),
    ("firmware", ofEngineCommands s.firmware), ("fw_printenv", .text s.env.printTool),
    ("fw_setenv", .text s.env.setTool), ("progress_poll_attempts", .int s.pollAttempts),
    ("progress_poll_interval", .int s.pollInterval), ("reboot_command", ofTexts s.rebootCommand),
    ("work_dir", .text s.workDir)]

end Settings

end Dualbank
