import Dualbank.Device.Record

namespace Dualbank

structure EngineCommands where
  /-- Takes the package as its last argument. -/
  install : List String
  rollback : List String
  versionFile : String
  deriving DecidableEq, Repr

abbrev EnginePlan := ExceptT EngineError SysPlan

namespace EngineCommands

/-- What a run says, on its error stream if it wrote any text there. -/
def detail (f : Finished) : String :=
  let err := Text.trim f.err
  if err.isEmpty then Text.trim f.out else err

/-- A command that fails either found the engine busy or was refused, which its output tells. -/
def verdict (t : Target) (f : Finished) : Except EngineError Unit :=
  if f.status.isSuccess then .ok ()
  else if Text.contains "in progress" (Text.lower (detail f)) then .error .busy
  else .error (.rejected t f.status.code (detail f))

def run (t : Target) (command args : List String) : EnginePlan Unit :=
  match command with
  | [] => throw (.system (.configuring t) .noCommand)
  | program :: options => do
    match ← ExceptT.lift (SysPlan.ask (.run program (options ++ args))) with
    | .ok f => MonadExcept.ofExcept (verdict t f)
    | .error e => throw (.system (.running program) e)

def installedVersion (c : EngineCommands) (t : Target) : EnginePlan Version := do
  match ← ExceptT.lift (SysPlan.ask (.readText c.versionFile)) with
  | .error e => throw (.system (.readingVersion t c.versionFile) e)
  | .ok s =>
    match Version.read s with
    | .ok v => return v
    | .error f => throw (.system (.parsingVersion t (Text.trim s)) (.other f.message))

end EngineCommands

def rebootBy (command : List String) : SysPlan (Except OsError Unit) :=
  match command with
  | [] => pure (.error .noCommand)
  | program :: args => do
    match ← SysPlan.ask (.runAttached program args) with
    | .error e => return .error e
    | .ok status =>
      return if status.isSuccess then .ok ()
        else .error (.other s!"`{program}` exited with {status.text}")

end Dualbank
