import Dualbank.Device.System
import Dualbank.Text.Blank
import Dualbank.Text.Line
import Dualbank.Text.Lower

namespace Dualbank

/-- The two tools of the bootloader environment. One prints `name=value`, or reports that the
variable is not defined; the other takes a name and a value, or a name alone to delete the variable.
-/
structure BootEnv where
  printTool : String := "fw_printenv"
  setTool : String := "fw_setenv"
  deriving DecidableEq, Repr

abbrev BootEnvPlan := ExceptT BootEnvError SysPlan

namespace BootEnv

/-- A name is not empty and has neither white space nor an equals sign. -/
def isName (name : String) : Bool :=
  !name.isEmpty && !name.toList.any fun c => c = '=' || Text.isBlank c

def checkName (name : String) : Except BootEnvError Unit :=
  if isName name then .ok () else .error (.invalidName name)

def valueIn (name line : List Char) : Option (List Char) :=
  if name.isPrefixOf line then
    match line.drop name.length with
    | '=' :: value => some value
    | _ => none
  else none

/-- The value of a variable in a listing: from the first line that gives it one, without the white
space after it. -/
def valueOf? (name listing : String) : Option String :=
  (Text.lines listing.toList).findSome? fun line =>
    (valueIn name.toList line).map fun value => String.ofList (Text.trimEndChars value)

def run (tool : String) (args : List String) : BootEnvPlan Finished := do
  match ← ExceptT.lift (SysPlan.ask (.run tool args)) with
  | .ok f => return f
  | .error e => throw (.notStarted tool e)

def failure (tool : String) (f : Finished) : BootEnvError :=
  .failed tool f.status.code (Text.trim f.err)

def readingOf (tool name : String) (f : Finished) : Except BootEnvError (Option String) :=
  if f.status.isSuccess then
    match valueOf? name f.out with
    | some v => .ok (some v)
    | none => .error (.malformed tool name (Text.trim f.out))
  else if Text.contains "not defined" f.err then .ok none
  else .error (failure tool f)

def read (e : BootEnv) (name : String) : BootEnvPlan (Option String) := do
  MonadExcept.ofExcept (checkName name)
  MonadExcept.ofExcept (readingOf e.printTool name (← run e.printTool [name]))

def set (e : BootEnv) (name : String) (value? : Option String) : BootEnvPlan Unit := do
  MonadExcept.ofExcept (checkName name)
  let f ← run e.setTool (name :: value?.toList)
  if f.status.isSuccess then return () else throw (failure e.setTool f)

def write (e : BootEnv) (name value : String) : BootEnvPlan Unit := e.set name (some value)

/-- Deletes a variable; it need not be defined. -/
def remove (e : BootEnv) (name : String) : BootEnvPlan Unit := e.set name none

end BootEnv

end Dualbank
