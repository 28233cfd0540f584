import Dualbank.Device.Record
import Dualbank.Path

namespace Dualbank.Console

/-- The variable that names the console, as in `console=ttymxc0,115200`. -/
def variableName : String := "console"

def afterEquals (cs : List Char) : List Char := (cs.reverse.takeWhile (· ≠ '=')).reverse

def nameIn (setting : String) : String :=
  Text.trim (String.ofList ((afterEquals setting.toList).takeWhile (· ≠ ',')))

def device? (setting : String) : Option String :=
  let name := nameIn setting
  if name.isEmpty then none else some (Path.join "/dev" name)

def openAt (path : String) : DevicePlan Unit := do
  match ← ExceptT.lift (SysPlan.ask (.openConsole path)) with
  | .ok () => return ()
  | .error e => throw (.io (.opening path) e)

def openFrom (env : BootEnv) : DevicePlan Unit := do
  let some setting ← Record.inEnv (env.read variableName) | throw (.invalidParameter .noConsole)
  let some path := device? setting | throw (.invalidParameter (.noConsoleDevice setting))
  openAt path

end Dualbank.Console
