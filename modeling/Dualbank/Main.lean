import Dualbank.Program
import Dualbank.Text.Utf8

namespace Dualbank.Host

def osError : IO.Error → OsError
  | .alreadyExists _ n _ | .otherError n _ | .resourceBusy n _ | .resourceVanished n _
  | .unsupportedOperation n _ | .hardwareFault n _ | .unsatisfiedConstraints n _
  | .illegalOperation n _ | .protocolError n _ | .timeExpired n _ | .interrupted _ n _
  | .noFileOrDirectory _ n _ | .invalidArgument _ n _ | .permissionDenied _ n _
  | .resourceExhausted _ n _ | .inappropriateType _ n _ | .noSuchThing _ n _ =>
    .number (Int.ofNat n.toNat)
  | .unexpectedEof => .other "unexpected end of file"
  | .userError s => .other s

def attempt {α : Type} (act : IO α) : IO (Except OsError α) := do
  match ← act.toBaseIO with
  | .ok a => return .ok a
  | .error e => return .error (osError e)

def readBytes (path : String) : IO Bytes := return (← IO.FS.readBinFile path).toList

def isPresent (path : String) : IO (Except OsError Bool) := do
  match ← attempt (IO.FS.Handle.mk path .read) with
  | .ok _ => return .ok true
  | .error e => return if e.isNotFound then .ok false else .error e

def inspect (path : String) : IO (Except OsError FileKind) := do
  match ← attempt (readBytes path) with
  | .ok bs => return .ok (.regular bs.length)
  | .error e =>
    return if e.errno? == some Errno.isDirectory then .ok .other else .error e

abbrev Console := IO.Ref (Option IO.FS.Handle × Bool)

def writeLine (console : Console) (stream : Stream) (line : String) : IO Unit := do
  match stream with
  | .stdout => IO.println line
  | .stderr => IO.eprintln line
  | .console =>
    if let some h := (← console.get).1 then
      discard <| attempt do
        h.putStrLn line
        h.flush

/-- What the program asks of the system is answered here and nowhere else. Starting other programs
is not supported, which it is told as an error of the system. -/
def answer (console : Console) : (q : SysCall) → IO q.Answer
  | .run .. => return .error (.number Errno.notImplemented)
  | .runAttached .. => return .error (.number Errno.notImplemented)
  | .readText path => do
    match ← attempt (readBytes path) with
    | .ok bs => return match Text.decode? bs with
      | some s => .ok s
      | none => .error .notText
    | .error e => return .error e
  | .isPresent path => isPresent path
  | .createNew path => attempt (discard (IO.FS.Handle.mk path .writeNew))
  | .remove path => attempt (IO.FS.removeFile path)
  | .inspect path => inspect path
  | .workingDirectory => attempt (return (← IO.currentDir).toString)
  | .openConsole path => do
    match ← isPresent path with
    | .ok true => attempt do
      let h ← IO.FS.Handle.mk path .append
      console.modify fun c => (some h, c.2)
    | .ok false => return .error (.number Errno.noEntry)
    | .error e => return .error e
  | .pause milliseconds => IO.sleep milliseconds.toUInt32
  | .print stream line => writeLine console stream line
  | .log severity message => do
    writeLine console .stderr message
    if severity ≠ .warning && (← console.get).2 then writeLine console .console message
  | .copyLog => console.modify fun c => (c.1, true)

def environment : IO (List (String × String)) := do
  match ← attempt (readBytes "/proc/self/environ") with
  | .error _ => return []
  | .ok bs =>
    let entries := (Text.decodeLossy bs).splitOn "\x00"
    return entries.filterMap fun e =>
      let cs := e.toList
      let name := cs.takeWhile (· ≠ '=')
      if name.isEmpty then none
      else some (String.ofList name, String.ofList (cs.drop (name.length + 1)))

end Dualbank.Host

def main (args : List String) : IO UInt32 := do
  let console ← IO.mkRef (none, false)
  let code ← (Dualbank.Program.run (← Dualbank.Host.environment) args).run
    (Dualbank.Host.answer console)
  return code.toUInt32
