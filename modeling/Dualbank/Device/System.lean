import Dualbank.Call

namespace Dualbank

inductive Status
  | exited (code : Nat)
  | killed (signal : Nat)
  deriving DecidableEq, Repr

namespace Status

def isSuccess : Status → Bool
  | exited 0 => true
  | _ => false

/-- The exit code, `-1` for a program that was killed. -/
def code : Status → Int
  | exited n => n
  | killed _ => -1

def text : Status → String
  | exited n => s!"exit status: {n}"
  | killed n => s!"signal: {n}"

end Status

/-- A program that ran, with the output it wrote. Bytes that are no text are replaced in it. -/
structure Finished where
  status : Status
  out : String
  err : String
  deriving DecidableEq, Repr

inductive Severity
  | warning
  | error
  | fatal
  deriving DecidableEq, Repr

inductive SysCall
  | run (program : String) (args : List String)
  /-- Runs a program that writes to the streams of this one. -/
  | runAttached (program : String) (args : List String)
  | readText (path : String)
  | isPresent (path : String)
  | createNew (path : String)
  | remove (path : String)
  | inspect (path : String)
  | workingDirectory
  /-- Makes an existing file the serial console; lines are appended to it. -/
  | openConsole (path : String)
  | pause (milliseconds : Nat)
  | print (stream : Stream) (line : String)
  | log (severity : Severity) (message : String)
  | copyLog
  deriving DecidableEq, Repr

namespace SysCall

abbrev Answer : SysCall → Type
  | run .. => Except OsError Finished
  | runAttached .. => Except OsError Status
  | readText _ => Except OsError String
  | isPresent _ => Except OsError Bool
  | createNew _ => Except OsError Unit
  | remove _ => Except OsError Unit
  | inspect _ => Except OsError FileKind
  | workingDirectory => Except OsError String
  | openConsole _ => Except OsError Unit
  | pause _ => Unit
  | print .. => Unit
  | log .. => Unit
  | copyLog => Unit

end SysCall

abbrev SysPlan := Plan SysCall.Answer

namespace SysPlan

def ask (q : SysCall) : SysPlan q.Answer := Plan.call q

end SysPlan

end Dualbank
