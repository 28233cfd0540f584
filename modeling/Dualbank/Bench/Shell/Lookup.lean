import Dualbank.Bench.Shell.Process

namespace Dualbank.Bench.Shell

def notStarted : OsError → String
  | .number n =>
    if n = Errno.noEntry || n = Errno.notDirectory then "not found" else Errno.text n
  | e => e.message

def unstartedStatus (e : OsError) : Nat :=
  let missing := [Errno.noEntry, Errno.notDirectory, Errno.tooManyLinks, Errno.nameTooLong]
  if missing.any fun n => e == .number n then 127 else 126

def findFile (t : FileTree) (fault : OsError) : List String → Except OsError String
  | [] => .error fault
  | path :: paths =>
    match t.get path with
    | .ok (.program _) | .ok (.file _ _ true) => .ok path
    | .ok _ => findFile t (.number Errno.permission) paths
    | .error e => findFile t (if Executable.isMissing e then fault else e) paths

def locate (p : Process) (program : String) : Except OsError String :=
  if program.toList.contains '/' then .ok program
  else
    findFile p.files (.number Errno.noEntry)
      (Executable.candidates p.bindings.directories program)

def shellPath : String := "/bin/sh"

/-- What running the file at a path comes to for a shell, which reads a text without interpreter
itself. -/
def startAt (p : Process) (path : String) (name : Bytes) (args : List Bytes) :
    Except OsError Start :=
  match Executable.load p.files Executable.mostInterpreters path name args with
  | .error (.number n) =>
    if n = Errno.badExecutable then
      .ok ⟨"sh", Text.encode shellPath, Text.encode path :: args⟩
    else .error (.number n)
  | answer => answer

end Dualbank.Bench.Shell
