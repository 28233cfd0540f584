import Dualbank.Bench.Machine

namespace Dualbank.Bench.Variables

def directory (tools : String) : String := Path.join tools "vars"

def printTool (tools : String) : String := Path.join tools "fw_printenv"

def setTool (tools : String) : String := Path.join tools "fw_setenv"

def printScript (vars : String) : String :=
  "#!/bin/sh\n" ++
  "if [ -f \"" ++ vars ++ "/$1\" ]; then\n" ++
  "    printf '%s=%s\\n' \"$1\" \"$(cat \"" ++ vars ++ "/$1\")\"\n" ++
  "else\n" ++
  "    echo \"## Error: \\\"$1\\\" not defined\" >&2\n" ++
  "    exit 1\n" ++
  "fi\n"

def setScript (vars : String) : String :=
  "#!/bin/sh\n" ++
  "name=\"$1\"\n" ++
  "shift\n" ++
  "if [ $# -gt 0 ]; then\n" ++
  "    printf '%s' \"$*\" > \"" ++ vars ++ "/$name\"\n" ++
  "else\n" ++
  "    rm -f \"" ++ vars ++ "/$name\"\n" ++
  "fi\n"

def writeScript (path script : String) (t : FileTree) : Except OsError FileTree := do
  (← t.write path (Text.encode script)).setExecutable path

def set (tools name value : String) (t : FileTree) : Except OsError FileTree :=
  t.write (Path.join (directory tools) name) (Text.encode value)

def get? (tools name : String) (t : FileTree) : Except OsError (Option String) :=
  match t.readText (Path.join (directory tools) name) with
  | .ok s => .ok (some s)
  | .error e => if e.isNotFound then .ok none else .error e

def setUp (tools : String) (vars : List (String × String)) (t : FileTree) :
    Except OsError FileTree := do
  let t ← t.makeDirectories (directory tools)
  let t ← writeScript (printTool tools) (printScript (directory tools)) t
  let t ← writeScript (setTool tools) (setScript (directory tools)) t
  vars.foldlM (fun t v => set tools v.1 v.2 t) t

end Dualbank.Bench.Variables
