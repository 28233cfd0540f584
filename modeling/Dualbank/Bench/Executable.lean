import Dualbank.Bench.FileTree

namespace Dualbank.Bench

structure Start where
  program : String
  name : Bytes
  args : List Bytes
  deriving DecidableEq, Repr

namespace Executable

def longestFirstLine : Nat := 256

def isBlank (b : UInt8) : Bool := b = 32 || b = 9

/-- The interpreter that the first line of a text names, and the one argument that it may have. A
line that names none asks for the current directory if it is the whole text. -/
def interpreter? (bs : Bytes) : Option (Bytes × List Bytes) :=
  match bs.take longestFirstLine with
  | 35 :: 33 :: rest =>
    let line := (rest.takeWhile fun b => b ≠ 10 && b ≠ 0).dropWhile isBlank
    let name := line.takeWhile (!isBlank ·)
    let argument := ((line.drop name.length).dropWhile isBlank).reverse.dropWhile isBlank
    if name.isEmpty then if rest.contains 10 then none else some ([46], [])
    else some (name, if argument.isEmpty then [] else [argument.reverse])
  | _ => none

def mostInterpreters : Nat := 5

/-- What runs the file at a path: a program, which is the file itself, or an interpreter with its
argument. -/
def runner (t : FileTree) (path : String) : Except OsError (String ⊕ Bytes × List Bytes) := do
  match ← t.get path with
  | .program program => return .inl program
  | .file _ bs true =>
    match interpreter? bs with
    | some i => return .inr i
    | none => throw (.number Errno.badExecutable)
  | _ => throw (.number Errno.permission)

def longestArgument : Nat := 131071

def start (program : String) (name : Bytes) (args : List Bytes) : Except OsError Start :=
  if args.any (longestArgument < ·.length) then .error (.number Errno.argumentsTooLong)
  else .ok ⟨program, name, args⟩

def load (t : FileTree) : Nat → String → Bytes → List Bytes → Except OsError Start
  | 0, path, name, args => do
    match ← runner t path with
    | .inl program => start program name args
    | .inr _ => throw (.number Errno.tooManyLinks)
  | n + 1, path, name, args => do
    match ← runner t path with
    | .inl program => start program name args
    | .inr (interpreter, options) =>
      load t n (Text.decodeLossy interpreter) interpreter (options ++ Text.encode path :: args)

def searchVariable : String := "PATH"

def defaultDirectories : String := "/usr/local/sbin:/usr/local/bin:/usr/sbin:/usr/bin:/sbin:/bin"

def candidates (directories name : String) : List String :=
  (directories.toList.splitOn ':').map fun d =>
    if d.isEmpty then name else String.ofList d ++ "/" ++ name

def isDenied (e : OsError) : Bool := e == .number Errno.permission

def isMissing (e : OsError) : Bool := e.isNotFound || e == .number Errno.notDirectory

/-- The first answer that ends a search. If there is none, a file that may not be run counts more
than a missing one. -/
def firstAnswer (denied : Bool) (last : OsError) :
    List (Except OsError Start) → Except OsError Start
  | [] => .error (if denied then .number Errno.permission else last)
  | .ok s :: _ => .ok s
  | .error e :: answers =>
    if isDenied e then firstAnswer true e answers
    else if isMissing e then firstAnswer denied e answers
    else .error e

def search (t : FileTree) (directories program : String) (args : List Bytes) :
    Except OsError Start :=
  let name := Text.encode program
  if program.toList.contains '/' then load t mostInterpreters program name args
  else if program.isEmpty then .error (.number Errno.noEntry)
  else if FileTree.longestName < program.utf8ByteSize then .error (.number Errno.nameTooLong)
  else
    firstAnswer false (.number Errno.noEntry) <|
      (candidates directories program).map fun path => load t mostInterpreters path name args

end Executable

end Dualbank.Bench
