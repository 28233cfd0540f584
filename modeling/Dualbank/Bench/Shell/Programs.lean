import Dualbank.Bench.Shell.Builtins
import Dualbank.Bench.Shell.Quoted

namespace Dualbank.Bench.Shell

open Process (text)

def complainAbout (program before : String) (file : Bytes) (e : OsError) (p : Process) : Process :=
  let why := match e with
    | .number n => Errno.text n
    | e => e.message
  (p.complain (Text.encode s!"{program}: {before}" ++ file ++ Text.encode s!": {why}")).withStatus 1

def operands : List Bytes → List Bytes
  | [] => []
  | a :: as =>
    if a = [45, 45] then as
    else if a.head? == some 45 && a ≠ [45] then operands as
    else a :: operands as

def optionLetters (args : List Bytes) : Bytes :=
  ((args.takeWhile (· ≠ [45, 45])).filter fun a => a.head? == some 45).flatMap (·.drop 1)

def cat (args : List Bytes) (p : Process) : Process :=
  let files := operands args
  (if files.isEmpty then [[45]] else files).foldl (fun p f =>
    if f = [45] then p.print p.input
    else
      match p.files.read (text f) with
      | .ok bs => p.print bs
      | .error e => complainAbout "cat" "" (Quoted.ifNeeded f) e p) p

def trimSlashes (bs : Bytes) : Bytes :=
  match bs.reverse with
  | 47 :: 47 :: rest => (47 :: rest.dropWhile (· = 47)).reverse
  | _ => bs

def rm (args : List Bytes) (p : Process) : Process :=
  let letters := optionLetters args
  let force := letters.contains 102
  let deep := letters.contains 114 || letters.contains 82
  ((operands args).map trimSlashes).foldl (fun p f =>
    let path := text f
    let removed := match p.files.find .keep path with
      | .ok (_, some .directory) =>
        if deep then p.files.removeAll path else .error (.number Errno.isDirectory)
      | _ => p.files.remove path
    match removed with
    | .ok files => { p with files }
    | .error e =>
      if force && Executable.isMissing e then p
      else complainAbout "rm" "cannot remove " (Quoted.always f) e p) p

def touch (args : List Bytes) (p : Process) : Process :=
  (operands args).foldl (fun p f =>
    match p.files.touch (text f) with
    | .ok files => { p with files }
    | .error e =>
      if e == .number Errno.isDirectory then p
      else complainAbout "touch" "cannot touch " (Quoted.always f) e p) p

def sizeAsked : List Bytes → Option (Bytes × List Bytes)
  | [] => none
  | a :: as =>
    if a = Text.encode "-s" || a = Text.encode "--size" then
      match as with
      | size :: files => some (size, files)
      | [] => none
    else if (Text.encode "--size=").isPrefixOf a then some (a.drop 7, as)
    else if (Text.encode "-s").isPrefixOf a then some (a.drop 2, as)
    else none

def truncate (args : List Bytes) (p : Process) : Process :=
  let refuse (message : String) : Process :=
    (p.complain (Text.encode s!"truncate: {message}")).withStatus 1
  let help := "\nTry 'truncate --help' for more information."
  match sizeAsked args with
  | none => refuse ("you must specify either '--size' or '--reference'" ++ help)
  | some (_, []) => refuse ("missing file operand" ++ help)
  | some (size, files) =>
    let digits := (text size).toList
    match if digits = [] then .error .empty else Text.readDigits Text.maxI64 .tooLarge 0 digits with
    | .error _ => refuse s!"Invalid number: '{text size}'"
    | .ok n =>
      (operands files).foldl (fun p f =>
        match p.files.resize (text f) n with
        | .ok files => { p with files }
        | .error e =>
          let file := Quoted.always f ++ Text.encode " for writing"
          complainAbout "truncate" "cannot open " file e p) p

/-- Unlike the command of the shell, this one replaces escapes only if it is asked to. -/
def plainEcho (args : List Bytes) (p : Process) : Process :=
  let isOption (a : Bytes) : Bool :=
    a.head? == some 45 && 1 < a.length && (a.drop 1).all fun b => b = 110 || b = 101 || b = 69
  let letters := (args.takeWhile isOption).flatMap (·.drop 1)
  let line := Process.spaced (args.dropWhile isOption)
  let replace := (letters.filter (· ≠ 110)).getLast? == some 101
  let (out, stopped) := if replace then echoEscapes (line.length + 1) line else (line, false)
  p.print (if letters.contains 110 || stopped then out else out ++ [10])

def printenv (args : List Bytes) (p : Process) : Process :=
  if args.isEmpty then
    p.print (p.bindings.reverse.flatMap fun v => Text.encode (v.1 ++ "=") ++ v.2 ++ [10])
  else
    args.foldl (fun p a =>
      match p.bindings.lookup (text a) with
      | some value => p.print (value ++ [10])
      | none => p.withStatus 1) p

def isShell (program : String) : Bool := program = "sh" || program = "dash"

def program? : String → Option (List Bytes → Process → Process)
  | "cat" => some cat
  | "rm" => some rm
  | "touch" => some touch
  | "truncate" => some truncate
  | "echo" => some plainEcho
  | "printenv" => some printenv
  | "sleep" | "sync" => some fun _ p => p
  | name => if ["true", "false", "printf", "test", "[", "kill"].contains name then builtin? name
    else none

def programNames : List String :=
  ["sh", "dash", "env", "cat", "rm", "touch", "truncate", "echo", "printenv", "sleep", "sync",
    "true", "false", "printf", "test", "[", "kill"]

end Dualbank.Bench.Shell
