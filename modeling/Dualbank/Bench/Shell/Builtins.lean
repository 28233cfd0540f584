import Dualbank.Bench.Shell.Process

namespace Dualbank.Bench.Shell

open Process (text)

def isOctal (b : UInt8) : Bool := 48 ≤ b && b ≤ 55

def octalValue (bs : Bytes) : UInt8 := bs.foldl (fun n b => n * 8 + (b - 48)) 0

def escapeByte? (b : UInt8) : Option UInt8 :=
  [(97, 7), (98, 8), (102, 12), (110, 10), (114, 13), (116, 9), (118, 11), (92, 92)].lookup b

def octalDigits (n : Nat) (bs : Bytes) : Bytes := (bs.take n).takeWhile isOctal

/-- Replaces the escapes in what `echo` prints; the flag tells whether `\c` ended the output. -/
def echoEscapes : Nat → Bytes → Bytes × Bool
  | 0, bs => (bs, false)
  | _ + 1, [] => ([], false)
  | n + 1, 92 :: b :: bs =>
    if b = 99 then ([], true)
    else if isOctal b then
      let digits := if b = 48 then octalDigits 3 bs else octalDigits 3 (b :: bs)
      let (rest, stopped) :=
        echoEscapes n (if b = 48 then bs.drop digits.length else (b :: bs).drop digits.length)
      (octalValue digits :: rest, stopped)
    else
      let (rest, stopped) := echoEscapes n bs
      match escapeByte? b with
      | some e => (e :: rest, stopped)
      | none => (92 :: b :: rest, stopped)
  | n + 1, b :: bs =>
    let (rest, stopped) := echoEscapes n bs
    (b :: rest, stopped)

def echo (args : List Bytes) (p : Process) : Process :=
  let quiet := args.head? == some (Text.encode "-n")
  let line := Process.spaced (if quiet then args.drop 1 else args)
  let (out, stopped) := echoEscapes (line.length + 1) line
  (p.print (if quiet || stopped then out else out ++ [10])).withStatus 0

def formatOnce : Nat → Bytes → List Bytes → Bytes × List Bytes
  | 0, _, args => ([], args)
  | _ + 1, [], args => ([], args)
  | n + 1, 92 :: b :: bs, args =>
    if isOctal b then
      let digits := octalDigits 3 (b :: bs)
      let (rest, args) := formatOnce n ((b :: bs).drop digits.length) args
      (octalValue digits :: rest, args)
    else
      let (rest, args) := formatOnce n bs args
      match escapeByte? b with
      | some e => (e :: rest, args)
      | none => (92 :: b :: rest, args)
  | n + 1, 37 :: b :: bs, args =>
    if b = 37 then
      let (rest, args) := formatOnce n bs args
      (37 :: rest, args)
    else
      let value := args.headD []
      let shown := if b = 98 then (echoEscapes (value.length + 1) value).1
        else if b = 100 || b = 105 then Text.encode (toString ((text value).toInt?.getD 0))
        else value
      let (rest, args) := formatOnce n bs (args.drop 1)
      (shown ++ rest, args)
  | n + 1, b :: bs, args =>
    let (rest, args) := formatOnce n bs args
    (b :: rest, args)

/-- The format is used again as long as it takes arguments and some are left. -/
def formatAll : Nat → Bytes → List Bytes → Bytes
  | 0, _, _ => []
  | n + 1, format, args =>
    let (out, rest) := formatOnce (format.length + 1) format args
    if rest.isEmpty || rest.length == args.length then out else out ++ formatAll n format rest

def printf (args : List Bytes) (p : Process) : Process :=
  match args with
  | [] => (p.report "printf: usage: printf format [arg ...]").withStatus 2
  | format :: args => (p.print (formatAll (args.length + 1) format args)).withStatus 0

def signals : List (String × Nat) :=
  [("HUP", 1), ("INT", 2), ("QUIT", 3), ("ABRT", 6), ("KILL", 9), ("USR1", 10), ("SEGV", 11),
    ("USR2", 12), ("PIPE", 13), ("ALRM", 14), ("TERM", 15)]

def signalTexts : List (Nat × String) :=
  [(1, "Hangup"), (3, "Quit"), (6, "Aborted"), (9, "Killed"), (10, "User defined signal 1"),
    (11, "Segmentation fault"), (12, "User defined signal 2"), (14, "Alarm clock"),
    (15, "Terminated")]

def harmlessSignals : List Nat := [0, 17, 18, 23, 28]

def signal? (s : String) : Option Nat := s.toNat? <|> signals.lookup s

def kill (args : List Bytes) (p : Process) : Process :=
  let signal := match args with
    | [_] => some 15
    | [s, _] => signal? (String.ofList ((text s).toList.drop 1))
    | [_, s, _] => signal? (text s)
    | _ => none
  match signal, args.getLast? with
  | some n, some target =>
    if text target ≠ toString Process.number then p.withStatus 1
    else if harmlessSignals.contains n then p.withStatus 0
    else p.finish (.killed n)
  | _, _ => p.withStatus 2

def number? (bs : Bytes) : Option Int :=
  let isSpace (b : UInt8) : Bool := b = 32 || (9 ≤ b && b ≤ 13)
  let cs := ((bs.dropWhile isSpace).reverse.dropWhile isSpace).reverse
  let (negative, digits) := match cs with
    | 45 :: ds => (true, ds)
    | 43 :: ds => (false, ds)
    | ds => (false, ds)
  let counting := digits.dropWhile (· = 48)
  if digits.isEmpty || digits.any (fun b => b < 48 || 57 < b) || 19 < counting.length then none
  else
    let n := counting.foldl (fun n b => 10 * n + (b.toNat - 48)) 0
    if Nat.pow 2 63 ≤ n then none else some (if negative then -n else n)

def greatest : Int := 2147483647

def withNumber (command : String) (bs : Bytes) (p : Process) (f : Nat → Process) : Process :=
  match number? bs with
  | some (.ofNat n) =>
    if n ≤ greatest then f n else (illegal bs).finish (.exited 2)
  | _ => (illegal bs).finish (.exited 2)
where
  illegal (bs : Bytes) : Process := p.report s!"{command}: Illegal number: {text bs}"

def exit (args : List Bytes) (p : Process) : Process :=
  match args with
  | [] => p.finish (.exited (p.status % 256))
  | a :: _ => withNumber "exit" a p fun n => p.finish (.exited (n % 256))

def shift (args : List Bytes) (p : Process) : Process :=
  withNumber "shift" (args.headD [49]) p fun n =>
    if n ≤ p.args.length then { p with args := p.args.drop n, status := 0 }
    else (p.report "shift: can't shift that many").finish (.exited 2)

def exportAll (args : List Bytes) (p : Process) : Process :=
  (args.foldl (fun p a =>
    let name := text (a.takeWhile (· ≠ 61))
    match a.dropWhile (· ≠ 61) with
    | _ :: value => (p.setVariable name value).exportVariable name
    | [] => p.exportVariable name) p).withStatus 0

def readonly (args : List Bytes) (p : Process) : Process :=
  (args.foldl (fun p a =>
    match a.dropWhile (· ≠ 61) with
    | _ :: value => p.setVariable (text (a.takeWhile (· ≠ 61))) value
    | [] => p) p).withStatus 0

def unset (args : List Bytes) (p : Process) : Process :=
  { p with bindings := args.foldl (fun vs a => vs.unset (text a)) p.bindings, status := 0 }

def compareNumbers (op : String) (a b : Int) : Option Bool :=
  match op with
  | "-eq" => some (a = b)
  | "-ne" => some (a ≠ b)
  | "-gt" => some (a > b)
  | "-ge" => some (a ≥ b)
  | "-lt" => some (a < b)
  | "-le" => some (a ≤ b)
  | _ => none

def testFile (op : String) (f : Bytes) (p : Process) : Option Bool :=
  match op, p.files.get (text f) with
  | "-f", .ok (.file ..) => some true
  | "-f", .ok (.program _) => some true
  | "-d", .ok .directory => some true
  | "-e", .ok _ => some true
  | "-x", .ok (.file _ _ x) => some x
  | "-x", .ok (.program _) => some true
  | "-x", .ok .directory => some true
  | "-s", .ok (.file n bs _) => some (!bs.isEmpty || p.files.tail n ≠ 0)
  | "-s", .ok (.program _) => some true
  | "-r", .ok _ | "-w", .ok _ => some true
  | "-f", _ | "-d", _ | "-e", _ | "-x", _ | "-s", _ | "-r", _ | "-w", _ => some false
  | "-L", _ | "-h", _ =>
    match p.files.find .keep (text f) with
    | .ok (_, some (.link _)) => some true
    | _ => some false
  | _, _ => none

def primary (p : Process) : List Bytes → Except String Bool
  | [] => .ok false
  | [a] => .ok (!a.isEmpty)
  | [op, a] =>
    match text op with
    | "!" => .ok a.isEmpty
    | "-n" => .ok (!a.isEmpty)
    | "-z" => .ok a.isEmpty
    | op =>
      match testFile op a p with
      | some found => .ok found
      | none =>
        .error (if (compareNumbers (text a) 0 0).isSome then s!"{text a}: argument expected"
          else s!"{op}: unexpected operator")
  | [a, op, b] =>
    match text op with
    | "=" => .ok (a = b)
    | "!=" => .ok (a ≠ b)
    | "-a" => .ok (!a.isEmpty && !b.isEmpty)
    | "-o" => .ok (!a.isEmpty || !b.isEmpty)
    | o =>
      if text a = "!" then (primary p [op, b]).map (!·)
      else if (compareNumbers o 0 0).isNone then .error s!"{text a}: unexpected operator"
      else
        match number? a, number? b with
        | none, _ => .error s!"Illegal number: {text a}"
        | _, none => .error s!"Illegal number: {text b}"
        | some m, some n => .ok ((compareNumbers o m n).getD false)
  | a :: rest =>
    if text a = "!" then (primary p rest).map (!·) else .error s!"{text a}: unexpected operator"
termination_by args => args.length

def test (p : Process) (args : List Bytes) : Except String Bool := do
  if args.length ≤ 4 then primary p args
  else
    let alternatives := args.splitOn (Text.encode "-o")
    let answers ← alternatives.mapM fun alternative => do
      let answers ← (alternative.splitOn (Text.encode "-a")).mapM (primary p)
      return answers.all id
    return answers.any id

def testAs (name : String) (args : List Bytes) (p : Process) : Process :=
  match test p args with
  | .ok true => p.withStatus 0
  | .ok false => p.withStatus 1
  | .error why => (p.report s!"{name}: {why}").withStatus 2

def bracket (args : List Bytes) (p : Process) : Process :=
  if args.getLast? == some [93] then testAs "[" args.dropLast p
  else (p.report "[: missing ]").withStatus 2

/-- Takes a line from the input and gives its words to variables; the last one gets the rest. -/
def readLine (args : List Bytes) (p : Process) : Process :=
  let raw := args.head? == some (Text.encode "-r")
  let whole := p.input.takeWhile (· ≠ 10)
  let complete := whole.length < p.input.length
  let line := if raw then whole else whole.filter (· ≠ 92)
  let p := { p with input := p.input.drop (whole.length + 1) }
  (share (if raw then args.drop 1 else args) line p).withStatus (if complete then 0 else 1)
where
  isBlank (b : UInt8) : Bool := b = 32 || b = 9
  trim (bs : Bytes) : Bytes := ((bs.dropWhile isBlank).reverse.dropWhile isBlank).reverse
  share : List Bytes → Bytes → Process → Process
    | [], _, p => p
    | [name], line, p => p.setVariable (text name) (trim line)
    | name :: names, line, p =>
      let line := trim line
      let word := line.takeWhile (!isBlank ·)
      share names (line.drop word.length) (p.setVariable (text name) word)

def builtin? : String → Option (List Bytes → Process → Process)
  | "true" | ":" => some fun _ p => p.withStatus 0
  | "false" => some fun _ p => p.withStatus 1
  | "echo" => some echo
  | "printf" => some printf
  | "kill" => some kill
  | "test" => some (testAs "test")
  | "[" => some bracket
  | "exit" => some exit
  | "shift" => some shift
  | "export" => some exportAll
  | "unset" => some unset
  | "readonly" => some readonly
  | "read" => some readLine
  | "cd" | "umask" | "trap" | "wait" => some fun _ p => p.withStatus 0
  | _ => none

/-- Commands of which a failing redirection ends the shell. -/
def isSpecial (name : String) : Bool :=
  [":", ".", "eval", "exec", "exit", "export", "readonly", "set", "shift", "trap", "unset"].contains
    name

end Dualbank.Bench.Shell
