import Dualbank.Bench.Shell.Script

namespace Dualbank.Bench.Shell

def isBlankChar (c : Char) : Bool := c = ' ' || c = '\t'

def isNameStart (c : Char) : Bool := c.isAlpha || c = '_'

def isNameChar (c : Char) : Bool := c.isAlphanum || c = '_'

def isVariableName (s : String) : Bool := s.toList.head?.any isNameStart && s.toList.all isNameChar

def isWordEnd (c : Char) : Bool :=
  isBlankChar c || c = '\n' || c = ';' || c = '&' || c = '|' || c = '<' || c = '>' || c = '(' ||
    c = ')'

def closing (opens closes : Char) : Nat → Bool → Bool → List Char → Option (List Char × List Char)
  | _, _, _, [] => none
  | depth, single, double, c :: cs =>
    let more (depth : Nat) (single double : Bool) :=
      (closing opens closes depth single double cs).map fun r => (c :: r.1, r.2)
    if single then more depth (c ≠ '\'') double
    else if c = '\\' then
      match cs with
      | [] => none
      | d :: cs =>
        (closing opens closes depth single double cs).map fun r => (c :: d :: r.1, r.2)
    else if c = '"' then more depth single (!double)
    else if double then more depth single double
    else if c = '\'' then more depth true double
    else if c = opens then more (depth + 1) single double
    else if c = closes then
      match depth with
      | 0 => some ([], cs)
      | d + 1 => more d single double
    else more depth single double

def isSpecialParameter (c : Char) : Bool := c = '@' || c = '*' || c = '#' || c = '$' || c = '?'

/-- The name of a parameter at the start of a text. A number without braces has one digit. -/
def parameterName (braces : Bool) : List Char → List Char
  | [] => []
  | c :: cs =>
    if isNameStart c then c :: cs.takeWhile isNameChar
    else if c.isDigit then c :: if braces then cs.takeWhile Char.isDigit else []
    else if isSpecialParameter c then [c]
    else []

def alterations : List String :=
  [":-", ":=", ":+", ":?", "##", "%%", "-", "=", "+", "?", "#", "%"]

def inBraces (inQuotes : Bool) (cs : List Char) : Option Piece :=
  let name := parameterName true cs
  let rest := cs.drop name.length
  let param := String.ofList name
  if name = ['#'] && !rest.isEmpty then
    if parameterName true rest = rest then some (.altered (String.ofList rest) "length" "" inQuotes)
    else none
  else if name.isEmpty then none
  else if rest.isEmpty then some (.param param inQuotes)
  else
    (alterations.find? fun op => op.toList.isPrefixOf rest).map fun op =>
      .altered param op (String.ofList (rest.drop op.length)) inQuotes

def expansion (inQuotes : Bool) (cs : List Char) : Option (Piece × List Char) :=
  match cs with
  | '(' :: cs =>
    (closing '(' ')' 0 false false cs).map fun r =>
      match r.1, r.1.getLast? with
      | '(' :: inner, some ')' => (.arithmetic (String.ofList inner.dropLast) inQuotes, r.2)
      | script, _ => (.output (String.ofList script) inQuotes, r.2)
  | '\x7b' :: cs => do
    let (inner, cs) ← closing '\x7b' '\x7d' 0 false false cs
    let piece ← inBraces inQuotes inner
    return (piece, cs)
  | cs =>
    let name := parameterName false cs
    if name.isEmpty then some (.quoted "$", cs)
    else some (.param (String.ofList name) inQuotes, cs.drop name.length)

def isBackquote (c : Char) : Bool := c.toNat = 96

def backquoted (inQuotes : Bool) : List Char → Option (List Char × List Char)
  | [] => none
  | '\\' :: d :: cs =>
    let bare := isBackquote d || d = '\\' || d = '$' || (inQuotes && d = '"')
    (backquoted inQuotes cs).map fun r => ((if bare then [d] else ['\\', d]) ++ r.1, r.2)
  | c :: cs =>
    if isBackquote c then some ([], cs)
    else (backquoted inQuotes cs).map fun r => (c :: r.1, r.2)

def addChar (quotes : Bool) (c : Char) : Word → Word
  | .plain s :: w =>
    if quotes then .quoted (String.ofList [c]) :: .plain s :: w else .plain (s.push c) :: w
  | .quoted s :: w =>
    if quotes then .quoted (s.push c) :: w else .plain (String.ofList [c]) :: .quoted s :: w
  | w => (if quotes then .quoted (String.ofList [c]) else .plain (String.ofList [c])) :: w

/-- A word, its pieces in reverse, up to where it ends; in double quotes or not. With `whole` the
word is all of the text. -/
def readWord (whole : Bool) : Nat → Bool → Word → List Char → Option (Word × List Char)
  | 0, _, _, _ => none
  | _ + 1, false, w, [] => some (w.reverse, [])
  | _ + 1, true, _, [] => none
  | n + 1, quotes, w, c :: cs =>
    let goOn := readWord whole n
    if !quotes && !whole && isWordEnd c then some (w.reverse, c :: cs)
    else if c = '$' then (expansion quotes cs).bind fun r => goOn quotes (r.1 :: w) r.2
    else if isBackquote c then
      (backquoted quotes cs).bind fun r => goOn quotes (.output (String.ofList r.1) quotes :: w) r.2
    else if c = '"' then if quotes then goOn false w cs else goOn true (.quoted "" :: w) cs
    else if c = '\\' then
      match cs with
      | '\n' :: cs => goOn quotes w cs
      | d :: cs =>
        if !quotes || d = '$' || d = '"' || d = '\\' || isBackquote d then
          goOn quotes (addChar true d w) cs
        else goOn quotes (addChar true d (addChar true c w)) cs
      | [] => goOn quotes (addChar true c w) []
    else if c = '\'' && !quotes then
      let text := cs.takeWhile (· ≠ '\'')
      match cs.drop text.length with
      | _ :: cs => goOn false (.quoted (String.ofList text) :: w) cs
      | [] => none
    else goOn quotes (addChar quotes c w) cs

def readInner (inQuotes : Bool) (word : String) : Word :=
  let cs := if inQuotes then word.toList ++ ['"'] else word.toList
  ((readWord true (cs.length + 2) inQuotes [] cs).map (·.1)).getD [.quoted word]

def countLines (before after : List Char) : Nat :=
  ((before.take (before.length - after.length)).filter (· = '\n')).length

def twoChars : List (Char × Char × String) :=
  [(';', ';', ";;"), ('&', '&', "&&"), ('|', '|', "||")]

def tokens : Nat → Nat → List Char → Option (List (Nat × Token))
  | 0, _, _ => none
  | _ + 1, _, [] => some []
  | n + 1, line, c :: cs =>
    let go (t : Token) (cs : List Char) := (tokens n line cs).map ((line, t) :: ·)
    let redirect (stream : Option Nat) (cs : List Char) :=
      match cs with
      | '>' :: '>' :: cs => go (.redirect stream ">>") cs
      | '>' :: '&' :: cs => go (.redirect stream ">&") cs
      | '>' :: '|' :: cs => go (.redirect stream ">") cs
      | '>' :: cs => go (.redirect stream ">") cs
      | '<' :: cs => go (.redirect stream "<") cs
      | _ => none
    if c = '\n' then (tokens n (line + 1) cs).map ((line, .mark "\n") :: ·)
    else if isBlankChar c then tokens n line cs
    else if c = '\\' && cs.head? == some '\n' then tokens n (line + 1) (cs.drop 1)
    else if c = '#' then tokens n line (cs.dropWhile (· ≠ '\n'))
    else if c = '>' || c = '<' then redirect none (c :: cs)
    else if c.isDigit && (cs.head? == some '>' || cs.head? == some '<') then
      redirect (some (c.toNat - 48)) cs
    else if isWordEnd c then
      match twoChars.find? fun t => t.1 = c && cs.head? == some t.2.1 with
      | some t => go (.mark t.2.2) (cs.drop 1)
      | none => go (.mark (String.ofList [c])) cs
    else
      match readWord false (cs.length + 2) false [] (c :: cs) with
      | none => none
      | some (w, rest) =>
        (tokens n (line + countLines (c :: cs) rest) rest).map ((line, .word w) :: ·)

abbrev Tokens := List (Nat × Token)

def isWord (s : String) : Tokens → Bool
  | (_, .word [.plain w]) :: _ => w = s
  | _ => false

def isMark (s : String) : Tokens → Bool
  | (_, .mark m) :: _ => m = s
  | _ => false

def expectWord (s : String) (ts : Tokens) : Option Tokens :=
  if isWord s ts then some (ts.drop 1) else none

def skipLines (ts : Tokens) : Tokens := ts.dropWhile fun t => t.2 == .mark "\n"

def enders : List String := ["then", "else", "elif", "fi", "esac", "\x7d", "do", "done"]

def atEnder (ts : Tokens) : Bool :=
  ts.isEmpty || enders.any (isWord · ts) || isMark ")" ts || isMark ";;" ts

def readRedirection (stream : Option Nat) (op : String) (w : Word) : Redirection :=
  match op with
  | "<" => .file (stream.getD 0) false w
  | ">>" => .file (stream.getD 1) true w
  | ">&" => .duplicate (stream.getD 1) w
  | _ => .file (stream.getD 1) false w

def redirections : Tokens → List Redirection × Tokens
  | (_, .redirect stream op) :: (_, .word w) :: ts =>
    let (rs, ts) := redirections ts
    (readRedirection stream op w :: rs, ts)
  | ts => ([], ts)

def simpleParts : Tokens → List Word × List Redirection × Tokens
  | (_, .word w) :: ts =>
    let (ws, rs, ts) := simpleParts ts
    (w :: ws, rs, ts)
  | (_, .redirect stream op) :: (_, .word w) :: ts =>
    let (ws, rs, ts) := simpleParts ts
    (ws, readRedirection stream op w :: rs, ts)
  | ts => ([], [], ts)

def patterns : Tokens → Option (List Word × Tokens)
  | (_, .word w) :: (_, .mark ")") :: ts => some ([w], ts)
  | (_, .word w) :: (_, .mark "|") :: ts => (patterns ts).map fun r => (w :: r.1, r.2)
  | _ => none

def readItems (ts : Tokens) : Option (Option (List Word) × Tokens) :=
  let skipEnd (ts : Tokens) := if isMark ";" ts then ts.drop 1 else ts
  if isWord "in" ts then
    let words := ts.drop 1 |>.takeWhile fun t => t.2 matches .word _
    some (some (words.filterMap fun t => match t.2 with
      | .word w => some w
      | _ => none), skipEnd (ts.drop (1 + words.length)))
  else some (none, skipEnd ts)

mutual

def readList : Nat → Tokens → Option (Script × Tokens)
  | 0, _ => none
  | n + 1, ts =>
    let ts := skipLines ts
    if atEnder ts then some (.nothing, ts)
    else
      match readAndOr n ts with
      | none => none
      | some (a, ts) =>
        if isMark ";" ts || isMark "\n" ts || isMark "&" ts then
          (readList n (ts.drop 1)).map fun r => (.both a r.1, r.2)
        else if atEnder ts then some (a, ts)
        else none

def readAndOr : Nat → Tokens → Option (Script × Tokens)
  | 0, _ => none
  | n + 1, ts => (readPipeline n ts).bind fun r => continueAndOr n r.1 r.2

def continueAndOr : Nat → Script → Tokens → Option (Script × Tokens)
  | 0, _, _ => none
  | n + 1, a, ts =>
    if isMark "&&" ts then
      (readPipeline n (skipLines (ts.drop 1))).bind fun r => continueAndOr n (.ifOk a r.1) r.2
    else if isMark "||" ts then
      (readPipeline n (skipLines (ts.drop 1))).bind fun r => continueAndOr n (.ifFailed a r.1) r.2
    else some (a, ts)

def readPipeline : Nat → Tokens → Option (Script × Tokens)
  | 0, _ => none
  | n + 1, ts =>
    if isWord "!" ts then (readPipeline n (ts.drop 1)).map fun r => (.negated r.1, r.2)
    else
      match readCommand n ts with
      | none => none
      | some (a, ts) =>
        if isMark "|" ts then
          (readPipeline n (skipLines (ts.drop 1))).map fun r => (.piped a r.1, r.2)
        else some (a, ts)

def readCommand : Nat → Tokens → Option (Script × Tokens)
  | 0, _ => none
  | _ + 1, [] => none
  | n + 1, (line, t) :: ts =>
    let all := (line, t) :: ts
    if isWord "if" all then readIf n line ts
    else if isWord "case" all then
      match ts with
      | (_, .word w) :: ts => do
        let ts ← expectWord "in" (skipLines ts)
        let (branches, ts) ← readBranches n (skipLines ts)
        let (rs, ts) := redirections ts
        return (.grouped line (.cases w branches) rs, ts)
      | _ => none
    else if isWord "while" all || isWord "until" all then do
      let (test, ts) ← readList n ts
      let (body, ts) ← readBody n ts
      let (rs, ts) := redirections ts
      return (.grouped line (.loop (isWord "while" all) test body) rs, ts)
    else if isWord "for" all then
      match ts with
      | (_, .word [.plain name]) :: ts => do
        let (words, ts) ← readItems (skipLines ts)
        let (body, ts) ← readBody n ts
        let (rs, ts) := redirections ts
        return (.grouped line (.each name words body) rs, ts)
      | _ => none
    else if isWord "\x7b" all then do
      let (a, ts) ← readList n ts
      let ts ← expectWord "\x7d" ts
      let (rs, ts) := redirections ts
      return (.grouped line a rs, ts)
    else if isMark "(" all then do
      let (a, ts) ← readList n ts
      let ts ← if isMark ")" ts then some (ts.drop 1) else none
      let (rs, ts) := redirections ts
      return (.nested line a rs, ts)
    else
      let (ws, rs, rest) := simpleParts all
      if ws.isEmpty && rs.isEmpty then none else some (.simple line ws rs, rest)

def readBody : Nat → Tokens → Option (Script × Tokens)
  | 0, _ => none
  | n + 1, ts => do
    let ts ← expectWord "do" (skipLines ts)
    let (body, ts) ← readList n ts
    let ts ← expectWord "done" ts
    return (body, ts)

def readIf : Nat → Nat → Tokens → Option (Script × Tokens)
  | 0, _, _ => none
  | n + 1, line, ts => do
    let (test, ts) ← readList n ts
    let ts ← expectWord "then" ts
    let (yes, ts) ← readList n ts
    if isWord "elif" ts then
      let (no, ts) ← readIf n line (ts.drop 1)
      return (.choice test yes no, ts)
    else if isWord "else" ts then
      let (no, ts) ← readList n (ts.drop 1)
      let ts ← expectWord "fi" ts
      let (rs, ts) := redirections ts
      return (.grouped line (.choice test yes no) rs, ts)
    else
      let ts ← expectWord "fi" ts
      let (rs, ts) := redirections ts
      return (.grouped line (.choice test yes .nothing) rs, ts)

def readBranches : Nat → Tokens → Option (List (List Word × Script) × Tokens)
  | 0, _ => none
  | n + 1, ts =>
    if isWord "esac" ts then some ([], ts.drop 1)
    else do
      let (ps, ts) ← patterns (if isMark "(" ts then ts.drop 1 else ts)
      let (a, ts) ← readList n ts
      let ts := if isMark ";;" ts then ts.drop 1 else ts
      let (branches, ts) ← readBranches n (skipLines ts)
      return ((ps, a) :: branches, ts)

end

def read (source : String) : Option Script := do
  let cs := source.toList
  let ts ← tokens (cs.length + 1) 1 cs
  let (script, rest) ← readList (8 * ts.length + 8) ts
  if rest.isEmpty then some script else none

end Dualbank.Bench.Shell
