import Dualbank.Text.Json

namespace Dualbank.Settings.Toml

def isSpace (c : Char) : Bool := c = ' ' || c = '\t'

def skipSpace (cs : List Char) : List Char := cs.dropWhile isSpace

/-- Every character but the control characters of ASCII; the tab is none of them here. -/
def isPrintable (c : Char) : Bool := c = '\t' || (' ' ≤ c && c ≠ '\x7f')

def newline? : List Char → Option (List Char)
  | '\n' :: cs => some cs
  | '\r' :: '\n' :: cs => some cs
  | _ => none

def skipLines : List Char → List Char
  | '\r' :: '\n' :: cs => skipLines cs
  | c :: cs => if isSpace c || c = '\n' then skipLines cs else c :: cs
  | [] => []

/-- What follows the end of the line, before which a comment may stand. -/
def endLine? (cs : List Char) : Option (List Char) :=
  let cs := skipSpace cs
  let cs := if cs.head? == some '#' then cs.dropWhile isPrintable else cs
  if cs.isEmpty then some [] else newline? cs

def hexValue? (cs : List Char) : Option Nat :=
  cs.foldlM (fun n c => (Text.Json.hexDigit? c).map (16 * n + ·)) 0

def code? (n : Nat) (cs : List Char) : Option (Char × List Char) := do
  let v ← hexValue? (cs.take n)
  if n ≤ cs.length ∧ v.isValidChar then some (Char.ofNat v, cs.drop n) else none

def escape? : List Char → Option (Char × List Char)
  | 'u' :: cs => code? 4 cs
  | 'U' :: cs => code? 8 cs
  | '/' :: _ | [] => none
  | c :: cs => (Text.Json.escape? c).map (·, cs)

def basic? : Nat → List Char → Option (List Char × List Char)
  | 0, _ | _ + 1, [] => none
  | n + 1, c :: cs =>
    if c = '"' then some ([], cs)
    else if c = '\\' then do
      let (e, cs) ← escape? cs
      let (text, cs) ← basic? n cs
      return (e :: text, cs)
    else if isPrintable c then (basic? n cs).map fun r => (c :: r.1, r.2)
    else none

def literal? (cs : List Char) : Option (List Char × List Char) :=
  let text := cs.takeWhile fun c => c ≠ '\'' && isPrintable c
  match cs.drop text.length with
  | '\'' :: cs => some (text, cs)
  | _ => none

/-- The quotes at the front: either they are text, or they close the string, and then up to two
quotes before the last three are text. -/
def quotes (q : Char) (cs : List Char) : List Char × Bool × List Char :=
  let n := (cs.takeWhile (· = q)).length
  let kept := if n < 3 then n else min (n - 3) 2
  (List.replicate kept q, 3 ≤ n, cs.drop (if n < 3 then n else kept + 3))

/-- The text up to three closing quotes, over several lines. Only in double quotes a backslash
escapes; at the end of a line it takes away the white space up to the next text. -/
def long? (q : Char) : Nat → List Char → Option (List Char × List Char)
  | 0, _ | _ + 1, [] => none
  | n + 1, c :: cs =>
    let more (text : List Char) (cs : List Char) := (long? q n cs).map fun r => (text ++ r.1, r.2)
    if c = q then
      match quotes q (c :: cs) with
      | (text, true, cs) => some (text, cs)
      | (text, false, cs) => more text cs
    else if c = '\\' && q = '"' then
      match newline? (skipSpace cs) with
      | some cs => more [] (skipLines cs)
      | none => do
        let (e, cs) ← escape? cs
        more [e] cs
    else
      match newline? (c :: cs) with
      | some cs => more ['\n'] cs
      | none => if isPrintable c then more [c] cs else none

/-- A line end right after the opening quotes is not text. -/
def afterOpening (cs : List Char) : List Char := (newline? cs).getD cs

def string? (cs : List Char) : Option (String × List Char) := do
  let n := cs.length + 1
  let (text, cs) ← match cs with
    | '"' :: '"' :: '"' :: cs => long? '"' n (afterOpening cs)
    | '\'' :: '\'' :: '\'' :: cs => long? '\'' n (afterOpening cs)
    | '"' :: cs => basic? n cs
    | '\'' :: cs => literal? cs
    | _ => none
  return (String.ofList text, cs)

def isBare (c : Char) : Bool := c.isAlphanum || c = '-' || c = '_'

def simpleKey? (cs : List Char) : Option (String × List Char) :=
  match cs with
  | '"' :: cs => (basic? (cs.length + 1) cs).map fun r => (String.ofList r.1, r.2)
  | '\'' :: cs => (literal? cs).map fun r => (String.ofList r.1, r.2)
  | cs =>
    let key := cs.takeWhile isBare
    if key.isEmpty then none else some (String.ofList key, cs.drop key.length)

def keyParts? : Nat → List Char → Option (List String × List Char)
  | 0, _ => none
  | n + 1, cs => do
    let (k, cs) ← simpleKey? (skipSpace cs)
    match skipSpace cs with
    | '.' :: cs =>
      let (ks, cs) ← keyParts? n cs
      return (k :: ks, cs)
    | cs => return ([k], cs)

/-- Keys and nested values have fewer levels than this. -/
def levels : Nat := 80

def key? (cs : List Char) : Option (List String × List Char) := keyParts? (levels - 1) cs

end Dualbank.Settings.Toml
