import Dualbank.Settings.Toml.Text
import Dualbank.Settings.Value
import Dualbank.Text.Blank
import Dualbank.Text.Decimal
import Dualbank.Text.Lower

namespace Dualbank.Settings.Variables

open Toml (isBare basic?)

def isSpace (c : Char) : Bool :=
  c = ' ' || c = '\t' || c = '\n' || c = '\x0c' || c = '\r'

def skipSpace (cs : List Char) : List Char := cs.dropWhile isSpace

def isSeparator (c : Char) : Bool :=
  c = ',' || c = '[' || c = ']' || c = '\x7b' || c = '\x7d'

def isPoint (cs : List Char) : Bool :=
  let whole := cs.takeWhile Char.isDigit
  match cs.drop whole.length with
  | '.' :: fraction => fraction.all Char.isDigit && !(whole.isEmpty && fraction.isEmpty)
  | _ => false

def isFloat (cs : List Char) : Bool :=
  let unsigned : List Char → List Char
    | '+' :: cs | '-' :: cs => cs
    | cs => cs
  let isExponentMark (c : Char) := c = 'e' || c = 'E'
  let cs := unsigned cs
  isPoint (cs.takeWhile (!isExponentMark ·)) &&
    match cs.dropWhile (!isExponentMark ·) with
    | [] => true
    | _ :: e => !(unsigned e).isEmpty && (unsigned e).all Char.isDigit

def plain (cs : List Char) : Value :=
  if isFloat cs then .float
  else
    match Text.readNat Text.maxU64 cs, Text.readInt (Text.maxI64 + 1) Text.maxI64 cs with
    | .ok n, _ => .int n
    | _, .ok n => .int n
    | _, _ => .text (String.ofList cs)

def key? (cs : List Char) : Option (String × List Char) :=
  match cs with
  | '"' :: cs => (basic? (cs.length + 1) cs).map fun r => (String.ofList r.1, r.2)
  | cs =>
    let key := cs.takeWhile isBare
    if key.isEmpty then none else some (String.ofList key, cs.drop key.length)

def truth? (cs : List Char) : Option (Bool × List Char) :=
  let word (w : String) (b : Bool) :=
    if w.toList.isPrefixOf cs then some (b, cs.drop w.length) else none
  word "true" true <|> word "false" false

mutual

def value? : Nat → List Char → Option (Value × List Char)
  | 0, _ => none
  | n + 1, cs =>
    let cs := skipSpace cs
    let found : Option (Value × List Char) :=
      match truth? cs with
      | some (b, cs) => some (.bool b, cs)
      | none =>
        match cs with
        | '\x7b' :: cs => (pairs? n [] cs).map fun r => (.table r.1, r.2)
        | '[' :: cs => (values? n cs).map fun r => (.list r.1, r.2)
        | '"' :: cs =>
          (basic? (cs.length + 1) cs).map fun r => (.text (String.ofList r.1), r.2)
        | '\'' :: c :: '\'' :: cs => some (.text (String.ofList [c]), cs)
        | '\'' :: _ => none
        | cs =>
          let word := cs.takeWhile (!isSeparator ·)
          some (plain (Text.trimEndChars (Text.trimStartChars word)), cs.drop word.length)
    found.map fun r => (r.1, skipSpace r.2)

def values? : Nat → List Char → Option (List Value × List Char)
  | 0, _ => none
  | _ + 1, ']' :: cs => some ([], cs)
  | n + 1, cs => do
    let (v, cs) ← value? n cs
    match cs with
    | ',' :: cs =>
      let (vs, cs) ← values? n cs
      return (v :: vs, cs)
    | ']' :: cs => return ([v], cs)
    | _ => none

def pairs? : Nat → Entries → List Char → Option (Entries × List Char)
  | 0, _, _ => none
  | _ + 1, es, '\x7d' :: cs => some (es, cs)
  | n + 1, es, cs => do
    let (k, cs) ← key? (skipSpace cs)
    match skipSpace cs with
    | '=' :: cs =>
      let (v, cs) ← value? n cs
      let es := Value.put k v es
      match cs with
      | ',' :: cs => pairs? n es cs
      | '\x7d' :: cs => return (es, cs)
      | _ => none
    | _ => none

end

/-- The value that a text stands for; one that does not parse as a whole stands for itself. -/
def read (s : String) : Value :=
  match value? (2 * s.length + 2) s.toList with
  | some (v, []) => v
  | _ => .text s

def dotted : List Char → List Char
  | '_' :: '_' :: cs => '.' :: dotted cs
  | c :: cs => c :: dotted cs
  | [] => []

def parts (cs : List Char) : List (List Char) := (dotted cs).splitOn '.'

/-- What follows the prefix, which counts in either case. -/
def afterPrefix? (start name : String) : Option (List Char) :=
  let cs := (Text.trim name).toList
  if (start.toList.map Text.lowerAscii).isPrefixOf (cs.map Text.lowerAscii) then
    some (cs.drop start.length)
  else none

/-- The path of a setting; a name with an empty part is none. -/
def path? (start name : String) : Option (List String) := do
  let cs ← afterPrefix? start name
  let ps := parts (Text.trimEndChars (Text.trimStartChars cs))
  if ps.contains [] then none else some (ps.map fun p => String.ofList (p.map Text.lowerAscii))

/-- The settings of an environment, later variables on top of earlier ones. -/
def layer (start : String) (env : List (String × String)) : Value :=
  env.foldl (fun v (name, text) =>
    match path? start name with
    | some path => v.merge ((read text).nest path)
    | none => v) (.table [])

end Dualbank.Settings.Variables
