namespace Dualbank.Bench.Shell.Arithmetic

def wrap (n : Int) : Int := n.bmod (Nat.pow 2 64)

inductive Fault
  | malformed
  | divisionByZero
  deriving DecidableEq, Repr

def ofBool (b : Bool) : Int := if b then 1 else 0

def levels : List (List String) :=
  [["||"], ["&&"], ["|"], ["^"], ["&"], ["==", "!="], ["<=", ">=", "<", ">"], ["+", "-"],
    ["*", "/", "%"]]

def nonzero (b : Int) (n : Int) : Except Fault Int :=
  if b = 0 then .error .divisionByZero else .ok (wrap n)

def bitwise (f : Nat → Nat → Nat) (a b : Int) : Int :=
  let bits (n : Int) : Nat := (n.emod (Nat.pow 2 64)).toNat
  wrap (f (bits a) (bits b))

def apply (op : String) (a b : Int) : Except Fault Int :=
  match op with
  | "||" => .ok (ofBool (a ≠ 0 || b ≠ 0))
  | "&&" => .ok (ofBool (a ≠ 0 && b ≠ 0))
  | "|" => .ok (bitwise (· ||| ·) a b)
  | "^" => .ok (bitwise (· ^^^ ·) a b)
  | "&" => .ok (bitwise (· &&& ·) a b)
  | "==" => .ok (ofBool (a = b))
  | "!=" => .ok (ofBool (a ≠ b))
  | "<=" => .ok (ofBool (a ≤ b))
  | ">=" => .ok (ofBool (a ≥ b))
  | "<" => .ok (ofBool (a < b))
  | ">" => .ok (ofBool (a > b))
  | "+" => .ok (wrap (a + b))
  | "-" => .ok (wrap (a - b))
  | "*" => .ok (wrap (a * b))
  | "/" => nonzero b (a.tdiv b)
  | "%" => nonzero b (a.tmod b)
  | _ => .error .malformed

def isBlank (c : Char) : Bool := c = ' ' || c = '\t' || c = '\n'

def skip (cs : List Char) : List Char := cs.dropWhile isBlank

def decimal (cs : List Char) : Int := cs.foldl (fun n c => 10 * n + (c.toNat - 48)) 0

/-- The operator of a level at the start of a text; one that starts a longer operator of another
level does not count. -/
def operator? (ops : List String) (cs : List Char) : Option String :=
  let all := levels.flatten
  match all.filter fun op => op.toList.isPrefixOf cs with
  | [] => none
  | found =>
    let longest := found.foldl (fun a b => if a.length < b.length then b else a) ""
    if ops.contains longest then some longest else none

mutual

def binary (value : String → Int) : Nat → List (List String) → List Char →
    Except Fault (Int × List Char)
  | 0, _, _ => .error .malformed
  | n + 1, [], cs => unary value n cs
  | n + 1, ops :: rest, cs => do
    let (a, cs) ← binary value n rest cs
    more value n ops rest a cs

def more (value : String → Int) : Nat → List String → List (List String) → Int → List Char →
    Except Fault (Int × List Char)
  | 0, _, _, _, _ => .error .malformed
  | n + 1, ops, rest, a, cs =>
    match operator? ops (skip cs) with
    | none => .ok (a, skip cs)
    | some op => do
      let (b, cs) ← binary value n rest ((skip cs).drop op.length)
      more value n ops rest (← apply op a b) cs

def unary (value : String → Int) : Nat → List Char → Except Fault (Int × List Char)
  | 0, _ => .error .malformed
  | n + 1, cs =>
    match skip cs with
    | '-' :: cs => do
      let (a, cs) ← unary value n cs
      return (wrap (-a), cs)
    | '+' :: cs => unary value n cs
    | '!' :: cs => do
      let (a, cs) ← unary value n cs
      return (ofBool (a = 0), cs)
    | '(' :: cs => do
      match ← binary value n levels cs with
      | (a, ')' :: cs) => return (a, cs)
      | _ => throw .malformed
    | cs =>
      let word := cs.takeWhile fun c => c.isAlphanum || c = '_'
      match word with
      | [] => .error .malformed
      | c :: _ =>
        let rest := cs.drop word.length
        if c.isDigit then
          if word.all Char.isDigit then .ok (wrap (decimal word), rest) else .error .malformed
        else .ok (value (String.ofList word), rest)

end

def compute (value : String → Int) (source : String) : Except Fault Int := do
  let cs := source.toList
  if (skip cs).isEmpty then return 0
  let (a, rest) ← binary value (24 * cs.length + 24) levels cs
  if (skip rest).isEmpty then return a else throw .malformed

end Dualbank.Bench.Shell.Arithmetic
