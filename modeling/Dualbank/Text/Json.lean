namespace Dualbank.Text.Json

def isSpace (c : Char) : Bool := c = ' ' || c = '\t' || c = '\n' || c = '\r'

def skipSpace (cs : List Char) : List Char := cs.dropWhile isSpace

def hexDigit? (c : Char) : Option Nat :=
  if '0' ≤ c ∧ c ≤ '9' then some (c.toNat - 48)
  else if 'a' ≤ c ∧ c ≤ 'f' then some (c.toNat - 87)
  else if 'A' ≤ c ∧ c ≤ 'F' then some (c.toNat - 55)
  else none

def unit? (a b c d : Char) : Option Nat :=
  match hexDigit? a, hexDigit? b, hexDigit? c, hexDigit? d with
  | some a, some b, some c, some d => some (((a * 16 + b) * 16 + c) * 16 + d)
  | _, _, _, _ => none

def isHigh (n : Nat) : Bool := 0xD800 ≤ n && n < 0xDC00

def isLow (n : Nat) : Bool := 0xDC00 ≤ n && n < 0xE000

def escape? : Char → Option Char
  | '"' => some '"'
  | '\\' => some '\\'
  | '/' => some '/'
  | 'b' => some '\x08'
  | 'f' => some '\x0c'
  | 'n' => some '\n'
  | 'r' => some '\r'
  | 't' => some '\t'
  | _ => none

/-- The characters of a literal up to its closing quote, and what follows. Half of a surrogate pair
stands for no character. -/
def readLiteral? : List Char → Option (List Char × List Char)
  | [] => none
  | '"' :: cs => some ([], cs)
  | '\\' :: 'u' :: a :: b :: c :: d :: cs =>
    match unit? a b c d with
    | none => none
    | some hi =>
      if isHigh hi then
        match cs with
        | '\\' :: 'u' :: e :: f :: g :: h :: cs =>
          match unit? e f g h with
          | none => none
          | some lo =>
            if isLow lo then
              (readLiteral? cs).map fun r =>
                (Char.ofNat (0x10000 + (hi - 0xD800) * 0x400 + (lo - 0xDC00)) :: r.1, r.2)
            else none
        | _ => none
      else if isLow hi then none
      else (readLiteral? cs).map fun r => (Char.ofNat hi :: r.1, r.2)
  | '\\' :: e :: cs =>
    match escape? e with
    | none => none
    | some c => (readLiteral? cs).map fun r => (c :: r.1, r.2)
  | c :: cs =>
    if c.toNat < 0x20 || c = '\\' then none
    else (readLiteral? cs).map fun r => (c :: r.1, r.2)

def readString? (cs : List Char) : Option (String × List Char) :=
  match skipSpace cs with
  | '"' :: cs => (readLiteral? cs).map fun r => (String.ofList r.1, r.2)
  | _ => none

def eat? (token : List Char) (cs : List Char) : Option (List Char) :=
  let cs := skipSpace cs
  if token.isPrefixOf cs then some (cs.drop token.length) else none

def atEnd (cs : List Char) : Bool := (skipSpace cs).isEmpty

/-- A word: a string literal, or an object that maps it to `null` and holds nothing else. -/
def word? (s : String) : Option String :=
  match eat? ['\x7b'] s.toList with
  | none => do
    let (w, cs) ← readString? s.toList
    if atEnd cs then some w else none
  | some cs => do
    let (w, cs) ← readString? cs
    let cs ← eat? [':'] cs
    let cs ← eat? ['n', 'u', 'l', 'l'] cs
    let cs ← eat? ['\x7d'] cs
    if atEnd cs then some w else none

def digitsValue (cs : List Char) : Nat := cs.foldl (fun n c => n * 10 + (c.toNat - 48)) 0

def natural? (s : String) : Option Nat :=
  let cs := skipSpace s.toList
  let digits := cs.takeWhile Char.isDigit
  if digits.isEmpty || (digits.length > 1 && digits.head? == some '0') ||
      !atEnd (cs.drop digits.length) then none
  else some (digitsValue digits)

end Dualbank.Text.Json
