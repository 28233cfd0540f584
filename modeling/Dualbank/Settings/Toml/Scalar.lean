import Dualbank.Settings.Toml.Text
import Dualbank.Settings.Value
import Dualbank.Text.Decimal

namespace Dualbank.Settings.Toml

def ungrouped? : List Char → Option (List Char)
  | [] => none
  | [c] => if c = '_' then none else some [c]
  | c :: d :: cs =>
    if c = '_' then none
    else (ungrouped? (if d = '_' then cs else d :: cs)).map (c :: ·)
termination_by cs => cs.length
decreasing_by split <;> simp only [List.length_cons] <;> omega

def digitsIn (base : Nat) (cs : List Char) : Option Nat := do
  let cs ← ungrouped? cs
  cs.foldlM (fun n c => do
    let d ← Text.Json.hexDigit? c
    if d < base then some (base * n + d) else none) 0

/-- A decimal number has no leading zero. -/
def decimal? (cs : List Char) : Option Nat :=
  if cs.head? == some '0' && cs.length ≠ 1 then none else digitsIn 10 cs

def sign : List Char → Bool × List Char
  | '-' :: cs => (true, cs)
  | '+' :: cs => (false, cs)
  | cs => (false, cs)

def withinWord (n : Int) : Option Value :=
  if -(Text.maxI64 : Int) - 1 ≤ n ∧ n ≤ Text.maxI64 then some (.int n) else none

/-- Whole numbers fit into 64 bits with a sign; a base other than ten leaves no room for one. -/
def integer? (cs : List Char) : Option Value :=
  match cs with
  | '0' :: 'x' :: ds => (digitsIn 16 ds).bind fun n => withinWord n
  | '0' :: 'o' :: ds => (digitsIn 8 ds).bind fun n => withinWord n
  | '0' :: 'b' :: ds => (digitsIn 2 ds).bind fun n => withinWord n
  | cs =>
    let (negative, ds) := sign cs
    (decimal? ds).bind fun n => withinWord (if negative then -n else n)

/-- The number from which on a decimal is no longer rounded to a finite double. -/
def floatBound : Nat := Nat.pow 2 1024 - Nat.pow 2 970

/-- Whether `m * 10 ^ e` is out of range; `digits` bounds the digits of `m`. -/
def overflows (m digits : Nat) (e : Int) : Bool :=
  m ≠ 0 && 0 < e + digits &&
    (1000 < e ||
      if 0 ≤ e then floatBound ≤ m * Nat.pow 10 e.toNat else floatBound * Nat.pow 10 (-e).toNat ≤ m)

def exponent? (cs : List Char) : Option Int :=
  let (negative, ds) := sign cs
  (digitsIn 10 ds).map fun n => if negative then -n else n

def float? (cs : List Char) : Option Value := do
  let (negative, cs) := sign cs
  if cs = "inf".toList ∨ cs = "nan".toList then return .float
  let whole := cs.takeWhile fun c => c.isDigit || c = '_'
  let n ← decimal? whole
  let rest := cs.drop whole.length
  let (fraction, rest) ← match rest with
    | '.' :: rest =>
      let ds := rest.takeWhile fun c => c.isDigit || c = '_'
      (ungrouped? ds).map (·, rest.drop ds.length)
    | rest => some ([], rest)
  let e ← match rest with
    | 'e' :: ds | 'E' :: ds => exponent? ds
    | [] => if fraction.isEmpty then none else some 0
    | _ => none
  let m := fraction.foldl (fun n c => n * 10 + (c.toNat - 48)) n
  if !negative && overflows m (whole.length + fraction.length) (e - fraction.length) then none
  else return .float

def fixed? (n : Nat) (cs : List Char) : Option (Nat × List Char) :=
  let ds := cs.take n
  if ds.length = n ∧ ds.all Char.isDigit then
    some (ds.foldl (fun m c => m * 10 + (c.toNat - 48)) 0, cs.drop n)
  else none

def isLeap (year : Nat) : Bool := year % 4 = 0 && (year % 100 ≠ 0 || year % 400 = 0)

def daysIn (year month : Nat) : Nat :=
  if month = 2 then if isLeap year then 29 else 28
  else if month = 4 || month = 6 || month = 9 || month = 11 then 30 else 31

def skipChar? (c : Char) : List Char → Option (List Char)
  | d :: cs => if d = c then some cs else none
  | [] => none

def date? (cs : List Char) : Option (List Char) := do
  let (year, cs) ← fixed? 4 cs
  let (month, cs) ← fixed? 2 (← skipChar? '-' cs)
  let (day, cs) ← fixed? 2 (← skipChar? '-' cs)
  if 1 ≤ month ∧ month ≤ 12 ∧ 1 ≤ day ∧ day ≤ daysIn year month then some cs else none

/-- The sixtieth second may be a leap second. -/
def time? (cs : List Char) : Option (List Char) := do
  let (hour, cs) ← fixed? 2 cs
  let (minute, cs) ← fixed? 2 (← skipChar? ':' cs)
  let (second, cs) ← fixed? 2 (← skipChar? ':' cs)
  if 23 < hour ∨ 59 < minute ∨ 60 < second then none
  match cs with
  | '.' :: cs =>
    if (cs.takeWhile Char.isDigit).isEmpty then none else some (cs.dropWhile Char.isDigit)
  | cs => some cs

def isOffset : List Char → Bool
  | [] | ['Z'] | ['z'] => true
  | c :: cs =>
    (c = '+' || c = '-') && ((do
      let (hour, cs) ← fixed? 2 cs
      let (minute, cs) ← fixed? 2 (← skipChar? ':' cs)
      return hour ≤ 23 && minute ≤ 59 && cs.isEmpty).getD false)

def isMoment (cs : List Char) : Bool :=
  match date? cs with
  | some [] => true
  | some (c :: cs) => (c = 'T' || c = 't' || c = ' ') && (time? cs).any isOffset
  | none => time? cs == some []

/-- A moment counts as a table with one entry, which is no setting. -/
def moment? (cs : List Char) : Option Value :=
  if isMoment cs then some (.table [("moment", .text (String.ofList cs))]) else none

def isScalarChar (c : Char) : Bool :=
  c.isAlphanum || c = '_' || c = '+' || c = '-' || c = '.' || c = ':'

/-- The characters of a scalar. A date may go on with a time after one space. -/
def run (cs : List Char) : List Char :=
  let first := cs.takeWhile isScalarChar
  match date? first, cs.drop first.length with
  | some [], ' ' :: rest =>
    if rest.head?.any Char.isDigit then first ++ ' ' :: rest.takeWhile isScalarChar else first
  | _, _ => first

def scalar? (cs : List Char) : Option (Value × List Char) :=
  let token := run cs
  let value? :=
    if token = "true".toList then some (.bool true)
    else if token = "false".toList then some (.bool false)
    else moment? token <|> float? token <|> integer? token
  value?.map (·, cs.drop token.length)

end Dualbank.Settings.Toml
