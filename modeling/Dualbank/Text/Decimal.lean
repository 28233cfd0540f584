namespace Dualbank.Text

inductive NumberFault
  | empty
  | invalidDigit
  | tooLarge
  | tooSmall
  deriving DecidableEq, Repr

namespace NumberFault

def message : NumberFault → String
  | empty => "cannot parse integer from empty string"
  | invalidDigit => "invalid digit found in string"
  | tooLarge => "number too large to fit in target type"
  | tooSmall => "number too small to fit in target type"

end NumberFault

def digit? (c : Char) : Option Nat :=
  if '0' ≤ c ∧ c ≤ '9' then some (c.toNat - 48) else none

/-- Continues a value with further digits. The first fault from the left decides: a character that
is no digit, or a value above `bound`. -/
def readDigits (bound : Nat) (fault : NumberFault) : Nat → List Char → Except NumberFault Nat
  | v, [] => .ok v
  | v, c :: cs =>
    match digit? c with
    | none => .error .invalidDigit
    | some d =>
      if v * 10 + d ≤ bound then readDigits bound fault (v * 10 + d) cs else .error fault

/-- A number without a minus sign. A sign alone has no digit to read. -/
def readNat (bound : Nat) : List Char → Except NumberFault Nat
  | [] => .error .empty
  | ['+'] => .error .invalidDigit
  | '+' :: cs => readDigits bound .tooLarge 0 cs
  | cs => readDigits bound .tooLarge 0 cs

def readInt (low high : Nat) : List Char → Except NumberFault Int
  | ['-'] => .error .invalidDigit
  | '-' :: cs => (readDigits low .tooSmall 0 cs).map fun n => -(n : Int)
  | cs => (readNat high cs).map Int.ofNat

def maxU8 : Nat := 0xFF
def maxU32 : Nat := 0xFFFFFFFF
def maxU64 : Nat := 0xFFFFFFFFFFFFFFFF

def maxI64 : Nat := 0x7FFFFFFFFFFFFFFF

end Dualbank.Text
