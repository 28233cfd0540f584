import Dualbank.Text.Utf8

namespace Dualbank.Bench.Shell.Quoted

def quote : UInt8 := 39

def backslash : UInt8 := 92

def escapeLetters : List (UInt8 × UInt8) :=
  [(7, 97), (8, 98), (9, 116), (10, 110), (11, 118), (12, 102), (13, 114)]

def isPrintable (b : UInt8) : Bool := 32 ≤ b && b < 127

def octal (b : UInt8) : Bytes := [48 + b / 64, 48 + b / 8 % 8, 48 + b % 8]

def escape (b : UInt8) : Bytes :=
  backslash :: match escapeLetters.lookup b with
    | some letter => [letter]
    | none => octal b

/-- The inside of a quotation; the flag tells whether the last quotation is one of escapes. -/
def inside : Bool → Bytes → Bytes
  | _, [] => []
  | escaping, b :: bs =>
    if b = quote then [quote, backslash, quote, quote] ++ inside false bs
    else if isPrintable b then
      (if escaping then [quote, quote, b] else [b]) ++ inside false bs
    else (if escaping then [] else [quote, 36, quote]) ++ escape b ++ inside true bs

def isTame (first : Bool) (b : UInt8) : Bool :=
  let c := Char.ofNat b.toNat
  c.isAlphanum || "%+,-./:]_@ '".toList.contains c || (first && (c = '#' || c = '~'))

/-- Between double quotes if there is an apostrophe and nothing else of note, otherwise between
single quotes. -/
def always (bs : Bytes) : Bytes :=
  let tame := match bs with
    | [] => true
    | b :: rest => isTame true b && rest.all (isTame false)
  if bs.contains quote && tame then 34 :: bs ++ [34] else quote :: inside false bs ++ [quote]

def isPlain (b : UInt8) : Bool :=
  let c := Char.ofNat b.toNat
  c.isAlphanum || "%+,-./]_@\x7b\x7d#~".toList.contains c

/-- Quotes only where a shell would otherwise read something else. -/
def ifNeeded (bs : Bytes) : Bytes :=
  let plain := bs.all isPlain && !bs.isEmpty && bs.head? ≠ some 35 && bs.head? ≠ some 126 &&
    bs ≠ [123] && bs ≠ [125]
  if plain then bs else always bs

end Dualbank.Bench.Shell.Quoted
