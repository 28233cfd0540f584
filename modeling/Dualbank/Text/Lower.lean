namespace Dualbank.Text

def lowerAscii (c : Char) : Char :=
  if 'A' ≤ c ∧ c ≤ 'Z' then Char.ofNat (c.toNat + 32) else c

/-- Lower case as far as ASCII letters come of it. Besides the letters A to Z only two characters
have an ASCII letter in their lower-case form, the capital I with dot above and the Kelvin sign.
Every other character is left as it is, which changes no comparison with an ASCII text. -/
def lowerChar (c : Char) : List Char :=
  if c = '\u0130' then ['i', '\u0307']
  else if c = '\u212a' then ['k']
  else [lowerAscii c]

def lower (s : String) : String := String.ofList (s.toList.flatMap lowerChar)

def sameIgnoringAsciiCase (s t : String) : Bool :=
  s.toList.map lowerAscii == t.toList.map lowerAscii

def containsChars (sub : List Char) : List Char → Bool
  | [] => sub.isEmpty
  | c :: cs => sub.isPrefixOf (c :: cs) || containsChars sub cs

def contains (sub s : String) : Bool := containsChars sub.toList s.toList

end Dualbank.Text
