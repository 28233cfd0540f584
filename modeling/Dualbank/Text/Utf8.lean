namespace Dualbank

abbrev Bytes := List UInt8

namespace Text

def encode (s : String) : Bytes := s.toList.flatMap String.utf8EncodeChar

def between (lo hi b : UInt8) : Bool := lo ≤ b && b ≤ hi

def isContinuation (b : UInt8) : Bool := between 0x80 0xBF b

/-- The range of the second byte after a first byte; narrower where a longer form than needed,
half of a surrogate pair or a number that is too large would start. -/
def isSecond (first second : UInt8) : Bool :=
  if first = 0xE0 then between 0xA0 0xBF second
  else if first = 0xED then between 0x80 0x9F second
  else if first = 0xF0 then between 0x90 0xBF second
  else if first = 0xF4 then between 0x80 0x8F second
  else isContinuation second

def bits (b : UInt8) (mask : UInt8) : Nat := (b &&& mask).toNat

/-- The character that starts with a byte, or `none` for an ill-formed piece, and how many of the
bytes after it belong to it. -/
def first (b : UInt8) (bs : Bytes) : Option Char × Nat :=
  if b < 0x80 then (some (Char.ofNat b.toNat), 0)
  else if between 0xC2 0xF4 b then
    match bs with
    | [] => (none, 0)
    | b1 :: bs =>
      if !isSecond b b1 then (none, 0)
      else if b < 0xE0 then (some (Char.ofNat (bits b 0x1F * 64 + bits b1 0x3F)), 1)
      else
        match bs with
        | [] => (none, 1)
        | b2 :: bs =>
          if !isContinuation b2 then (none, 1)
          else if b < 0xF0 then
            (some (Char.ofNat ((bits b 0x0F * 64 + bits b1 0x3F) * 64 + bits b2 0x3F)), 2)
          else
            match bs with
            | [] => (none, 2)
            | b3 :: _ =>
              if !isContinuation b3 then (none, 2)
              else
                (some (Char.ofNat
                  (((bits b 0x07 * 64 + bits b1 0x3F) * 64 + bits b2 0x3F) * 64 + bits b3 0x3F)), 3)
  else (none, 0)

def split : Bytes → List (Option Char)
  | [] => []
  | b :: bs => (first b bs).1 :: split (bs.drop (first b bs).2)
termination_by bs => bs.length
decreasing_by simp only [List.length_drop, List.length_cons]; omega

def decode? (bs : Bytes) : Option String :=
  ((split bs).mapM id).map String.ofList

def decodeLossy (bs : Bytes) : String := String.ofList ((split bs).map (·.getD '\ufffd'))

end Text

end Dualbank
