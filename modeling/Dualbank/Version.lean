import Dualbank.Text.Blank
import Dualbank.Text.Decimal
import Dualbank.Text.Json

namespace Dualbank

open Text

structure Version where
  number : Nat
  deriving DecidableEq, Repr

namespace Version

def text (v : Version) : String := toString v.number

def read (s : String) : Except NumberFault Version :=
  (readNat maxU64 (trim s).toList).map Version.mk

def ofJson? (s : String) : Option Version :=
  (Json.natural? s).bind fun n => if n ≤ maxU64 then some ⟨n⟩ else none

def newerThan (v w : Version) : Bool := w.number < v.number

end Version

end Dualbank
