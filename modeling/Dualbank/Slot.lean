import Dualbank.Text.Blank
import Dualbank.Text.Lower

namespace Dualbank

inductive Slot
  | a
  | b
  deriving DecidableEq, Repr

namespace Slot

def text : Slot → String
  | a => "A"
  | b => "B"

def ofText? (s : String) : Option Slot :=
  match Text.lower (Text.trim s) with
  | "a" | "0" => some a
  | "b" | "1" => some b
  | _ => none

end Slot

end Dualbank
