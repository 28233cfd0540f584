import Dualbank.Target
import Dualbank.Text.Decimal

namespace Dualbank

open Text

inductive Phase
  | idle
  /-- An update was written and waits for a reboot and its commit. -/
  | written (target : Target)
  /-- The engine refused an image. -/
  | failed (image : Image)
  /-- The device came back from the reboot without the new firmware. -/
  | bootFailed
  /-- The other bank was selected and waits for a reboot. -/
  | switched (target : Target)
  /-- The device runs from the other bank and waits for the commit. -/
  | reverted (target : Target)
  deriving DecidableEq, Repr

namespace Phase

/-- No failure is recorded for both images: the firmware part dominates. -/
def ofFailure : Target → Phase
  | .only i => failed i
  | .both => failed .firmware

def target? : Phase → Option Target
  | idle => none
  | written t | switched t | reverted t => some t
  | failed i => some (.only i)
  | bootFailed => some .firmware

def includesFirmware (p : Phase) : Bool := p.target?.any Target.includesFirmware

def isIdle : Phase → Bool
  | idle => true
  | _ => false

def isWritten : Phase → Bool
  | written _ => true
  | _ => false

def isFailed : Phase → Bool
  | failed _ | bootFailed => true
  | _ => false

def isSwitched : Phase → Bool
  | switched _ => true
  | _ => false

def isReverted : Phase → Bool
  | reverted _ => true
  | _ => false

def text : Phase → String
  | idle => "No update pending"
  | written .firmware => "Incomplete firmware update"
  | written .application => "Incomplete application update"
  | written .both => "Incomplete application and firmware update"
  | failed .firmware => "Firmware update failed"
  | failed .application => "Application update failed"
  | bootFailed => "Firmware reboot update failed"
  | switched .firmware => "Firmware rollback reboot pending"
  | switched .application => "Application rollback reboot pending"
  | switched .both => "Application and firmware rollback reboot pending"
  | reverted .firmware => "Incomplete firmware rollback"
  | reverted .application => "Incomplete application rollback"
  | reverted .both => "Incomplete application and firmware rollback"

def number : Phase → Nat
  | idle => 0
  | written .firmware => 1
  | written .application => 2
  | written .both => 3
  | failed .firmware => 4
  | failed .application => 5
  | bootFailed => 6
  | switched .firmware => 7
  | switched .application => 8
  | switched .both => 9
  | reverted .firmware => 10
  | reverted .application => 11
  | reverted .both => 12

def all : List Phase :=
  [idle, written .firmware, written .application, written .both, failed .firmware,
    failed .application, bootFailed, switched .firmware, switched .application, switched .both,
    reverted .firmware, reverted .application, reverted .both]

def ofNumber? (n : Nat) : Option Phase := all.find? (·.number = n)

def encode (p : Phase) : String := toString p.number

/-- Reads a stored phase, white space around it aside. -/
def decode? (s : String) : Option Phase :=
  match readNat maxU8 (trim s).toList with
  | .ok n => ofNumber? n
  | .error _ => none

theorem isIdle_iff {p : Phase} : p.isIdle ↔ p = idle := by
  cases p <;> simp [isIdle]

theorem mem_all (p : Phase) : p ∈ all := by
  rcases p with _ | ((_ | _) | _) | (_ | _) | _ | ((_ | _) | _) | ((_ | _) | _) <;> decide

theorem ofNumber?_number (p : Phase) : ofNumber? p.number = some p := by
  have h : ∀ q ∈ all, ofNumber? q.number = some q := by decide
  exact h p (mem_all p)

end Phase

end Dualbank
