import Dualbank.Device.BootEnv

namespace Dualbank

abbrev DevicePlan := ExceptT Error SysPlan

/-- Beside the phase, the record keeps the id of the boot in which it was written, which tells
whether the device rebooted since. A slot is bad if its counter of boot attempts is 0. -/
structure Record where
  env : BootEnv
  bootIdPath : String
  deriving DecidableEq, Repr

namespace Record

def phaseVariable : String := "update_reboot_state"

def bootIdVariable : String := "update_boot_id"

def slotBad : String := "0"

def inEnv {α : Type} (p : BootEnvPlan α) : DevicePlan α := p.adapt Error.bootEnv

def currentBootId (r : Record) : DevicePlan String := do
  match ← ExceptT.lift (SysPlan.ask (.readText r.bootIdPath)) with
  | .ok s => return Text.trim s
  | .error e => throw (.io (.readingBootId r.bootIdPath) e)

def readPhase (r : Record) : DevicePlan Phase := do
  match ← inEnv (r.env.read phaseVariable) with
  | some s => MonadExcept.ofExcept (Phase.read s)
  | none => return .idle

/-- The boot id goes first: a phase beside the id of an older boot would count as rebooted at
once. -/
def writePhase (r : Record) (p : Phase) : DevicePlan Unit := do
  let id ← r.currentBootId
  inEnv (r.env.write bootIdVariable id)
  inEnv (r.env.write phaseVariable p.encode)

/-- Without a recorded boot the device counts as rebooted. -/
def isRebooted (r : Record) : DevicePlan Bool := do
  match ← inEnv (r.env.read bootIdVariable) with
  | none => return true
  | some recorded => return Text.trim recorded != (← r.currentBootId)

def slotVariable (s : Slot) : Target → Except Error String
  | .firmware => .ok s!"BOOT_{s.text}_LEFT"
  | .application => .ok s!"APP_{s.text}_LEFT"
  | .both => .error (.invalidParameter .slotOfBoth)

def markBad (r : Record) (t : Target) (s : Slot) : DevicePlan Unit := do
  let name ← MonadExcept.ofExcept (slotVariable s t)
  inEnv (r.env.write name slotBad)

def isBad (r : Record) (t : Target) (s : Slot) : DevicePlan Bool := do
  let name ← MonadExcept.ofExcept (slotVariable s t)
  return (← inEnv (r.env.read name)).any fun v => Text.trim v = slotBad

end Record

end Dualbank
