import Dualbank.Device.Engine
import Dualbank.Device.Files

namespace Dualbank

structure Device where
  record : Record
  firmware : EngineCommands
  application : EngineCommands
  rebootCommand : List String
  workDir : WorkDir
  pollInterval : Nat
  deriving DecidableEq, Repr

namespace Device

/-- The commands for a target; those for the firmware stand for both. -/
def commands (d : Device) : Target → EngineCommands
  | .application => d.application
  | .firmware | .both => d.firmware

def answer (d : Device) : (q : Call) → SysPlan q.Answer
  | .readPhase => d.record.readPhase.run
  | .writePhase p => (d.record.writePhase p).run
  | .isRebooted _ => d.record.isRebooted.run
  | .markBad t s => (d.record.markBad t s).run
  | .isBad t s => (d.record.isBad t s).run
  | .install i p => (EngineCommands.run (.only i) (d.commands (.only i)).install [p.path]).run
  | .switch i => (EngineCommands.run (.only i) (d.commands (.only i)).rollback []).run
  | .installedVersion t => ((d.commands t).installedVersion t).run
  | .reboot => rebootBy d.rebootCommand
  | .has m => d.workDir.answerHas m
  | .create m => d.workDir.answerCreate m
  | .remove e => d.workDir.answerRemove e
  | .read f => d.workDir.answerRead f
  | .inspect path => SysPlan.ask (.inspect path)
  | .pause => SysPlan.ask (.pause d.pollInterval)
  | .print stream line => SysPlan.ask (.print stream line)
  | .log message => SysPlan.ask (.log .error message)

def perform {α : Type} (d : Device) (p : Plan Call.Answer α) : SysPlan α := p.run d.answer

end Device

end Dualbank
