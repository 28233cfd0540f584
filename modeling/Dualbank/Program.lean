import Dualbank.CommandLine.Run
import Dualbank.Device.Answer
import Dualbank.Device.Console
import Dualbank.Settings.Layers

namespace Dualbank.Program

open SysPlan

def name : String := "update-ctrl"

def version : String := "0.1.0"

def settingStart : String := "UPDATE_CTRL_"

def configVariable : String := settingStart ++ "CONFIG"

def defaultConfig : String := "/etc/update_ctrl.conf"

def usageCode : Nat := 2

/-- The value of a variable whose name counts in either case. -/
def valueOf? (variableName : String) (env : List (String × String)) : Option String :=
  (env.find? fun v => Text.sameIgnoringAsciiCase (Text.trim v.1) variableName).map
    fun v => Text.trim v.2

def configPath (given : Option String) (env : List (String × String)) : String :=
  (given <|> valueOf? configVariable env).getD defaultConfig

/-- Where a settings file may be: a relative path is looked up from the directory upwards. -/
def places (directory path : String) : List String :=
  if Path.isAbsolute path then [path] else (Path.upwards directory).map (Path.join · path)

def settingsFile : List String → SysPlan SettingsFile
  | [] => return .absent
  | p :: ps => do
    match ← ask (.inspect p) with
    | .ok (.regular _) =>
      match ← ask (.readText p) with
      | .ok s => return .contents s
      | .error _ => return .unreadable
    | _ => settingsFile ps

def settings (i : CommandLine.Invocation) (env : List (String × String)) :
    SysPlan (Except SettingsError Settings) := do
  let directory := (← ask .workingDirectory).toOption.getD "/"
  let file ← settingsFile (places directory (configPath i.config env))
  return Settings.get i.workDir file settingStart env

def deviceOf (s : Settings) : Device where
  record := ⟨s.env, s.bootIdPath⟩
  firmware := s.firmware
  application := s.application
  rebootCommand := s.rebootCommand
  workDir := ⟨s.workDir⟩
  pollInterval := s.pollInterval

/-- Opens the console for an unattended update, which goes on without one if need be. -/
def openConsole (s : Settings) (c : CommandLine.Command) : SysPlan Unit := do
  if c.isAutomatic then
    match ← (Console.openFrom s.env).run with
    | .ok () => ask .copyLog
    | .error e => ask (.log .warning s!"serial console not available: {e.message}")

def giveUp (message : String) (cause? : Option String) : SysPlan Nat := do
  ask (.log .fatal ("\n".intercalate (message :: cause?.toList)))
  return (ExitStatus.code .unhandled).process

def runCommand (s : Settings) (c : CommandLine.Command) : SysPlan Nat := do
  match ← (deviceOf s).perform (c.run ⟨s.workDir⟩ s.pollAttempts).run with
  | .ok status => return status.process
  | .error a => giveUp a.message (a.cause?.map (·.message))

def usage : String :=
  s!"Usage: {name} [--config <CONFIG>] [--work-dir <WORK_DIR>] [--debug] <COMMAND>\n\nCommands: " ++
    ", ".intercalate (CommandLine.Verb.all.map (·.name))

def stop : CommandLine.Stop → SysPlan Nat
  | .version => do
    ask (.print .stdout s!"{name} {version}")
    return 0
  | .help => do
    ask (.print .stdout usage)
    return 0
  | _ => do
    ask (.print .stderr usage)
    return usageCode

/-- Settings come before everything else that a command does, because unattended updates also talk
to the console that they name. -/
def run (env : List (String × String)) (args : List String) : SysPlan Nat := do
  match CommandLine.read env args with
  | .error e => stop e
  | .ok i =>
    match ← settings i env with
    | .error _ => giveUp "failed reading settings" none
    | .ok s =>
      openConsole s i.command
      runCommand s i.command

end Dualbank.Program
