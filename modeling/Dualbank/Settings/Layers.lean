import Dualbank.Settings.Basic
import Dualbank.Settings.Toml.Document
import Dualbank.Settings.Variables

namespace Dualbank

inductive SettingsFile
  | absent
  | unreadable
  | contents (s : String)
  deriving DecidableEq, Repr

inductive SettingsError
  | malformed
  | entry (path : List String) (fault : Settings.Fault)
  deriving DecidableEq, Repr

namespace Settings

def fileLayer : SettingsFile → Except SettingsError Value
  | .absent => .ok (.table [])
  | .unreadable => .error .malformed
  | .contents s =>
    match Toml.read? s with
    | some v => .ok v
    | none => .error .malformed

def argumentLayer (workDir : Option String) : Value :=
  .table (match workDir with
    | some d => [("work_dir", .text d)]
    | none => [])

def ofLayers (layers : List Value) : Except SettingsError Settings :=
  (ofValue (layers.foldl Value.merge defaults.toValue)).mapError fun e => .entry e.1 e.2

def get (workDir : Option String) (file : SettingsFile) (start : String)
    (env : List (String × String)) : Except SettingsError Settings := do
  let fromFile ← fileLayer file
  ofLayers [fromFile, Variables.layer start env, argumentLayer workDir]

end Settings

end Dualbank
