import Dualbank.Target
import Dualbank.Version

namespace Dualbank.CommandLine

inductive Stop
  | invalidValue
  | valueValidation
  | tooManyValues
  | unknownArgument
  | argumentConflict
  | missingArgument
  | invalidSubcommand
  | missingSubcommand
  | help
  | helpForMissing
  | version
  deriving DecidableEq, Repr

inductive Value
  | text (s : String)
  | path (s : String)
  | target (t : Target)
  | version (v : Version)
  deriving DecidableEq, Repr

inductive ValueKind
  | text
  | path
  | target
  | version
  deriving DecidableEq, Repr

namespace ValueKind

def read (s : String) : ValueKind → Except Stop Value
  | text => .ok (.text s)
  | path => if s.isEmpty then .error .invalidValue else .ok (.path s)
  | target =>
    match Target.ofArgument? false s with
    | some t => .ok (.target t)
    | none => .error .invalidValue
  | version =>
    match Version.read s with
    | .ok v => .ok (.version v)
    | .error _ => .error .valueValidation

end ValueKind

inductive Param
  | config
  | workDir
  | debug
  | help
  | version
  | firmware
  | application
  | target
  | slot
  | updateStick
  | firmwareFile
  | firmwareVersion
  | applicationFile
  | applicationVersion
  deriving DecidableEq, Repr

inductive Effect
  | value (k : ValueKind)
  | flag
  | showHelp
  | showVersion
  deriving DecidableEq, Repr

structure Opt where
  param : Param
  long : String
  short : Option Char
  effect : Effect
  envName? : Option String

inductive Verb
  | update
  | commit
  | rollback
  | switchSlot
  | state
  | automatic
  | versions
  | available
  | download
  | progress
  | install
  | apply
  | markBad
  | isBad
  | help
  deriving DecidableEq, Repr

namespace Verb

def all : List Verb :=
  [update, commit, rollback, switchSlot, state, automatic, versions, available, download, progress,
    install, apply, markBad, isBad, help]

def name : Verb → String
  | update => "update"
  | commit => "commit"
  | rollback => "rollback"
  | switchSlot => "switch-slot"
  | state => "state"
  | automatic => "automatic"
  | versions => "versions"
  | available => "available"
  | download => "download"
  | progress => "progress"
  | install => "install"
  | apply => "apply"
  | markBad => "mark-bad"
  | isBad => "is-bad"
  | help => "help"

def short? : Verb → Option Char
  | update => some 'u'
  | commit => some 'c'
  | rollback => some 'r'
  | state => some 's'
  | versions => some 'v'
  | _ => none

def ofName? (s : String) : Option Verb := all.find? (·.name = s)

def ofShort? (c : Char) : Option Verb := all.find? (·.short? = some c)

end Verb

structure Level where
  opts : List Opt
  positionals : List (Param × ValueKind)
  hasVerbs : Bool

namespace Level

def long? (l : Level) (name : String) : Option Opt := l.opts.find? (·.long = name)

def short? (l : Level) (c : Char) : Option Opt := l.opts.find? (·.short = some c)

def verb? (l : Level) (s : String) : Option Verb := if l.hasVerbs then Verb.ofName? s else none

def shortVerb? (l : Level) (c : Char) : Option Verb := if l.hasVerbs then Verb.ofShort? c else none

end Level

def sharedOpts : List Opt :=
  [⟨.config, "config", none, .value .text, none⟩,
    ⟨.workDir, "work-dir", none, .value .text, none⟩,
    ⟨.debug, "debug", some 'd', .flag, none⟩,
    ⟨.help, "help", some 'h', .showHelp, none⟩]

def top : Level where
  opts := sharedOpts ++ [⟨.version, "version", some 'V', .showVersion, none⟩]
  positionals := []
  hasVerbs := true

namespace Verb

def opts : Verb → List Opt
  | update =>
    [⟨.firmware, "firmware", some 'f', .value .path, none⟩,
      ⟨.application, "application", some 'a', .value .path, none⟩]
  | automatic =>
    [⟨.updateStick, "update-stick", none, .value .path, some "UPDATE_STICK"⟩,
      ⟨.firmwareFile, "firmware-file", none, .value .path, some "FIRMWARE_FILE"⟩,
      ⟨.firmwareVersion, "fw-version", none, .value .version, some "FW_VERSION"⟩,
      ⟨.applicationFile, "application-file", none, .value .path, some "APPLICATION_FILE"⟩,
      ⟨.applicationVersion, "app-version", none, .value .version, some "APP_VERSION"⟩]
  | _ => []

def positionals : Verb → List (Param × ValueKind)
  | rollback | switchSlot | versions => [(.target, .target)]
  | markBad | isBad => [(.target, .target), (.slot, .text)]
  | _ => []

def level (v : Verb) : Level := ⟨v.opts ++ sharedOpts, v.positionals, false⟩

end Verb

end Dualbank.CommandLine
