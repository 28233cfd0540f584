import Dualbank.Program
import Dualbank.Proofs.Device.Listing
import Dualbank.Proofs.Path
import Dualbank.Proofs.Plan.Reach

namespace Dualbank

open Plan SysPlan Text

namespace SysCall

def SparesConsole : SysCall → Prop
  | openConsole _ => False
  | _ => True

end SysCall

open SysCall

theorem SysPlan.ask_asks {q : SysCall} (h : SparesConsole q) : Asks SparesConsole (ask q) :=
  ⟨h, fun _ => trivial⟩

theorem BootEnv.run_asks (tool : String) (args : List String) :
    Asks SparesConsole (BootEnv.run tool args).run := by
  refine asks_run_bind ((asks_run_ask _).mpr trivial) fun x => ?_
  cases x <;> exact trivial

theorem BootEnv.read_asks (e : BootEnv) (name : String) : Asks SparesConsole (e.read name).run :=
  asks_run_bind (asks_run_ofExcept _) fun _ => asks_run_bind (run_asks _ _) fun _ =>
    asks_run_ofExcept _

theorem BootEnv.set_asks (e : BootEnv) (name : String) (value? : Option String) :
    Asks SparesConsole (e.set name value?).run := by
  refine asks_run_bind (asks_run_ofExcept _) fun _ => asks_run_bind (run_asks _ _) fun f => ?_
  split <;> exact trivial

namespace Record

theorem inEnv_asks {α : Type} {p : BootEnvPlan α} (h : Asks SparesConsole p.run) :
    Asks SparesConsole (inEnv p).run := by
  refine asks_bind h fun x => ?_
  cases x <;> exact trivial

theorem currentBootId_asks (r : Record) : Asks SparesConsole r.currentBootId.run := by
  refine asks_run_bind ((asks_run_ask _).mpr trivial) fun x => ?_
  cases x <;> exact trivial

theorem readPhase_asks (r : Record) : Asks SparesConsole r.readPhase.run := by
  refine asks_run_bind (inEnv_asks (r.env.read_asks _)) fun x => ?_
  cases x
  · exact trivial
  · exact asks_run_ofExcept _

theorem writePhase_asks (r : Record) (p : Phase) : Asks SparesConsole (r.writePhase p).run :=
  asks_run_bind r.currentBootId_asks fun _ =>
    asks_run_bind (inEnv_asks (r.env.set_asks _ _)) fun _ => inEnv_asks (r.env.set_asks _ _)

theorem isRebooted_asks (r : Record) : Asks SparesConsole r.isRebooted.run := by
  refine asks_run_bind (inEnv_asks (r.env.read_asks _)) fun x => ?_
  cases x
  · exact trivial
  · exact asks_run_bind r.currentBootId_asks fun _ => trivial

theorem markBad_asks (r : Record) (t : Target) (s : Slot) :
    Asks SparesConsole (r.markBad t s).run :=
  asks_run_bind (asks_run_ofExcept _) fun _ => inEnv_asks (r.env.set_asks _ _)

theorem isBad_asks (r : Record) (t : Target) (s : Slot) : Asks SparesConsole (r.isBad t s).run :=
  asks_run_bind (asks_run_ofExcept _) fun _ =>
    asks_run_bind (inEnv_asks (r.env.read_asks _)) fun _ => trivial

end Record

theorem EngineCommands.run_asks (t : Target) (command args : List String) :
    Asks SparesConsole (EngineCommands.run t command args).run := by
  cases command with
  | nil => exact trivial
  | cons program options =>
      refine asks_run_bind ((asks_run_ask _).mpr trivial) fun x => ?_
      cases x
      · exact trivial
      · exact asks_run_ofExcept _

theorem EngineCommands.installedVersion_asks (c : EngineCommands) (t : Target) :
    Asks SparesConsole (c.installedVersion t).run := by
  refine asks_run_bind ((asks_run_ask _).mpr trivial) fun x => ?_
  cases x with
  | error e => exact trivial
  | ok s =>
      dsimp only
      split <;> exact trivial

theorem rebootBy_asks (command : List String) : Asks SparesConsole (rebootBy command) := by
  cases command with
  | nil => exact trivial
  | cons program args =>
      refine ⟨trivial, fun x => ?_⟩
      cases x <;> exact trivial

theorem Device.answer_asks (d : Device) (q : Call) : Asks SparesConsole (d.answer q) := by
  cases q with
  | readPhase => exact d.record.readPhase_asks
  | writePhase p => exact d.record.writePhase_asks p
  | isRebooted _ => exact d.record.isRebooted_asks
  | markBad t s => exact d.record.markBad_asks t s
  | isBad t s => exact d.record.isBad_asks t s
  | install i p => exact EngineCommands.run_asks ..
  | switch i => exact EngineCommands.run_asks ..
  | installedVersion t => exact EngineCommands.installedVersion_asks ..
  | reboot => exact rebootBy_asks d.rebootCommand
  | _ => exact ⟨trivial, fun _ => trivial⟩

namespace Program

theorem settingsFile_asks (places : List String) : Asks SparesConsole (settingsFile places) := by
  induction places with
  | nil => exact trivial
  | cons p ps ih =>
      refine ⟨trivial, fun x => ?_⟩
      rcases x with e | (size | _)
      · exact ih
      · refine ⟨trivial, fun y => ?_⟩
        cases y <;> exact trivial
      · exact ih

theorem settings_asks (i : CommandLine.Invocation) (env : List (String × String)) :
    Asks SparesConsole (settings i env) :=
  asks_bind ⟨trivial, fun _ => trivial⟩ fun _ => asks_bind (settingsFile_asks _) fun _ => trivial

theorem giveUp_asks (message : String) (cause? : Option String) :
    Asks SparesConsole (giveUp message cause?) :=
  asks_bind (ask_asks trivial) fun _ => trivial

theorem runCommand_asks (s : Settings) (c : CommandLine.Command) :
    Asks SparesConsole (runCommand s c) := by
  refine asks_bind (asks_run (deviceOf s).answer_asks _) fun x => ?_
  cases x with
  | ok status => exact trivial
  | error a => exact giveUp_asks _ _

end Program

variable {W : Type} {rules : Rules SysCall.Answer W} {w w' : W} {path : String}

theorem gives_inEnv_ok_iff {α : Type} {p : BootEnvPlan α} {a : α} :
    Gives rules (Record.inEnv p).run w (.ok a) w' ↔ Gives rules p.run w (.ok a) w' := by
  refine gives_bind.trans ⟨?_, fun h => ⟨.ok a, w', h, gives_done.mpr ⟨rfl, rfl⟩⟩⟩
  rintro ⟨x, v, hx, h⟩
  obtain ⟨he, rfl⟩ := gives_done.mp h
  cases x with
  | error e => cases he
  | ok b =>
      cases he
      exact hx

namespace Console

theorem reaches_openAt_iff {named : String} :
    Reaches rules (openAt named).run w (.openConsole path) w' ↔ named = path ∧ w' = w := by
  refine reaches_ask.trans ?_
  rw [or_iff_left, openConsole.injEq]
  rintro ⟨x, v, -, h⟩
  cases x <;> exact not_reaches_done h

theorem reaches_openFrom_iff {env : BootEnv} :
    Reaches rules (openFrom env).run w (.openConsole path) w' ↔ ∃ setting,
      Gives rules (env.read variableName).run w (.ok (some setting)) w' ∧
        device? setting = some path := by
  have hread := Record.inEnv_asks (env.read_asks variableName)
  refine (hread.reaches_run_bind_iff id).trans ⟨?_, ?_⟩
  · rintro ⟨_ | setting, v, hs, h⟩
    · exact (not_reaches_done h).elim
    · dsimp only at h
      split at h
      case h_1 named hd =>
          obtain ⟨rfl, rfl⟩ := reaches_openAt_iff.mp h
          exact ⟨setting, gives_inEnv_ok_iff.mp hs, hd⟩
      case h_2 => exact (not_reaches_done h).elim
  · rintro ⟨setting, hs, hd⟩
    refine ⟨some setting, w', gives_inEnv_ok_iff.mpr hs, ?_⟩
    dsimp only
    rw [hd]
    exact reaches_openAt_iff.mpr ⟨rfl, rfl⟩

end Console

namespace Program

theorem stop_asks (e : CommandLine.Stop) : Asks SparesConsole (stop e) := by
  cases e <;> exact ⟨trivial, fun _ => trivial⟩

theorem reaches_openConsole_iff {s : Settings} {c : CommandLine.Command} :
    Reaches rules (openConsole s c) w (.openConsole path) w' ↔ c.isAutomatic ∧
      Reaches rules (Console.openFrom s.env).run w (.openConsole path) w' := by
  rw [openConsole]
  split
  case isTrue hc =>
      rw [reaches_bind, or_iff_left, and_iff_right hc]
      rintro ⟨x, v, -, h⟩
      cases x with
      | ok _ => exact (ask_asks (q := .copyLog) trivial).not_reaches id h
      | error e => exact (ask_asks (q := .log .warning _) trivial).not_reaches id h
  case isFalse hc => simp [not_reaches_done, hc]

theorem reaches_run_iff {env : List (String × String)} {args : List String} :
    Reaches rules (run env args) w (.openConsole path) w' ↔ ∃ i s v setting,
      CommandLine.read env args = .ok i ∧ i.command.isAutomatic ∧
        Gives rules (settings i env) w (.ok s) v ∧
        Gives rules (s.env.read Console.variableName).run v (.ok (some setting)) w' ∧
        Console.device? setting = some path := by
  rw [run]
  cases hi : CommandLine.read env args with
  | error e =>
      refine iff_of_false ((stop_asks e).not_reaches id) ?_
      rintro ⟨i, s, v, setting, hi, -⟩
      cases hi
  | ok i =>
      refine ((settings_asks i env).reaches_bind_iff id).trans ⟨?_, ?_⟩
      · rintro ⟨x, v, hx, h⟩
        cases x with
        | error e => exact ((giveUp_asks _ _).not_reaches id h).elim
        | ok s =>
            rcases reaches_bind.mp h with h | ⟨u, v', -, h⟩
            · obtain ⟨hc, h⟩ := reaches_openConsole_iff.mp h
              obtain ⟨setting, hs, hd⟩ := Console.reaches_openFrom_iff.mp h
              exact ⟨i, s, v, setting, rfl, hc, hx, hs, hd⟩
            · exact ((runCommand_asks s i.command).not_reaches id h).elim
      · rintro ⟨_, s, v, setting, ⟨rfl⟩, hc, hx, hs, hd⟩
        refine ⟨.ok s, v, hx, reaches_bind.mpr (.inl ?_)⟩
        exact reaches_openConsole_iff.mpr ⟨hc, Console.reaches_openFrom_iff.mpr ⟨setting, hs, hd⟩⟩

end Program

namespace Console

variable {setting text : String}

/-- The text stands in the setting after its last equals sign, up to the comma that follows. -/
def Holds (setting text : String) : Prop :=
  ∃ before after : List Char, setting.toList = before ++ (text.toList ++ after) ∧
    (∀ c ∈ before.getLast?, c = '=') ∧ '=' ∉ text.toList ++ after ∧
    ',' ∉ text.toList ∧ ∀ c ∈ after.head?, c = ','

theorem holds_iff : Holds setting text ↔
    text.toList = (afterEquals setting.toList).takeWhile (· ≠ ',') := by
  constructor
  · rintro ⟨before, after, hs, hbefore, hequals, hcomma, hafter⟩
    have htail : afterEquals setting.toList = text.toList ++ after := by
      rw [afterEquals, hs, List.reverse_append, takeWhile_append_of_head, List.reverse_reverse]
      · intro c hc
        simpa using fun he : c = '=' => hequals (he ▸ List.mem_reverse.mp hc)
      · intro c hc
        rw [List.head?_reverse] at hc
        simp [hbefore c hc]
    rw [htail, takeWhile_append_of_head]
    · intro c hc
      simpa using fun he : c = ',' => hcomma (he ▸ hc)
    · intro c hc
      simp [hafter c hc]
  · intro ht
    have hbefore := List.head?_dropWhile_not (· ≠ '=') setting.toList.reverse
    have hafter := List.head?_dropWhile_not (· ≠ ',') (afterEquals setting.toList)
    refine ⟨(setting.toList.reverse.dropWhile (· ≠ '=')).reverse,
      (afterEquals setting.toList).dropWhile (· ≠ ','), ?_, fun c hc => ?_, fun hc => ?_,
      fun hc => ?_, fun c hc => ?_⟩
    · rw [ht, List.takeWhile_append_dropWhile, afterEquals, ← List.reverse_append,
        List.takeWhile_append_dropWhile, List.reverse_reverse]
    · rw [List.getLast?_reverse] at hc
      rw [hc] at hbefore
      simpa using hbefore
    · rw [ht, List.takeWhile_append_dropWhile, afterEquals, List.mem_reverse] at hc
      simpa using List.mem_takeWhile_imp hc
    · rw [ht] at hc
      simpa using List.mem_takeWhile_imp hc
    · rw [hc] at hafter
      simpa using hafter

theorem nameIn_of_holds (h : Holds setting text) : nameIn setting = trim text := by
  rw [nameIn, ← holds_iff.mp h, String.ofList_toList]

theorem exists_holds (setting : String) : ∃ text, ∀ t, Holds setting t ↔ t = text := by
  refine ⟨String.ofList ((afterEquals setting.toList).takeWhile (· ≠ ',')), fun t => ?_⟩
  rw [holds_iff, ← String.toList_inj, String.toList_ofList]

theorem device?_eq (h : Holds setting text) : device? setting =
    if trim text = "" then none else some (Path.join "/dev" (trim text)) := by
  simp only [device?, nameIn_of_holds h, String.isEmpty_iff]

theorem join_dev {name : String} (h : Path.isAbsolute name = false) :
    Path.join "/dev" name = "/dev/" ++ name ∧ Path.IsBelow "/dev" (Path.join "/dev" name) := by
  refine ⟨?_, Path.isBelow_join h⟩
  rw [Path.join, if_neg (by simp [h]), if_neg (by decide +kernel)]
  rfl

/-- The text that a setting names stands after its last equals sign, up to the comma that follows.
Without the white space around it, it names the console: none if it is empty, a path below the
directory of the devices if it is relative, and the very path if it is absolute, wherever that lies.
This is the console that the whole program opens, in unattended updates only. -/
theorem opens_named_device (rules : Rules SysCall.Answer W) (env : List (String × String))
    (args : List String) (w w' : W) (path : String) :
    (∀ setting, ∃ text, (∀ t, Holds setting t ↔ t = text) ∧
      (device? setting = none ↔ trim text = "") ∧
      (device? setting = some path →
        path = (if Path.isAbsolute (trim text) then trim text else "/dev/" ++ trim text) ∧
        (Path.IsBelow "/dev" path ↔
          Path.isAbsolute (trim text) = false ∨ Path.IsBelow "/dev" (trim text)))) ∧
    (Reaches rules (Program.run env args) w (.openConsole path) w' ↔ ∃ i s v setting,
      CommandLine.read env args = .ok i ∧ i.command.isAutomatic ∧
        Gives rules (Program.settings i env) w (.ok s) v ∧
        Gives rules (s.env.read variableName).run v (.ok (some setting)) w' ∧
        device? setting = some path) := by
  refine ⟨fun setting => ?_, Program.reaches_run_iff⟩
  obtain ⟨text, htext⟩ := exists_holds setting
  have hdevice := device?_eq ((htext text).mpr rfl)
  refine ⟨text, htext, ?_, fun hd => ?_⟩
  · rw [hdevice]
    split <;> simp [*]
  · rw [hdevice] at hd
    split at hd
    · cases hd
    · obtain rfl := Option.some.inj hd
      by_cases ha : Path.isAbsolute (trim text)
      · rw [if_pos ha, Path.join_of_isAbsolute ha, or_iff_right (by simp [ha])]
        exact ⟨rfl, Iff.rfl⟩
      · rw [if_neg ha]
        have ha : Path.isAbsolute (trim text) = false := Bool.eq_false_iff.mpr ha
        obtain ⟨hpath, hbelow⟩ := join_dev ha
        exact ⟨hpath, iff_of_true hbelow (.inl ha)⟩

def misplaced : String := "console=/etc/passwd,115200"

def unattended : CommandLine.Invocation :=
  ⟨none, none, false, .automatic ⟨"/mnt", none, none, none, none⟩⟩

theorem gives_settings (r : Record) (b : Board) :
    Gives (SysCall.rules r Never) (Program.settings unattended []) b (.ok Settings.defaults) b := by
  have hplaces : Program.places "/" (Program.configPath unattended.config []) =
    [Program.defaultConfig] := by decide +kernel
  have hdefaults : Settings.get none .absent Program.settingStart [] = .ok Settings.defaults := by
    decide +kernel
  have hfile : Gives (SysCall.rules r Never) (Program.settingsFile [Program.defaultConfig]) b
      .absent b :=
    gives_ask.mpr ⟨.ok .other, b, .inl rfl, gives_done.mpr ⟨rfl, rfl⟩⟩
  refine gives_bind.mpr ⟨.ok "/", b, gives_call.mpr (.inl rfl), gives_bind.mpr ⟨.absent, b, ?_, ?_⟩⟩
  · exact hplaces.symm ▸ hfile
  · exact gives_done.mpr ⟨hdefaults.symm, rfl⟩

theorem opens_outside_devices :
    device? misplaced = some "/etc/passwd" ∧ ¬Path.IsBelow "/dev" "/etc/passwd" ∧
    ∀ b : Board, Reaches (SysCall.rules ⟨{}, Settings.defaults.bootIdPath⟩ Never)
      (Program.run [] ["automatic", "--update-stick", "/mnt"]) (b.write variableName misplaced)
      (.openConsole "/etc/passwd") (b.write variableName misplaced) := by
  have hdevice : device? misplaced = some "/etc/passwd" := by decide +kernel
  refine ⟨hdevice, by decide +kernel, fun b => ?_⟩
  have hread : BootEnv.reading (b.write variableName misplaced) variableName =
      .ok (some misplaced) :=
    BootEnv.reading_write (by decide +kernel) (by decide +kernel) (by decide +kernel)
  exact Program.reaches_run_iff.mpr ⟨unattended, Settings.defaults, _, misplaced, by decide +kernel,
    rfl, gives_settings _ _, BootEnv.gives_read_iff.mpr ⟨hread.symm, rfl⟩, hdevice⟩

end Console

end Dualbank
