import Dualbank.Proofs.Settings.Merge
import Dualbank.Settings.Basic

namespace Dualbank.Settings

/-- What a leaf takes. A list of texts is one leaf. -/
inductive Kind
  | text
  | texts
  | natural (bound : Nat)

inductive Kind.Admits : Kind → Value → Prop
  | text (s : String) : Admits text (.text s)
  | texts (ss : List String) : Admits texts (ofTexts ss)
  | natural (bound n : Nat) (h : n ≤ bound) : Admits (natural bound) (.int n)

inductive Leaf
  | workDir
  | printTool
  | setTool
  | bootIdPath
  | rebootCommand
  | pollAttempts
  | pollInterval
  | install (i : Image)
  | rollback (i : Image)
  | versionFile (i : Image)
  deriving DecidableEq, Repr

def commands (s : Settings) : Image → EngineCommands
  | .firmware => s.firmware
  | .application => s.application

namespace Leaf

def path : Leaf → List String
  | workDir => ["work_dir"]
  | printTool => ["fw_printenv"]
  | setTool => ["fw_setenv"]
  | bootIdPath => ["boot_id_path"]
  | rebootCommand => ["reboot_command"]
  | pollAttempts => ["progress_poll_attempts"]
  | pollInterval => ["progress_poll_interval"]
  | install i => [i.text, "install"]
  | rollback i => [i.text, "rollback"]
  | versionFile i => [i.text, "version_file"]

def kind : Leaf → Kind
  | workDir | printTool | setTool | bootIdPath | versionFile _ => .text
  | rebootCommand | install _ | rollback _ => .texts
  | pollAttempts => .natural Text.maxU32
  | pollInterval => .natural Text.maxU64

def valueIn (s : Settings) : Leaf → Value
  | workDir => .text s.workDir
  | printTool => .text s.env.printTool
  | setTool => .text s.env.setTool
  | bootIdPath => .text s.bootIdPath
  | rebootCommand => ofTexts s.rebootCommand
  | pollAttempts => .int s.pollAttempts
  | pollInterval => .int s.pollInterval
  | install i => ofTexts (s.commands i).install
  | rollback i => ofTexts (s.commands i).rollback
  | versionFile i => .text (s.commands i).versionFile

end Leaf

variable {α β : Type} {s : Settings} {v : Value} {w : Leaf → Value} {es : Entries} {k : String}
  {i : Image}

def imageLeaves (w : Leaf → Value) (i : Image) : Entries :=
  [("install", w (.install i)), ("rollback", w (.rollback i)), ("version_file", w (.versionFile i))]

def leafEntries (w : Leaf → Value) : Entries :=
  [("application", .table (imageLeaves w .application)), ("boot_id_path", w .bootIdPath),
    ("firmware", .table (imageLeaves w .firmware)), ("fw_printenv", w .printTool),
    ("fw_setenv", w .setTool), ("progress_poll_attempts", w .pollAttempts),
    ("progress_poll_interval", w .pollInterval), ("reboot_command", w .rebootCommand),
    ("work_dir", w .workDir)]

def ofLeaves (w : Leaf → Value) : Value := .table (leafEntries w)

theorem at?_toValue (s : Settings) (l : Leaf) : s.toValue.at? l.path = some (l.valueIn s) := by
  cases l with
  | install i => cases i <;> rfl
  | rollback i => cases i <;> rfl
  | versionFile i => cases i <;> rfl
  | _ => rfl

theorem bind_eq_ok {r : Reading α} {f : α → Reading β} {b : β} :
    (r >>= f) = .ok b ↔ ∃ a, r = .ok a ∧ f a = .ok b := by
  cases r with
  | error e => exact ⟨nofun, fun ⟨_, h, _⟩ => nomatch h⟩
  | ok a => exact ⟨fun h => ⟨a, rfl, h⟩, fun ⟨_, rfl, h⟩ => h⟩

theorem mapError_eq_ok {ε ε' : Type} {x : Except ε α} {f : ε → ε'} {a : α} :
    x.mapError f = .ok a ↔ x = .ok a := by
  cases x <;> simp [Except.mapError]

theorem below_eq_ok {r : Reading α} {a : α} : below k r = .ok a ↔ r = .ok a :=
  mapError_eq_ok

theorem text_eq_ok {t : String} : text v = .ok t ↔ v = .text t := by
  cases v <;> simp [text, fail]

theorem natural_eq_ok {bound n : Nat} : natural bound v = .ok n ↔ n ≤ bound ∧ v = .int n := by
  cases v with
  | int m =>
      simp only [natural]
      split
      · simp
        omega
      · simp [fail]
        omega
  | _ => simp [natural, fail]

theorem textsFrom_eq_ok {j : Nat} {vs : List Value} {ss : List String} :
    textsFrom j vs = .ok ss ↔ vs = ss.map .text := by
  induction vs generalizing j ss with
  | nil => cases ss <;> simp [textsFrom]
  | cons v vs ih =>
      simp only [textsFrom, bind_eq_ok, below_eq_ok, text_eq_ok, ih]
      cases ss <;> simp [pure, Except.pure]

theorem command_eq_ok {ss : List String} : command v = .ok ss ↔ v = ofTexts ss := by
  cases v <;> simp [command, fail, textsFrom_eq_ok, ofTexts]

theorem entry?_of_lookup {read : Value → Reading α} (h : es.lookup k = some v) :
    entry? read k es = some <$> below k (read v) := by
  unfold entry?
  rw [h]

theorem entry?_bind_eq_ok {read : Value → Reading α} {f : Option α → Reading β} {b : β}
    (h : es.lookup k = some v) :
    entry? read k es >>= f = .ok b ↔ ∃ a, read v = .ok a ∧ f (some a) = .ok b := by
  rw [entry?_of_lookup h]
  cases read v with
  | error e => exact ⟨nofun, fun ⟨_, h, _⟩ => nomatch h⟩
  | ok a => exact ⟨fun h => ⟨a, rfl, h⟩, fun ⟨_, rfl, h⟩ => h⟩

@[simp] theorem required_bind {a : α} {f : α → Reading β} : (required (some a) >>= f) = f a := rfl

theorem engineCommands_eq_ok {c : EngineCommands} :
    engineCommands (.table (imageLeaves w i)) = .ok c ↔ w (.install i) = ofTexts c.install ∧
      w (.rollback i) = ofTexts c.rollback ∧ w (.versionFile i) = .text c.versionFile := by
  have hinstall : (imageLeaves w i).lookup "install" = some (w (.install i)) := rfl
  have hrollback : (imageLeaves w i).lookup "rollback" = some (w (.rollback i)) := rfl
  have hversion : (imageLeaves w i).lookup "version_file" = some (w (.versionFile i)) := rfl
  obtain ⟨install, rollback, versionFile⟩ := c
  simp only [engineCommands, entry?_bind_eq_ok hinstall, entry?_bind_eq_ok hrollback,
    entry?_bind_eq_ok hversion, command_eq_ok, text_eq_ok, required_bind, pure, Except.pure]
  simp

theorem forall_image {P : Image → Prop} : (∀ i, P i) ↔ P .firmware ∧ P .application := by
  refine ⟨fun h => ⟨h _, h _⟩, fun ⟨hf, ha⟩ i => ?_⟩
  cases i with
  | firmware => exact hf
  | application => exact ha

theorem lookup_leafEntries (l : Leaf) (hl : l.path = [k]) :
    (leafEntries w).lookup k = some (w l) := by
  cases l <;> cases hl <;> rfl

theorem ofEntries_leafEntries : ofEntries (leafEntries w) = .ok s ↔
    (∀ i, engineCommands (.table (imageLeaves w i)) = .ok (s.commands i)) ∧
    w .bootIdPath = .text s.bootIdPath ∧ w .printTool = .text s.env.printTool ∧
    w .setTool = .text s.env.setTool ∧
    (s.pollAttempts ≤ Text.maxU32 ∧ w .pollAttempts = .int s.pollAttempts) ∧
    (s.pollInterval ≤ Text.maxU64 ∧ w .pollInterval = .int s.pollInterval) ∧
    w .rebootCommand = ofTexts s.rebootCommand ∧ w .workDir = .text s.workDir := by
  have happlication : (leafEntries w).lookup "application" =
    some (.table (imageLeaves w .application)) := rfl
  have hfirmware : (leafEntries w).lookup "firmware" = some (.table (imageLeaves w .firmware)) := rfl
  obtain ⟨workDir, ⟨printTool, setTool⟩, bootIdPath, rebootCommand, attempts, interval, firmware,
    application⟩ := s
  simp only [ofEntries, entry?_bind_eq_ok happlication, entry?_bind_eq_ok hfirmware,
    entry?_bind_eq_ok (lookup_leafEntries .bootIdPath rfl),
    entry?_bind_eq_ok (lookup_leafEntries .printTool rfl),
    entry?_bind_eq_ok (lookup_leafEntries .setTool rfl),
    entry?_bind_eq_ok (lookup_leafEntries .pollAttempts rfl),
    entry?_bind_eq_ok (lookup_leafEntries .pollInterval rfl),
    entry?_bind_eq_ok (lookup_leafEntries .rebootCommand rfl),
    entry?_bind_eq_ok (lookup_leafEntries .workDir rfl), command_eq_ok, text_eq_ok, natural_eq_ok,
    required_bind, pure, Except.pure, forall_image, commands]
  simp
  tauto

theorem admits_text {t : String} : (Kind.text.Admits v ∧ .text t = v) ↔ v = .text t :=
  ⟨fun h => h.2.symm, fun h => ⟨h ▸ .text t, h.symm⟩⟩

theorem admits_texts {ss : List String} : (Kind.texts.Admits v ∧ ofTexts ss = v) ↔ v = ofTexts ss :=
  ⟨fun h => h.2.symm, fun h => ⟨h ▸ .texts ss, h.symm⟩⟩

theorem admits_natural {bound n : Nat} :
    ((Kind.natural bound).Admits v ∧ .int n = v) ↔ n ≤ bound ∧ v = .int n := by
  constructor
  · rintro ⟨h, rfl⟩
    cases h with
    | natural _ _ h => exact ⟨h, rfl⟩
  · rintro ⟨h, rfl⟩
    exact ⟨.natural bound n h, rfl⟩

/-- The settings are read just if each leaf takes its value, and then that is what it has. -/
theorem ofValue_ofLeaves_eq_ok : ofValue (ofLeaves w) = .ok s ↔
    ∀ l : Leaf, l.kind.Admits (w l) ∧ l.valueIn s = w l := by
  rw [ofLeaves, ofValue, ofEntries_leafEntries]
  simp only [engineCommands_eq_ok]
  constructor
  · rintro ⟨hcommands, hbootIdPath, hprintTool, hsetTool, hattempts, hinterval, hreboot, hworkDir⟩ l
    cases l with
    | workDir => exact admits_text.mpr hworkDir
    | printTool => exact admits_text.mpr hprintTool
    | setTool => exact admits_text.mpr hsetTool
    | bootIdPath => exact admits_text.mpr hbootIdPath
    | rebootCommand => exact admits_texts.mpr hreboot
    | pollAttempts => exact admits_natural.mpr hattempts
    | pollInterval => exact admits_natural.mpr hinterval
    | install i => exact admits_texts.mpr (hcommands i).1
    | rollback i => exact admits_texts.mpr (hcommands i).2.1
    | versionFile i => exact admits_text.mpr (hcommands i).2.2
  · intro h
    exact ⟨fun i => ⟨(h (.install i)).2.symm, (h (.rollback i)).2.symm, (h (.versionFile i)).2.symm⟩,
      (h .bootIdPath).2.symm, (h .printTool).2.symm, (h .setTool).2.symm,
      admits_natural.mp (h .pollAttempts), admits_natural.mp (h .pollInterval),
      (h .rebootCommand).2.symm, (h .workDir).2.symm⟩

theorem toValue_eq (s : Settings) : s.toValue = ofLeaves (Leaf.valueIn s) := rfl

/-- Settings that are written are read again, but for numbers that no value could have given. -/
theorem ofValue_toValue_eq_ok :
    ofValue s.toValue = .ok s ↔ s.pollAttempts ≤ Text.maxU32 ∧ s.pollInterval ≤ Text.maxU64 := by
  rw [toValue_eq, ofValue_ofLeaves_eq_ok]
  constructor
  · intro h
    exact ⟨(admits_natural.mp (h .pollAttempts)).1, (admits_natural.mp (h .pollInterval)).1⟩
  · rintro ⟨hattempts, hinterval⟩ l
    cases l with
    | pollAttempts => exact admits_natural.mpr ⟨hattempts, rfl⟩
    | pollInterval => exact admits_natural.mpr ⟨hinterval, rfl⟩
    | rebootCommand => exact ⟨.texts _, rfl⟩
    | install i => exact ⟨.texts _, rfl⟩
    | rollback i => exact ⟨.texts _, rfl⟩
    | _ => exact ⟨.text _, rfl⟩

example : ofValue defaults.toValue = .ok defaults := ofValue_toValue_eq_ok.mpr (by decide)

theorem Kind.Admits.eq_text (h : Kind.text.Admits v) : ∃ t, .text t = v := by
  cases h with
  | text t => exact ⟨t, rfl⟩

theorem Kind.Admits.eq_texts (h : Kind.texts.Admits v) : ∃ ss, ofTexts ss = v := by
  cases h with
  | texts ss => exact ⟨ss, rfl⟩

theorem Kind.Admits.eq_natural {bound : Nat} (h : (Kind.natural bound).Admits v) :
    ∃ n : Nat, .int n = v := by
  cases h with
  | natural _ n _ => exact ⟨n, rfl⟩

theorem exists_of_admits (h : ∀ l : Leaf, l.kind.Admits (w l)) :
    ∃ s : Settings, ∀ l : Leaf, l.valueIn s = w l := by
  obtain ⟨workDir, hworkDir⟩ := (h .workDir).eq_text
  obtain ⟨printTool, hprintTool⟩ := (h .printTool).eq_text
  obtain ⟨setTool, hsetTool⟩ := (h .setTool).eq_text
  obtain ⟨bootIdPath, hbootIdPath⟩ := (h .bootIdPath).eq_text
  obtain ⟨rebootCommand, hrebootCommand⟩ := (h .rebootCommand).eq_texts
  obtain ⟨pollAttempts, hpollAttempts⟩ := (h .pollAttempts).eq_natural
  obtain ⟨pollInterval, hpollInterval⟩ := (h .pollInterval).eq_natural
  obtain ⟨install, hinstall⟩ := Classical.skolem.mp fun i => (h (.install i)).eq_texts
  obtain ⟨rollback, hrollback⟩ := Classical.skolem.mp fun i => (h (.rollback i)).eq_texts
  obtain ⟨versionFile, hversionFile⟩ := Classical.skolem.mp fun i => (h (.versionFile i)).eq_text
  let commands (i : Image) : EngineCommands := ⟨install i, rollback i, versionFile i⟩
  refine ⟨⟨workDir, ⟨printTool, setTool⟩, bootIdPath, rebootCommand, pollAttempts, pollInterval,
    commands .firmware, commands .application⟩, fun l => ?_⟩
  cases l with
  | workDir => exact hworkDir
  | printTool => exact hprintTool
  | setTool => exact hsetTool
  | bootIdPath => exact hbootIdPath
  | rebootCommand => exact hrebootCommand
  | pollAttempts => exact hpollAttempts
  | pollInterval => exact hpollInterval
  | install i => cases i <;> exact hinstall _
  | rollback i => cases i <;> exact hrollback _
  | versionFile i => cases i <;> exact hversionFile _

open Value (shape at?_single at?_pair)

/-- Where the settings have tables, there is nothing else. -/
def KeepsTables (v : Value) : Prop := ∀ (i : Image) (x : Value), v.get? i.text = some x → x.IsTable

theorem text_shape (v : Value) : text v.shape = text v := by cases v <;> rfl

theorem natural_shape (bound : Nat) (v : Value) : natural bound v.shape = natural bound v := by
  cases v <;> rfl

theorem command_shape (v : Value) : command v.shape = command v := by cases v <;> rfl

theorem entry?_congr {read : Value → Reading α} (os : Entries)
    (hread : ∀ v, read v.shape = read v) (h : (es.lookup k).map shape = some v.shape)
    (hos : os.lookup k = some v) : entry? read k es = entry? read k os := by
  obtain ⟨x, hx, h⟩ := Option.map_eq_some_iff.mp h
  rw [entry?_of_lookup hx, entry?_of_lookup hos, ← hread x, h, hread]

theorem engineCommands_congr {cs : Entries}
    (hinstall : (cs.lookup "install").map shape = some (w (.install i)).shape)
    (hrollback : (cs.lookup "rollback").map shape = some (w (.rollback i)).shape)
    (hversionFile : (cs.lookup "version_file").map shape = some (w (.versionFile i)).shape) :
    engineCommands (.table cs) = engineCommands (.table (imageLeaves w i)) := by
  rw [engineCommands, engineCommands, entry?_congr (imageLeaves w i) command_shape hinstall rfl,
    entry?_congr (imageLeaves w i) command_shape hrollback rfl,
    entry?_congr (imageLeaves w i) text_shape hversionFile rfl]

/-- A value is read by what it has at the leaves; nothing else in it counts. -/
theorem ofValue_eq_ofLeaves (hroot : v.IsTable) (hv : KeepsTables v)
    (h : ∀ l : Leaf, (v.at? l.path).map shape = some (w l).shape) :
    ofValue v = ofValue (ofLeaves w) := by
  obtain ⟨es, rfl⟩ := hroot
  have hleaf (l : Leaf) {k : String} (hl : l.path = [k]) :
      (es.lookup k).map shape = some (w l).shape := by
    have hl' := h l
    rwa [hl, at?_single] at hl'
  have himage (i : Image) (hi : (leafEntries w).lookup i.text = some (.table (imageLeaves w i))) :
      entry? engineCommands i.text es = entry? engineCommands i.text (leafEntries w) := by
    obtain ⟨_, hinstall, -⟩ := Option.map_eq_some_iff.mp (h (.install i))
    obtain ⟨x, hx, -⟩ := Option.bind_eq_some_iff.mp hinstall
    obtain ⟨cs, rfl⟩ := hv i x hx
    have hbelow (l : Leaf) {k : String} (hl : l.path = [i.text, k]) :
        (cs.lookup k).map shape = some (w l).shape := by
      have hl' := h l
      rwa [hl, at?_pair hx] at hl'
    rw [entry?_of_lookup hx, entry?_of_lookup hi, engineCommands_congr (hbelow (.install i) rfl)
      (hbelow (.rollback i) rfl) (hbelow (.versionFile i) rfl)]
  have happlication : entry? engineCommands "application" es =
    entry? engineCommands "application" (leafEntries w) := himage .application rfl
  have hfirmware : entry? engineCommands "firmware" es =
    entry? engineCommands "firmware" (leafEntries w) := himage .firmware rfl
  rw [ofLeaves, ofValue, ofValue, ofEntries, ofEntries, happlication, hfirmware,
    entry?_congr (leafEntries w) text_shape (hleaf .bootIdPath rfl) rfl,
    entry?_congr (leafEntries w) text_shape (hleaf .printTool rfl) rfl,
    entry?_congr (leafEntries w) text_shape (hleaf .setTool rfl) rfl,
    entry?_congr (leafEntries w) (natural_shape _) (hleaf .pollAttempts rfl) rfl,
    entry?_congr (leafEntries w) (natural_shape _) (hleaf .pollInterval rfl) rfl,
    entry?_congr (leafEntries w) command_shape (hleaf .rebootCommand rfl) rfl,
    entry?_congr (leafEntries w) text_shape (hleaf .workDir rfl) rfl]

end Dualbank.Settings
