import Dualbank.Proofs.Settings.Distinct
import Dualbank.Proofs.Settings.Leaf

namespace Dualbank.Settings

open Value (Distinct shape topmost)

variable {config workDir : Option String} {file : SettingsFile} {fromFile args old new : Value}
  {start : String} {env env' : List (String × String)} {vs : List Value} {s : Settings} {k : String}

def Variables.layers (start : String) (env : List (String × String)) : List Value :=
  env.filterMap fun e => (path? start e.1).map (read e.2).nest

/-- What the highest layer has at a leaf, the defaults being the lowest one. -/
def winner (workDir : Option String) (start : String) (env : List (String × String))
    (fromFile : Value) (l : Leaf) : Value :=
  (((argumentLayer workDir).at? l.path).or ((topmost (Variables.layers start env) l.path).or
    (fromFile.at? l.path))).getD (l.valueIn defaults)

def Apart (vs : List Value) : Prop :=
  vs.Pairwise fun v v' => ∀ l : Leaf, v.at? l.path = none ∨ v'.at? l.path = none

/-- All that the command line gives, the path of the file included. -/
def optionLayer (config workDir : Option String) : Value :=
  .table ((config.map fun c => ("config", .text c)).toList ++
    (workDir.map fun d => ("work_dir", .text d)).toList)

structure IsLayer (v : Value) : Prop where
  distinct : v.Distinct
  root : v.IsTable
  tables : KeepsTables v

theorem IsLayer.leadsTo (h : IsLayer new) (l : Leaf) : new.LeadsTo l.path := by
  have himage (i : Image) (k : String) : new.LeadsTo [i.text, k] :=
    ⟨h.root, fun x hx => ⟨h.tables i x hx, fun _ _ => trivial⟩⟩
  cases l with
  | install i => exact himage i _
  | rollback i => exact himage i _
  | versionFile i => exact himage i _
  | _ => exact ⟨h.root, fun _ _ => trivial⟩

theorem KeepsTables.merge (hold : KeepsTables old) (hnew : IsLayer new) :
    KeepsTables (old.merge new) := by
  intro i x hx
  obtain ⟨es, rfl⟩ := hnew.root
  rcases Value.get?_merge_cases (hnew.distinct [] es rfl) hx with ho | ⟨v, hv, rfl⟩
  · exact hold i x ho
  · have hvt : v.IsTable := hnew.tables i v hv
    cases old.get? i.text with
    | none => exact hvt
    | some o => exact Value.isTable_merge hvt

theorem IsLayer.merge (hold : IsLayer old) (hnew : IsLayer new) : IsLayer (old.merge new) :=
  ⟨hold.distinct.merge hnew.distinct, Value.isTable_merge hnew.root, hold.tables.merge hnew⟩

theorem IsLayer.foldl (hold : IsLayer old) (h : ∀ v ∈ vs, IsLayer v) :
    IsLayer (vs.foldl Value.merge old) := by
  induction vs generalizing old with
  | nil => exact hold
  | cons v vs ih =>
      obtain ⟨hv, hvs⟩ := List.forall_mem_cons.mp h
      exact ih (hold.merge hv) hvs

theorem isLayer_nil : IsLayer (.table []) :=
  ⟨Value.distinct_nil, ⟨[], rfl⟩, fun _ _ h => nomatch h⟩

theorem keepsTables_toValue (s : Settings) : KeepsTables s.toValue := by
  intro i x hx
  cases i with
  | firmware => exact ⟨_, (Option.some.inj hx).symm⟩
  | application => exact ⟨_, (Option.some.inj hx).symm⟩

theorem isLayer_options (config workDir : Option String) : IsLayer (optionLayer config workDir) := by
  refine ⟨Value.distinct_table ?_ ?_, ⟨_, rfl⟩, fun i x hx => ?_⟩
  · cases config <;> cases workDir <;> simp [Value.names]
  · intro e he
    simp only [List.mem_append, Option.mem_toList, Option.map_eq_some_iff] at he
    rcases he with ⟨c, -, rfl⟩ | ⟨d, -, rfl⟩ <;> exact Value.distinct_of_isPlain rfl
  · have hnone : (optionLayer config workDir).get? i.text = none := by
      cases config <;> cases workDir <;> cases i <;> rfl
    rw [hnone] at hx
    cases hx

theorem argumentLayer_eq (workDir : Option String) :
    argumentLayer workDir = optionLayer none workDir := by
  cases workDir <;> rfl

theorem at?_optionLayer (config workDir : Option String) (l : Leaf) :
    (optionLayer config workDir).at? l.path = (argumentLayer workDir).at? l.path := by
  have himage (i : Image) (k : String) :
      (optionLayer config workDir).at? [i.text, k] = (argumentLayer workDir).at? [i.text, k] := by
    cases config <;> cases workDir <;> cases i <;> rfl
  cases l with
  | install i => exact himage i _
  | rollback i => exact himage i _
  | versionFile i => exact himage i _
  | _ => cases config <;> cases workDir <;> rfl

namespace Variables

theorem path?_ne_nil {name : String} {p : List String} (h : path? start name = some p) : p ≠ [] := by
  obtain ⟨cs, -, h⟩ := Option.bind_eq_some_iff.mp h
  simp only at h
  split at h
  · cases h
  · cases h
    simp [parts, List.splitOn_ne_nil]

theorem layer_eq (start : String) (env : List (String × String)) :
    layer start env = (layers start env).foldl Value.merge (.table []) := by
  rw [layer, layers, List.foldl_filterMap]
  congr 1
  funext v e
  obtain ⟨name, text⟩ := e
  simp only
  cases path? start name <;> rfl

theorem isLayer_of_mem {v : Value} (hv : v ∈ layers start env) (h : KeepsTables v) : IsLayer v := by
  obtain ⟨e, -, he⟩ := List.mem_filterMap.mp hv
  obtain ⟨p, hp, rfl⟩ := Option.map_eq_some_iff.mp he
  refine ⟨(read_distinct e.2).nest p, ?_, h⟩
  cases p with
  | nil => exact absurd rfl (path?_ne_nil hp)
  | cons k p => exact ⟨_, rfl⟩

theorem isLayer_layer (h : ∀ v ∈ layers start env, IsLayer v) : IsLayer (layer start env) := by
  rw [layer_eq]
  exact isLayer_nil.foldl h

theorem at?_nil (l : Leaf) : (Value.table []).at? l.path = none := by
  cases l <;> rfl

theorem shape_at?_layer (h : ∀ v ∈ layers start env, IsLayer v) (l : Leaf) :
    ((layer start env).at? l.path).map shape = (topmost (layers start env) l.path).map shape := by
  rw [layer_eq, Value.shape_at?_foldl fun v hv => ⟨(h v hv).distinct, (h v hv).leadsTo l⟩, at?_nil,
    Option.or_none]

end Variables

theorem isLayer_file (h : fileLayer file = .ok fromFile) (hk : KeepsTables fromFile) :
    IsLayer fromFile := by
  unfold fileLayer at h
  split at h
  · cases h
    exact isLayer_nil
  · cases h
  · split at h
    · rename_i hread
      cases h
      obtain ⟨hroot, hdistinct⟩ := Toml.read?_distinct hread
      exact ⟨hdistinct, hroot, hk⟩
    · cases h

theorem ofLayers_eq (hfile : IsLayer fromFile)
    (henv : ∀ v ∈ Variables.layers start env, IsLayer v) (hargs : IsLayer args)
    (hleaves : ∀ l : Leaf, args.at? l.path = (argumentLayer workDir).at? l.path) :
    ofLayers [fromFile, Variables.layer start env, args] =
      (ofValue (ofLeaves (winner workDir start env fromFile))).mapError fun e => .entry e.1 e.2 := by
  have hlayer : IsLayer (Variables.layer start env) := Variables.isLayer_layer henv
  have hroot : ([fromFile, Variables.layer start env, args].foldl Value.merge
      defaults.toValue).IsTable :=
    Value.isTable_merge hargs.root
  have htables : KeepsTables ([fromFile, Variables.layer start env, args].foldl Value.merge
      defaults.toValue) :=
    (((keepsTables_toValue defaults).merge hfile).merge hlayer).merge hargs
  refine congrArg _ (ofValue_eq_ofLeaves hroot htables fun l => ?_)
  have hbelow : ∀ v ∈ [fromFile, Variables.layer start env, args],
      v.Distinct ∧ v.LeadsTo l.path := by
    simp only [List.forall_mem_cons, List.not_mem_nil, false_imp_iff, implies_true, and_true]
    exact ⟨⟨hfile.distinct, hfile.leadsTo l⟩, ⟨hlayer.distinct, hlayer.leadsTo l⟩, hargs.distinct,
      hargs.leadsTo l⟩
  have htop : (topmost [fromFile, Variables.layer start env, args] l.path).map shape =
      (((argumentLayer workDir).at? l.path).or ((topmost (Variables.layers start env) l.path).or
        (fromFile.at? l.path))).map shape := by
    simp only [Value.topmost_cons, Value.topmost_nil, Option.none_or, Option.map_or, hleaves,
      Variables.shape_at?_layer henv, Option.or_assoc]
  rw [Value.shape_at?_foldl hbelow, at?_toValue, Option.or_some, Option.map_some, winner,
    ← Option.getD_map shape, htop, Option.getD_map]

theorem topmost_eq_some_iff (h : Apart vs) (l : Leaf) {v : Value} :
    topmost vs l.path = some v ↔ ∃ x ∈ vs, x.at? l.path = some v := by
  induction vs generalizing v with
  | nil => simp [topmost]
  | cons x vs ih =>
      obtain ⟨hx, hvs⟩ := List.pairwise_cons.mp h
      rw [Value.topmost_cons, Option.or_eq_some_iff, ih hvs, List.exists_mem_cons_iff, or_comm]
      constructor
      · rintro (⟨-, h⟩ | h)
        · exact .inl h
        · exact .inr h
      · rintro (h | h)
        · refine .inl ⟨?_, h⟩
          refine Option.eq_none_iff_forall_ne_some.mpr fun v' hv' => ?_
          obtain ⟨y, hy, hyv⟩ := (ih hvs).mp hv'
          rcases hx y hy l with hn | hn
          · rw [hn] at h
            cases h
          · rw [hn] at hyv
            cases hyv
        · exact .inr h

theorem Apart.perm (h : Apart vs) {vs' : List Value} (hp : vs.Perm vs') : Apart vs' :=
  (hp.pairwise_iff fun h l => (h l).symm).mp h

theorem topmost_perm (h : Apart vs) {vs' : List Value} (hp : vs.Perm vs') (l : Leaf) :
    topmost vs l.path = topmost vs' l.path := by
  refine Option.ext fun v => ?_
  rw [topmost_eq_some_iff h, topmost_eq_some_iff (h.perm hp)]
  simp only [hp.mem_iff]

theorem winner_perm (henv : env.Perm env') (h : Apart (Variables.layers start env)) :
    winner workDir start env fromFile = winner workDir start env' fromFile := by
  funext l
  rw [winner, winner, topmost_perm h (henv.filterMap _) l]
  rfl

theorem get_eq (h : fileLayer file = .ok fromFile) : get workDir file start env =
    ofLayers [fromFile, Variables.layer start env, argumentLayer workDir] := by
  rw [get, h]
  rfl

theorem get_eq_winners (hfile : fileLayer file = .ok fromFile) (hkeeps : KeepsTables fromFile)
    (henv : ∀ v ∈ Variables.layers start env, KeepsTables v) :
    get workDir file start env = (ofValue (ofLeaves (winner workDir start env fromFile))).mapError
      fun e => .entry e.1 e.2 := by
  have hargs : IsLayer (argumentLayer workDir) := by
    rw [argumentLayer_eq]
    exact isLayer_options none workDir
  rw [get_eq hfile]
  exact ofLayers_eq (isLayer_file hfile hkeeps)
    (fun v hv => Variables.isLayer_of_mem hv (henv v hv)) hargs fun _ => rfl

/-- Each leaf has the value of the highest layer that sets it, and there are settings just if all
these values fit. Nothing else in the layers counts, not even for the error. -/
theorem override_leaf_by_leaf (hfile : fileLayer file = .ok fromFile) (hkeeps : KeepsTables fromFile)
    (henv : ∀ v ∈ Variables.layers start env, KeepsTables v) :
    (∀ s, get workDir file start env = .ok s ↔
      ∀ l : Leaf, l.kind.Admits (winner workDir start env fromFile l) ∧
        l.valueIn s = winner workDir start env fromFile l) ∧
    ((∃ s, get workDir file start env = .ok s) ↔
      ∀ l : Leaf, l.kind.Admits (winner workDir start env fromFile l)) ∧
    (get workDir file start env =
      (ofValue (ofLeaves (winner workDir start env fromFile))).mapError fun e => .entry e.1 e.2) ∧
    (∀ config, ofLayers [fromFile, Variables.layer start env, optionLayer config workDir] =
      get workDir file start env) ∧
    ∀ env', env.Perm env' → Apart (Variables.layers start env) →
      get workDir file start env' = get workDir file start env := by
  have hget : get workDir file start env = _ := get_eq_winners hfile hkeeps henv
  have hok (s : Settings) : get workDir file start env = .ok s ↔
      ∀ l : Leaf, l.kind.Admits (winner workDir start env fromFile l) ∧
        l.valueIn s = winner workDir start env fromFile l := by
    rw [hget, mapError_eq_ok, ofValue_ofLeaves_eq_ok]
  refine ⟨hok, ⟨?_, fun h => ?_⟩, hget, fun config => ?_, fun env' hperm hapart => ?_⟩
  · rintro ⟨s, hs⟩ l
    exact ((hok s).mp hs l).1
  · obtain ⟨s, hs⟩ := exists_of_admits h
    exact ⟨s, (hok s).mpr fun l => ⟨h l, hs l⟩⟩
  · rw [hget]
    exact ofLayers_eq (isLayer_file hfile hkeeps)
      (fun v hv => Variables.isLayer_of_mem hv (henv v hv)) (isLayer_options config workDir)
      (at?_optionLayer config workDir)
  · have henv' : ∀ v ∈ Variables.layers start env', KeepsTables v := fun v hv =>
      henv v ((hperm.filterMap _).mem_iff.mpr hv)
    rw [hget, get_eq_winners hfile hkeeps henv', winner_perm hperm hapart]

/-- The flag in the file is no text, but overridden; the command in the environment leaves the file
its version file. -/
theorem overridden_flag :
    get (some "/w") (.contents "work_dir=true\n[firmware]\nversion_file=\"v\"") "UPDATE_CTRL_"
      [("UPDATE_CTRL_OTHER", "true"), ("update_ctrl_firmware__install", "[a]")] =
      .ok { defaults with
        workDir := "/w",
        firmware := { defaults.firmware with install := ["a"], versionFile := "v" } } := by
  let fromFile : Value :=
    .table [("work_dir", .bool true), ("firmware", .table [("version_file", .text "v")])]
  let env := [("UPDATE_CTRL_OTHER", "true"), ("update_ctrl_firmware__install", "[a]")]
  -- The reader goes through the characters; from the string itself this would not be evaluated.
  have hchars : "work_dir=true\n[firmware]\nversion_file=\"v\"".toList =
      ['w', 'o', 'r', 'k', '_', 'd', 'i', 'r', '=', 't', 'r', 'u', 'e', '\n',
        '[', 'f', 'i', 'r', 'm', 'w', 'a', 'r', 'e', ']', '\n',
        'v', 'e', 'r', 's', 'i', 'o', 'n', '_', 'f', 'i', 'l', 'e', '=', '"', 'v', '"'] := by
    with_unfolding_all rfl
  have hread : Toml.read? "work_dir=true\n[firmware]\nversion_file=\"v\"" = some fromFile := by
    rw [Toml.read?, hchars]
    with_unfolding_all rfl
  have hfile : fileLayer (.contents "work_dir=true\n[firmware]\nversion_file=\"v\"") =
      .ok fromFile := by
    rw [fileLayer, hread]
  have hlayers : Variables.layers "UPDATE_CTRL_" env =
      [.table [("other", .bool true)],
        .table [("firmware", .table [("install", .list [.text "a"])])]] := by
    with_unfolding_all rfl
  have hkeeps : KeepsTables fromFile := by
    intro i x hx
    cases i with
    | firmware => exact ⟨_, (Option.some.inj hx).symm⟩
    | application => cases hx
  have henv : ∀ v ∈ Variables.layers "UPDATE_CTRL_" env, KeepsTables v := by
    rw [hlayers]
    simp only [List.forall_mem_cons, List.not_mem_nil, false_imp_iff, implies_true, and_true]
    constructor
    · intro i x hx
      cases i <;> cases hx
    · intro i x hx
      cases i with
      | firmware => exact ⟨_, (Option.some.inj hx).symm⟩
      | application => cases hx
  refine ((override_leaf_by_leaf hfile hkeeps henv).1 _).mpr fun l => ?_
  rw [winner, hlayers]
  cases l with
  | workDir => exact ⟨.text "/w", rfl⟩
  | printTool => exact ⟨.text _, rfl⟩
  | setTool => exact ⟨.text _, rfl⟩
  | bootIdPath => exact ⟨.text _, rfl⟩
  | rebootCommand => exact ⟨.texts _, rfl⟩
  | pollAttempts => exact ⟨.natural _ 5 (by decide), rfl⟩
  | pollInterval => exact ⟨.natural _ 1000 (by decide), rfl⟩
  | install i =>
      cases i with
      | firmware => exact ⟨.texts ["a"], rfl⟩
      | application => exact ⟨.texts _, rfl⟩
  | rollback i => cases i <;> exact ⟨.texts _, rfl⟩
  | versionFile i =>
      cases i with
      | firmware => exact ⟨.text "v", rfl⟩
      | application => exact ⟨.text _, rfl⟩

end Dualbank.Settings
