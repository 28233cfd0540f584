import Dualbank.Proofs.Device.Recording
import Mathlib.Data.List.Basic

namespace Dualbank

open Plan

namespace BootEnv

open Text

variable {name other value : String} {entries : List (String × String)} {r : Record} {b b' : Board}

theorem isName_iff :
    isName name ↔ name ≠ "" ∧ ∀ c ∈ name.toList, c ≠ '=' ∧ ¬isBlank c := by
  simp [isName, not_or]

theorem equals_not_mem_of_isName (h : isName name) : '=' ∉ name.toList :=
  fun hc => ((isName_iff.mp h).2 _ hc).1 rfl

theorem valueIn_eq_some_iff {cs line rest : List Char} :
    valueIn cs line = some rest ↔ line = cs ++ '=' :: rest := by
  constructor
  · intro h
    rw [valueIn] at h
    split at h
    case isTrue hp =>
        obtain ⟨ds, rfl⟩ := List.isPrefixOf_iff_prefix.mp hp
        rw [List.drop_left] at h
        split at h
        · cases h
          rfl
        · cases h
    case isFalse => cases h
  · rintro rfl
    exact valueIn_append cs rest

/-- A name ends at the first equals sign of its line, since it has none of its own. -/
theorem takeWhile_line {cs : List Char} (h : '=' ∉ cs) (rest : List Char) :
    (cs ++ '=' :: rest).takeWhile (· ≠ '=') = cs := by
  refine takeWhile_append_of_head (fun c hc => ?_) (by simp)
  simpa using fun he : c = '=' => h (he ▸ hc)

theorem valueIn_line (h : isName name) (h' : isName other) (rest : List Char) :
    valueIn name.toList (other.toList ++ '=' :: rest) =
      if other = name then some rest else none := by
  split
  case isTrue he => rw [he, valueIn_append]
  case isFalse he =>
    refine Option.eq_none_iff_forall_ne_some.mpr fun found hf => he ?_
    have hline := congrArg (List.takeWhile (· ≠ '=')) (valueIn_eq_some_iff.mp hf)
    rw [takeWhile_line (equals_not_mem_of_isName h'),
      takeWhile_line (equals_not_mem_of_isName h)] at hline
    exact String.toList_inj.mp hline

def listing (entries : List (String × String)) : String :=
  String.join (entries.map fun e => printed e.1 e.2)

/-- A variable that can be listed: an accepted name, and a value of one line. -/
def IsEntry (e : String × String) : Prop := isName e.1 ∧ '\n' ∉ e.2.toList

instance : DecidablePred IsEntry := fun _ => inferInstanceAs (Decidable (_ ∧ _))

theorem lines_listing_cons {e : String × String} (h : IsEntry e) :
    lines (listing (e :: entries)).toList =
      (e.1.toList ++ '=' :: dropReturn e.2.toList) :: lines (listing entries).toList := by
  obtain ⟨name, value⟩ := e
  have hcs : (listing ((name, value) :: entries)).toList =
      (name.toList ++ '=' :: value.toList) ++ '\n' :: (listing entries).toList := by
    simp [listing, printed]
  have hline : '\n' ∉ name.toList ++ '=' :: value.toList := by
    simp [not_mem_of_isName h.1, h.2]
  rw [hcs, lines, linesAfter_append hline, List.reverse_nil, List.nil_append,
    dropReturn_append _ (by simp), dropReturn_cons (by decide)]
  rfl

theorem valueOf?_listing_cons {e : String × String} (hname : isName name) (h : IsEntry e) :
    valueOf? name (listing (e :: entries)) =
      if e.1 = name then some (trimEnd e.2) else valueOf? name (listing entries) := by
  rw [valueOf?, lines_listing_cons h, List.findSome?_cons, valueIn_line hname h.1]
  by_cases he : e.1 = name
  · rw [if_pos he, if_pos he, Option.map_some, trimEndChars_dropReturn, trimEnd]
  · rw [if_neg he, if_neg he, Option.map_none, valueOf?]

theorem valueOf?_listing (hname : isName name) (h : ∀ e ∈ entries, IsEntry e) :
    valueOf? name (listing entries) = (entries.lookup name).map trimEnd := by
  induction entries with
  | nil => rfl
  | cons e entries ih =>
      obtain ⟨he, hentries⟩ := List.forall_mem_cons.mp h
      rw [valueOf?_listing_cons hname he, ih hentries, List.lookup_cons]
      by_cases hn : e.1 = name
      · simp [hn]
      · have hne : (name == e.1) = false := by simpa using Ne.symm hn
        rw [if_neg hn, hne]

def reading (b : Board) (name : String) : Except BootEnvError (Option String) :=
  if isName name then .ok (b.value? name) else .error (.invalidName name)

theorem gives_read_iff {x : Except BootEnvError (Option String)} :
    Gives (SysCall.rules r Never) (r.env.read name).run b x b' ↔ x = reading b name ∧ b' = b := by
  by_cases hname : isName name
  · have hreading : reading b name = .ok (b.value? name) := if_pos hname
    refine SureOr.gives_iff (SysCall.exists_rules r Never) ?_
    rw [hreading]
    exact sureOr_read hname (fun _ _ _ => trivial) ⟨rfl, rfl⟩ (fun _ hf => hf.1.elim)
      fun _ _ hf => hf.1.elim
  · have hreading : reading b name = .error (.invalidName name) := if_neg hname
    have hcheck : checkName name = .error (.invalidName name) := if_neg hname
    rw [read, hcheck, hreading]
    exact gives_done

theorem gives_write_iff (hname : isName name) {x : Except BootEnvError Unit} :
    Gives (SysCall.rules r Never) (r.env.write name value).run b x b' ↔
      x = .ok () ∧ b' = b.write name value := by
  refine SureOr.gives_iff (SysCall.exists_rules r Never) ?_
  exact sureOr_write hname (fun _ _ _ => trivial) ⟨rfl, rfl⟩ fun _ _ hf => hf.1.elim

theorem reading_write (hname : isName name) (hline : '\n' ∉ value.toList)
    (htrim : trimEnd value = value) : reading (b.write name value) name = .ok (some value) := by
  have hshown : shown value = value := (shown_of_line hline).trans htrim
  rw [reading, if_pos hname, Board.value?, Board.write_vars_self, Option.map_some, hshown]

theorem reading_write_of_ne (h : other ≠ name) :
    reading (b.write name value) other = reading b other := by
  rw [reading, reading, Board.value?, Board.value?, Board.write_vars_of_ne _ h]

/-- The lookup in a listing of variables finds the first entry of the very name, without the white
space at the end of its value, and nothing just if there is none. With tools that store and print
faithfully, a value of one line without such white space is read as it was written, and every other
variable reads as before. -/
theorem lookup_exact (hname : isName name) (hentries : ∀ e ∈ entries, IsEntry e) :
    valueOf? name (listing entries) = (entries.lookup name).map trimEnd ∧
    (valueOf? name (listing entries) = none ↔ ∀ e ∈ entries, e.1 ≠ name) ∧
    ∀ (r : Record) (b : Board) (value : String), '\n' ∉ value.toList → trimEnd value = value →
      ∀ b', (∀ x, Gives (SysCall.rules r Never) (r.env.write name value).run b x b' ↔
          x = .ok () ∧ b' = b.write name value) ∧
        (∀ x, Gives (SysCall.rules r Never) (r.env.read name).run (b.write name value) x b' ↔
          x = .ok (some value) ∧ b' = b.write name value) ∧
        ∀ other, other ≠ name → ∀ x,
          Gives (SysCall.rules r Never) (r.env.read other).run (b.write name value) x b' ↔
            Gives (SysCall.rules r Never) (r.env.read other).run b x b ∧
              b' = b.write name value := by
  have hlookup := valueOf?_listing hname hentries
  refine ⟨hlookup, ?_, fun r b value hline htrim b' => ⟨fun x => gives_write_iff hname, fun x => ?_,
    fun other hne x => ?_⟩⟩
  · rw [hlookup, Option.map_eq_none_iff, List.lookup_eq_none_iff]
    refine forall_congr' fun e => imp_congr_right fun _ => ?_
    rw [bne_iff_ne, ne_comm]
  · rw [gives_read_iff, reading_write hname hline htrim]
  · rw [gives_read_iff, gives_read_iff, reading_write_of_ne hne]
    simp

def lookalikes : List (String × String) :=
  [("boot_order", "A B"), ("args", "boot=2"), ("boot", "a=b \t"), ("boot", "c")]

theorem lookup_among_lookalikes :
    isName "boot" ∧ (∀ e ∈ lookalikes, IsEntry e) ∧
      valueOf? "boot" (listing lookalikes) = some "a=b" ∧
      ∀ (r : Record) (b : Board), Gives (SysCall.rules r Never) (r.env.read "boot").run
        (b.write "boot" "A B") (.ok (some "A B")) (b.write "boot" "A B") := by
  have hname : isName "boot" := by decide +kernel
  have hentries : ∀ e ∈ lookalikes, IsEntry e := by decide +kernel
  obtain ⟨hlookup, -, htools⟩ := lookup_exact hname hentries
  refine ⟨hname, hentries, ?_, fun r b => ?_⟩
  · rw [hlookup]
    decide +kernel
  · obtain ⟨-, hread, -⟩ := htools r b "A B" (by decide +kernel) (by decide +kernel)
      (b.write "boot" "A B")
    exact (hread _).mpr ⟨rfl, rfl⟩

end BootEnv

end Dualbank
