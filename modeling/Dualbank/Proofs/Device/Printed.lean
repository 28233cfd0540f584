import Dualbank.Device.BootEnv
import Dualbank.Phase
import Dualbank.Proofs.Text.Trim
import Mathlib.Data.List.TakeWhile

namespace Dualbank

namespace Text

theorem trimEndChars_dropReturn (cs : List Char) :
    trimEndChars (dropReturn cs) = trimEndChars cs := by
  rw [dropReturn]
  split
  case isTrue h =>
      obtain ⟨ds, rfl⟩ := List.getLast?_eq_some_iff.mp h
      rw [List.dropLast_concat, trimEndChars_concat_blank (by decide)]
  case isFalse => rfl

theorem dropReturn_cons {c : Char} (h : c ≠ '\r') (cs : List Char) :
    dropReturn (c :: cs) = c :: dropReturn cs := by
  cases cs with
  | nil => simp [dropReturn, h]
  | cons d ds =>
      rw [dropReturn, dropReturn, List.getLast?_cons_cons]
      split
      · rfl
      · rfl

theorem dropReturn_append (cs : List Char) {ds : List Char} (h : ds ≠ []) :
    dropReturn (cs ++ ds) = cs ++ dropReturn ds := by
  obtain ⟨es, c, rfl⟩ := (List.eq_nil_or_concat ds).resolve_left h
  by_cases hc : c = '\r'
  · subst hc
    simp [dropReturn, ← List.append_assoc]
  · simp [dropReturn, hc, ← List.append_assoc]

theorem linesAfter_append {start cs rest : List Char} (h : '\n' ∉ cs) :
    linesAfter start (cs ++ '\n' :: rest) =
      dropReturn (start.reverse ++ cs) :: linesAfter [] rest := by
  induction cs generalizing start with
  | nil => simp [linesAfter]
  | cons c cs ih =>
      have hc : ¬c = '\n' := fun hc => h (hc ▸ List.mem_cons_self)
      have hcs : '\n' ∉ cs := fun hcs => h (List.mem_cons_of_mem c hcs)
      rw [List.cons_append, linesAfter, if_neg hc, ih hcs, List.reverse_cons, List.append_assoc,
        List.singleton_append]

theorem lines_concat (cs : List Char) :
    ∃ rest, lines (cs ++ ['\n']) = dropReturn (cs.takeWhile (· ≠ '\n')) :: rest := by
  have hn : '\n' ∉ cs.takeWhile (· ≠ '\n') := by
    intro h
    simpa using List.mem_takeWhile_imp h
  obtain ⟨rest, hrest⟩ : ∃ rest, cs.dropWhile (· ≠ '\n') ++ ['\n'] = '\n' :: rest := by
    cases hd : cs.dropWhile (· ≠ '\n') with
    | nil => exact ⟨[], rfl⟩
    | cons c ds =>
        have hc := List.head?_dropWhile_not (· ≠ '\n') cs
        rw [hd] at hc
        obtain rfl : c = '\n' := by simpa using hc
        exact ⟨ds ++ ['\n'], rfl⟩
  -- What follows the first line starts with its line feed, be it one of `cs` or the last one.
  have hl : lines (cs.takeWhile (· ≠ '\n') ++ (cs.dropWhile (· ≠ '\n') ++ ['\n'])) =
      dropReturn (cs.takeWhile (· ≠ '\n')) :: linesAfter [] rest := by
    rw [hrest]
    exact linesAfter_append hn
  rw [← List.append_assoc, List.takeWhile_append_dropWhile] at hl
  exact ⟨_, hl⟩

theorem isPrefixOf_append (cs ds : List Char) : cs.isPrefixOf (cs ++ ds) := by
  rw [List.isPrefixOf_iff_prefix]
  exact List.prefix_append cs ds

theorem containsChars_append (sub cs : List Char) {ds : List Char} (h : sub.isPrefixOf ds) :
    containsChars sub (cs ++ ds) := by
  induction cs with
  | nil =>
      cases ds with
      | nil => simpa [containsChars] using h
      | cons d ds => rw [List.nil_append, containsChars, h, Bool.true_or]
  | cons c cs ih => rw [List.cons_append, containsChars, ih, Bool.or_true]

end Text

namespace BootEnv

open Text

def printed (name value : String) : String := name ++ "=" ++ value ++ "\n"

def undefinedReport (name : String) : String := "## Error: \"" ++ name ++ "\" not defined\n"

theorem contains_undefinedReport (name : String) :
    contains "not defined" (undefinedReport name) := by
  have h : (undefinedReport name).toList =
      ("## Error: \"" ++ name ++ "\" ").toList ++ ("not defined".toList ++ ['\n']) := by
    simp [undefinedReport]
  rw [contains, h]
  exact containsChars_append _ _ (isPrefixOf_append _ _)

def shown (value : String) : String :=
  String.ofList (trimEndChars (value.toList.takeWhile (· ≠ '\n')))

theorem valueIn_append (name value : List Char) :
    valueIn name (name ++ '=' :: value) = some value := by
  simp [valueIn]

theorem valueOf?_printed {name : String} (h : '\n' ∉ name.toList) (value : String) :
    valueOf? name (printed name value) = some (shown value) := by
  have hc : (printed name value).toList = (name.toList ++ '=' :: value.toList) ++ ['\n'] := by
    simp [printed]
  obtain ⟨rest, hl⟩ := lines_concat (name.toList ++ '=' :: value.toList)
  have ht : (name.toList ++ '=' :: value.toList).takeWhile (· ≠ '\n') =
      name.toList ++ '=' :: value.toList.takeWhile (· ≠ '\n') := by
    rw [List.takeWhile_append_of_pos, List.takeWhile_cons_of_pos (by decide)]
    intro c hc
    simpa using fun he : c = '\n' => h (he ▸ hc)
  rw [ht, dropReturn_append _ (by simp), dropReturn_cons (by decide)] at hl
  rw [valueOf?, hc, hl, List.findSome?_cons, valueIn_append, Option.map_some,
    trimEndChars_dropReturn, shown]

theorem shown_of_line {value : String} (h : '\n' ∉ value.toList) :
    shown value = String.ofList (trimEndChars value.toList) := by
  have ht : value.toList.takeWhile (· ≠ '\n') = value.toList := by
    rw [List.takeWhile_eq_self_iff]
    intro c hc
    simpa using fun he : c = '\n' => h (he ▸ hc)
  rw [shown, ht]

theorem trim_shown {value : String} (h : '\n' ∉ value.toList) : trim (shown value) = trim value := by
  rw [shown_of_line h, trim, String.toList_ofList, trimEndChars_trimStartChars_trimEndChars, trim]

theorem shown_eq {value : String} (h : IsWord value) : shown value = value := by
  have hline : '\n' ∉ value.toList := fun hn => h.2 _ hn (by decide)
  rw [shown_of_line hline, trimEndChars_of_not_blank h.2, String.ofList_toList]

end BootEnv

namespace Phase

theorem isWord_encode (p : Phase) : Text.IsWord p.encode := by
  have h : ∀ q ∈ all, Text.IsWord q.encode := by decide
  exact h p (mem_all p)

theorem decode?_encode (p : Phase) : decode? p.encode = some p := by
  have h : ∀ q ∈ all, decode? q.encode = some q := by decide
  exact h p (mem_all p)

end Phase

end Dualbank
