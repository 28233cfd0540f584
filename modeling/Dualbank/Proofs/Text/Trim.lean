import Dualbank.Text.Blank
import Mathlib.Data.List.DropRight
import Mathlib.Data.List.Induction
import Mathlib.Data.List.TakeWhile

namespace Dualbank.Text

/-- One line, not empty, without white space. -/
def IsWord (s : String) : Prop := s ≠ "" ∧ ∀ c ∈ s.toList, ¬isBlank c

instance (s : String) : Decidable (IsWord s) :=
  decidable_of_iff (s ≠ "" ∧ s.toList.all fun c => !isBlank c) (by simp [IsWord])

theorem takeWhile_append_of_head {α : Type} {p : α → Bool} {as bs : List α} (ha : ∀ a ∈ as, p a)
    (hb : ∀ b ∈ bs.head?, ¬p b) : (as ++ bs).takeWhile p = as := by
  rw [List.takeWhile_append_of_pos ha]
  cases bs with
  | nil => exact List.append_nil as
  | cons b bs => rw [List.takeWhile_cons_of_neg (hb b rfl), List.append_nil]

theorem trimStartChars_of_not_blank {cs : List Char} (h : ∀ c ∈ cs, ¬isBlank c) :
    trimStartChars cs = cs := by
  rw [trimStartChars, List.dropWhile_eq_self_iff]
  intro hl
  exact h _ (List.getElem_mem hl)

theorem trimEndChars_of_not_blank {cs : List Char} (h : ∀ c ∈ cs, ¬isBlank c) :
    trimEndChars cs = cs := by
  have hr : ∀ c ∈ cs.reverse, ¬isBlank c := fun c hc => h c (List.mem_reverse.mp hc)
  have hd : cs.reverse.dropWhile isBlank = cs.reverse := trimStartChars_of_not_blank hr
  rw [trimEndChars, hd, List.reverse_reverse]

theorem IsWord.trim_eq {s : String} (h : IsWord s) : trim s = s := by
  rw [trim, trimStartChars_of_not_blank h.2, trimEndChars_of_not_blank h.2, String.ofList_toList]

theorem trimEndChars_concat_blank {cs : List Char} {c : Char} (h : isBlank c) :
    trimEndChars (cs ++ [c]) = trimEndChars cs := by
  rw [trimEndChars, List.reverse_append, List.reverse_singleton, List.singleton_append,
    List.dropWhile_cons_of_pos h, trimEndChars]

theorem trimStartChars_append_of_blank {bs cs : List Char} (h : ∀ c ∈ bs, isBlank c) :
    trimStartChars (bs ++ cs) = trimStartChars cs := by
  rw [trimStartChars, List.dropWhile_append_of_pos h, trimStartChars]

theorem trimEndChars_append_of_blank {bs cs : List Char} (h : ∀ c ∈ bs, isBlank c) :
    trimEndChars (cs ++ bs) = trimEndChars cs := by
  induction bs using List.reverseRecOn with
  | nil => rw [List.append_nil]
  | append_singleton bs c ih =>
      rw [← List.append_assoc, trimEndChars_concat_blank (h c (by simp))]
      exact ih fun d hd => h d (List.mem_append_left _ hd)

theorem IsWord.trim_surrounded {s w : String} {before after : List Char} (h : IsWord w)
    (hs : s.toList = before ++ w.toList ++ after) (hb : ∀ c ∈ before, isBlank c)
    (ha : ∀ c ∈ after, isBlank c) : trim s = w := by
  obtain ⟨d, ds, hd⟩ := List.exists_cons_of_ne_nil fun hnil => h.1 (String.toList_eq_nil_iff.mp hnil)
  have hstart : trimStartChars (w.toList ++ after) = w.toList ++ after := by
    rw [hd, List.cons_append, trimStartChars, List.dropWhile_cons_of_neg (h.2 d (by simp [hd]))]
  rw [trim, hs, List.append_assoc, trimStartChars_append_of_blank hb, hstart,
    trimEndChars_append_of_blank ha, trimEndChars_of_not_blank h.2, String.ofList_toList]

theorem trimEndChars_trimStartChars_trimEndChars (cs : List Char) :
    trimEndChars (trimStartChars (trimEndChars cs)) = trimEndChars (trimStartChars cs) := by
  induction cs using List.reverseRecOn with
  | nil => rfl
  | append_singleton cs c ih =>
      by_cases hc : isBlank c
      · rw [trimEndChars_concat_blank hc, ih, trimStartChars, trimStartChars,
          List.dropWhile_append, List.dropWhile_cons_of_pos hc, List.dropWhile_nil]
        split
        · rename_i hnil
          rw [List.isEmpty_iff.mp hnil]
        · exact (trimEndChars_concat_blank hc).symm
      · have hend : trimEndChars (cs ++ [c]) = cs ++ [c] := by
          rw [trimEndChars, List.reverse_append, List.reverse_singleton, List.singleton_append,
            List.dropWhile_cons_of_neg hc, List.reverse_cons, List.reverse_reverse]
        rw [hend]

@[simp] theorem trim_trim (s : String) : trim (trim s) = trim s := by
  have htrim := trimEndChars_trimStartChars_trimEndChars (trimStartChars s.toList)
  have hstart : trimStartChars (trimStartChars s.toList) = trimStartChars s.toList :=
    List.dropWhile_idempotent ..
  rw [trim, trim, String.toList_ofList, htrim, hstart]

end Dualbank.Text
