import Dualbank.Path
import Mathlib.Data.List.DropRight

namespace Dualbank.Path

variable {p q : String} {ps : List (List Char)}

def names (ps : List (List Char)) : List String :=
  (ps.filter fun c => !namesNothing c).map String.ofList

theorem components_eq (p : String) : components p = (isAbsolute p, names (pieces p)) := rfl

theorem names_append (ps qs : List (List Char)) : names (ps ++ qs) = names ps ++ names qs := by
  rw [names, List.filter_append, List.map_append, names, names]

theorem names_reverse (ps : List (List Char)) : names ps.reverse = (names ps).reverse := by
  rw [names, List.filter_reverse, List.map_reverse, names]

theorem names_dropWhile (ps : List (List Char)) : names (ps.dropWhile namesNothing) = names ps := by
  induction ps with
  | nil => rfl
  | cons c ps ih =>
      by_cases hc : namesNothing c
      · rw [List.dropWhile_cons_of_pos hc, ih, names, names, List.filter_cons_of_neg (by simp [hc])]
      · rw [List.dropWhile_cons_of_neg hc]

theorem names_eq_of_filled {qs : List (List Char)}
    (h : ps.filter (· ≠ []) = qs.filter (· ≠ [])) : names ps = names qs := by
  have hfilled (ps : List (List Char)) : names (ps.filter (· ≠ [])) = names ps := by
    rw [names, List.filter_filter, names]
    refine congrArg _ (List.filter_congr fun c _ => ?_)
    by_cases hc : c = [] <;> simp [hc, namesNothing]
  rw [← hfilled ps, h, hfilled]

theorem slash_not_mem_of_mem_splitOn {cs c : List Char} (h : c ∈ cs.splitOn '/') : '/' ∉ c := by
  induction cs generalizing c with
  | nil => simp_all
  | cons d cs ih =>
      obtain ⟨first, rest, hrest⟩ := List.exists_cons_of_ne_nil (List.splitOn_ne_nil '/' cs)
      rw [List.splitOn_cons_eq_if_modifyHead, hrest] at h
      rw [hrest] at ih
      by_cases hd : d = '/'
      · simp only [hd, BEq.rfl, if_true] at h
        rcases List.mem_cons.mp h with rfl | h
        · exact List.not_mem_nil
        · exact ih h
      · simp only [beq_iff_eq, hd, if_false, List.modifyHead_cons] at h
        rcases List.mem_cons.mp h with rfl | h
        · exact fun hc => (List.mem_cons.mp hc).elim (fun he => hd he.symm)
            (ih (List.mem_cons_self ..))
        · exact ih (List.mem_cons_of_mem _ h)

theorem pieces_of_plain (h : '/' ∉ p.toList) : pieces p = [p.toList] := by
  have hjoined : (List.intercalate ['/'] [p.toList]).splitOn '/' = [p.toList] :=
    List.splitOn_intercalate '/' (by simpa using h) (by simp)
  simpa [pieces] using hjoined

theorem isAbsolute_of_plain (h : '/' ∉ p.toList) : isAbsolute p = false := by
  refine Bool.eq_false_iff.mpr fun habs => h ?_
  exact List.mem_of_head? (by simpa [isAbsolute] using habs)

theorem isAbsolute_iff : isAbsolute p ↔ ∃ ps, ps ≠ [] ∧ pieces p = [] :: ps := by
  rw [isAbsolute, pieces]
  cases p.toList with
  | nil => simp
  | cons c cs =>
      rw [List.head?_cons, List.splitOn_cons_eq_if_modifyHead]
      by_cases hc : c = '/'
      · simp [hc, List.splitOn_ne_nil]
      · obtain ⟨d, ds, hd⟩ := List.exists_cons_of_ne_nil (List.splitOn_ne_nil '/' cs)
        simp [hc, hd]

/-- The path begins with a dot of its own, which is not one of its `components`. -/
def startsHere (p : String) : Bool := (pieces p).head? == some ['.']

def trimmed (ps : List (List Char)) : List (List Char) :=
  (ps.dropWhile namesNothing).rdropWhile namesNothing

theorem relative_of_isAbsolute (h : isAbsolute p) : relative p = ofPieces (trimmed (pieces p)) :=
  if_pos h

theorem relative_of_not_isAbsolute (h : isAbsolute p = false) : relative p = p :=
  if_neg (by simp [h])

theorem names_trimmed (ps : List (List Char)) : names (trimmed ps) = names ps := by
  rw [trimmed, List.rdropWhile, names_reverse, names_dropWhile, names_reverse, List.reverse_reverse,
    names_dropWhile]

theorem not_namesNothing_of_trimmed {c : List Char} {qs : List (List Char)}
    (h : trimmed ps = c :: qs) : ¬namesNothing c := by
  obtain ⟨rest, hrest⟩ := List.rdropWhile_prefix namesNothing (ps.dropWhile namesNothing)
  have hhead : (ps.dropWhile namesNothing).head? = some c := by
    rw [← hrest, ← trimmed, h]
    rfl
  have := List.head?_dropWhile_not namesNothing ps
  rw [hhead] at this
  simpa using this

theorem slash_not_mem_of_mem_trimmed {c : List Char} (h : c ∈ trimmed (pieces p)) : '/' ∉ c := by
  have hstart := List.rdropWhile_prefix namesNothing ((pieces p).dropWhile namesNothing)
  exact slash_not_mem_of_mem_splitOn ((List.dropWhile_suffix _).mem (hstart.mem h))

theorem pieces_relative (h : isAbsolute p) :
    trimmed (pieces p) = [] ∧ pieces (relative p) = [[]] ∨
      ∃ c cs, trimmed (pieces p) = c :: cs ∧ pieces (relative p) = c :: cs ∧ ¬namesNothing c := by
  rw [relative_of_isAbsolute h]
  cases ht : trimmed (pieces p) with
  | nil => exact .inl ⟨rfl, rfl⟩
  | cons c cs =>
      refine .inr ⟨c, cs, rfl, ?_, not_namesNothing_of_trimmed ht⟩
      rw [pieces, ofPieces, String.toList_ofList]
      refine List.splitOn_intercalate '/' (fun d hd => ?_) (List.cons_ne_nil _ _)
      exact slash_not_mem_of_mem_trimmed (ht ▸ hd)

theorem names_relative (p : String) : names (pieces (relative p)) = names (pieces p) := by
  by_cases h : isAbsolute p
  · rw [← names_trimmed (pieces p)]
    rcases pieces_relative h with ⟨ht, hr⟩ | ⟨c, cs, ht, hr, -⟩
    · rw [ht, hr]
      rfl
    · rw [ht, hr]
  · rw [relative_of_not_isAbsolute (Bool.eq_false_iff.mpr h)]

@[simp] theorem isAbsolute_relative (p : String) : isAbsolute (relative p) = false := by
  by_cases h : isAbsolute p
  · refine Bool.eq_false_iff.mpr fun hr => ?_
    obtain ⟨ps, hne, hps⟩ := isAbsolute_iff.mp hr
    rcases pieces_relative h with ⟨-, he⟩ | ⟨c, cs, -, he, hc⟩
    · rw [he] at hps
      exact hne (List.cons.inj hps).2.symm
    · rw [he] at hps
      rw [(List.cons.inj hps).1] at hc
      exact hc rfl
  · rw [relative_of_not_isAbsolute (Bool.eq_false_iff.mpr h)]
    exact Bool.eq_false_iff.mpr h

theorem startsHere_relative (p : String) : startsHere (relative p) = startsHere p := by
  by_cases h : isAbsolute p
  · obtain ⟨ps, -, hps⟩ := isAbsolute_iff.mp h
    have hp : startsHere p = false := by
      rw [startsHere, hps]
      rfl
    rw [hp, startsHere]
    rcases pieces_relative h with ⟨-, hr⟩ | ⟨c, cs, -, hr, hc⟩
    · rw [hr]
      rfl
    · rw [hr, List.head?_cons, beq_eq_false_iff_ne]
      rintro ⟨rfl⟩
      exact hc rfl
  · rw [relative_of_not_isAbsolute (Bool.eq_false_iff.mpr h)]

theorem components_relative (p : String) : components (relative p) = (false, (components p).2) := by
  rw [components_eq, isAbsolute_relative, names_relative, components_eq]

theorem join_of_isAbsolute (h : isAbsolute q) : join p q = q := if_pos h

theorem isAbsolute_join (h : isAbsolute q = false) : isAbsolute (join p q) = isAbsolute p := by
  rw [join, if_neg (by simp [h])]
  cases hp : p.toList with
  | nil =>
      rw [String.toList_eq_nil_iff.mp hp, if_pos (by simp), String.empty_append, h]
      rfl
  | cons c cs =>
      rw [isAbsolute, isAbsolute]
      split <;> simp [hp]

/-- The pieces of a joined path are those of its parts, but for one that is empty. -/
theorem pieces_join (h : isAbsolute q = false) : ∃ ps, pieces (join p q) = ps ++ pieces q ∧
    ps.filter (· ≠ []) = (pieces p).filter (· ≠ []) ∧
      ps.head? = if p = "" then none else (pieces p).head? := by
  rw [join, if_neg (by simp [h])]
  by_cases hp : p = ""
  · subst hp
    exact ⟨[], by simp, rfl, rfl⟩
  · rw [if_neg hp]
    by_cases hlast : p.toList.getLast? = some '/'
    · obtain ⟨cs, hcs⟩ := List.getLast?_eq_some_iff.mp hlast
      have hpieces : pieces p = cs.splitOn '/' ++ [[]] := by
        rw [pieces, hcs, List.splitOn_append_cons_self, List.splitOn_nil]
      refine ⟨cs.splitOn '/', ?_, ?_, ?_⟩
      · rw [if_pos (by simp [hlast]), pieces, String.toList_append, hcs, List.append_assoc,
          List.singleton_append, List.splitOn_append_cons_self, pieces]
      · rw [hpieces, List.filter_append]
        exact (List.append_nil _).symm
      · rw [hpieces, List.head?_append_of_ne_nil _ (List.splitOn_ne_nil _ _)]
    · refine ⟨pieces p, ?_, rfl, rfl⟩
      rw [if_neg (by simp [hlast, hp]), pieces, String.toList_append, String.toList_append,
        List.append_assoc]
      exact List.splitOn_append_cons_self ..

theorem components_join (h : isAbsolute q = false) :
    components (join p q) = ((components p).1, (components p).2 ++ (components q).2) := by
  obtain ⟨ps, hps, hfilled, -⟩ := pieces_join (p := p) h
  rw [components_eq, isAbsolute_join h, hps, names_append, names_eq_of_filled hfilled,
    components_eq, components_eq]

theorem startsHere_join (h : isAbsolute q = false) :
    startsHere (join p q) = if p = "" then startsHere q else startsHere p := by
  obtain ⟨ps, hps, -, hhead⟩ := pieces_join (p := p) h
  rw [startsHere, hps, List.head?_append, hhead]
  split
  · rfl
  · rw [Option.or_of_isSome, startsHere]
    exact List.isSome_head?.mpr (List.splitOn_ne_nil _ _)

def IsBelow (directory path : String) : Prop :=
  (components directory).1 = (components path).1 ∧
    (components directory).2 <+: (components path).2

instance (directory path : String) : Decidable (IsBelow directory path) :=
  inferInstanceAs (Decidable (_ ∧ _))

theorem isBelow_join (h : isAbsolute q = false) : IsBelow p (join p q) := by
  rw [IsBelow, components_join h]
  exact ⟨rfl, List.prefix_append ..⟩

end Dualbank.Path
