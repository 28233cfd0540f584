import Dualbank.Error
import Dualbank.Proofs.Device.Printed
import Dualbank.Proofs.Text.Numeral

namespace Dualbank.Phase

open Text

variable {p : Phase} {n : Nat} {s : String}

theorem number_le (p : Phase) : p.number ≤ 12 := by
  have h : ∀ q ∈ all, q.number ≤ 12 := by decide
  exact h p (mem_all p)

theorem exists_number (h : n ≤ 12) : ∃ p : Phase, p.number = n := by
  have hall : ∀ m ∈ List.range 13, ∃ q ∈ all, q.number = m := by decide
  obtain ⟨p, -, hp⟩ := hall n (List.mem_range.mpr (by omega))
  exact ⟨p, hp⟩

theorem ofNumber?_eq_some_iff : ofNumber? n = some p ↔ p.number = n := by
  constructor
  · intro h
    simpa using List.find?_some h
  · rintro rfl
    exact ofNumber?_number p

theorem decode?_eq_some_iff : decode? s = some p ↔ IsNumeral (trim s).toList p.number := by
  constructor
  · intro h
    rw [decode?] at h
    cases hread : readNat maxU8 (trim s).toList with
    | error e => simp [hread] at h
    | ok n =>
        rw [hread] at h
        rw [ofNumber?_eq_some_iff.mp h]
        exact (readNat_eq_ok_iff.mp hread).1
  · intro h
    have hbound : p.number ≤ maxU8 := p.number_le.trans (by decide)
    rw [decode?, readNat_eq_ok_iff.mpr ⟨h, hbound⟩]
    exact ofNumber?_number p

theorem decode?_eq_none_iff :
    decode? s = none ↔ ¬∃ n ≤ 12, IsNumeral (trim s).toList n := by
  rw [Option.eq_none_iff_forall_ne_some, not_exists]
  constructor
  · rintro h n ⟨hn, hs⟩
    obtain ⟨p, rfl⟩ := exists_number hn
    exact h p (decode?_eq_some_iff.mpr hs)
  · intro h p hp
    exact h p.number ⟨p.number_le, decode?_eq_some_iff.mp hp⟩

theorem read_eq_ok_iff : read s = .ok p ↔ decode? s = some p := by
  rw [read]
  cases decode? s <;> simp

theorem read_eq_error_iff {e : Error} :
    read s = .error e ↔ e = .unknownPhase s ∧ decode? s = none := by
  rw [read]
  cases decode? s <;> simp [eq_comm]

theorem decode?_surrounded {before after : List Char}
    (hs : s.toList = before ++ p.encode.toList ++ after) (hb : ∀ c ∈ before, isBlank c)
    (ha : ∀ c ∈ after, isBlank c) : decode? s = some p := by
  have htrim := p.isWord_encode.trim_surrounded hs hb ha
  rw [decode?_eq_some_iff, htrim, ← p.isWord_encode.trim_eq, ← decode?_eq_some_iff]
  exact decode?_encode p

/-- Without the white space around it, a text that is read as a phase is a numeral up to twelve, and
that of the phase. Every other text is unknown as it stands, also one of a greater number. A phase
that was written comes back, whatever white space is put around it. -/
theorem read_exactly (s : String) :
    (∀ p, read s = .ok p ↔ IsNumeral (trim s).toList p.number) ∧
    ((∃ p, read s = .ok p) ↔ ∃ n ≤ 12, IsNumeral (trim s).toList n) ∧
    (∀ e, read s = .error e ↔ e = .unknownPhase s ∧ ¬∃ n ≤ 12, IsNumeral (trim s).toList n) ∧
    (∀ n, 13 ≤ n → IsNumeral (trim s).toList n → read s = .error (.unknownPhase s)) ∧
    ∀ (p : Phase) (before after : String), (∀ c ∈ before.toList, isBlank c) →
      (∀ c ∈ after.toList, isBlank c) → s = before ++ p.encode ++ after → read s = .ok p := by
  have hok : ∀ p, read s = .ok p ↔ IsNumeral (trim s).toList p.number := fun p =>
    read_eq_ok_iff.trans decode?_eq_some_iff
  have herror : ∀ e, read s = .error e ↔
      e = .unknownPhase s ∧ ¬∃ n ≤ 12, IsNumeral (trim s).toList n := fun e =>
    read_eq_error_iff.trans (and_congr_right fun _ => decode?_eq_none_iff)
  refine ⟨hok, ?_, herror, ?_, ?_⟩
  · constructor
    · rintro ⟨p, hp⟩
      exact ⟨p.number, p.number_le, (hok p).mp hp⟩
    · rintro ⟨n, hn, hs⟩
      obtain ⟨p, rfl⟩ := exists_number hn
      exact ⟨p, (hok p).mpr hs⟩
  · intro n hn hs
    refine (herror _).mpr ⟨rfl, ?_⟩
    rintro ⟨m, hm, hs'⟩
    have hsame := hs.unique hs'
    omega
  · intro p before after hb ha hs
    have htext : s.toList = before.toList ++ p.encode.toList ++ after.toList := by simp [hs]
    exact read_eq_ok_iff.mpr (decode?_surrounded htext hb ha)

theorem read_twelve_and_beyond :
    read "\u3000\t12\n" = .ok (.reverted .both) ∧ read "268" = .error (.unknownPhase "268") := by
  obtain ⟨-, -, -, -, hsurrounded⟩ := read_exactly "\u3000\t12\n"
  obtain ⟨-, -, -, hgreater, -⟩ := read_exactly "268"
  have hbefore : "\u3000\t".toList.all isBlank = true := by decide
  have hafter : "\n".toList.all isBlank = true := by decide
  have hdigits : (trim "268").toList.all Char.isDigit = true := by decide
  have hnumeral : IsNumeral (trim "268").toList 268 :=
    ⟨_, .inl rfl, by decide, List.all_eq_true.mp hdigits, by decide⟩
  exact ⟨hsurrounded (.reverted .both) "\u3000\t" "\n" (List.all_eq_true.mp hbefore)
    (List.all_eq_true.mp hafter) (by decide), hgreater 268 (by decide) hnumeral⟩

end Dualbank.Phase
