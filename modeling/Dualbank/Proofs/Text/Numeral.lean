import Dualbank.Text.Decimal
import Mathlib.Data.Nat.Digits.Defs
import Mathlib.Tactic.Ring

namespace Dualbank.Text

def digitValue (c : Char) : Nat := c.toNat - 48

def numberOf (ds : List Char) : Nat := Nat.ofDigits 10 (ds.reverse.map digitValue)

/-- A plus sign or none, and at least one digit. -/
def IsNumeral (cs : List Char) (n : Nat) : Prop :=
  ∃ ds, (cs = ds ∨ cs = '+' :: ds) ∧ ds ≠ [] ∧ (∀ c ∈ ds, c.isDigit = true) ∧ numberOf ds = n

variable {bound n v : Nat} {fault : NumberFault} {cs : List Char} {c : Char}

@[simp] theorem numberOf_nil : numberOf [] = 0 := rfl

theorem numberOf_cons (c : Char) (cs : List Char) :
    numberOf (c :: cs) = digitValue c * 10 ^ cs.length + numberOf cs := by
  rw [numberOf, List.reverse_cons, List.map_append, List.map_singleton, Nat.ofDigits_append,
    Nat.ofDigits_singleton, List.length_map, List.length_reverse, numberOf]
  ring

theorem digit?_of_isDigit (h : c.isDigit = true) : digit? c = some (digitValue c) := by
  have hc := Char.isDigit_iff_toNat.mp h
  have hle : '0' ≤ c ∧ c ≤ '9' := by
    simp only [Char.le_def, UInt32.le_iff_toNat_le]
    exact hc
  rw [digit?, if_pos hle, digitValue]

theorem digit?_of_not_isDigit (h : c.isDigit = false) : digit? c = none := by
  have hle : ¬('0' ≤ c ∧ c ≤ '9') := by
    intro hc
    simp only [Char.le_def, UInt32.le_iff_toNat_le] at hc
    have hd : c.isDigit = true := Char.isDigit_iff_toNat.mpr hc
    rw [h] at hd
    cases hd
  rw [digit?, if_neg hle]

/-- A start of the numeral that exceeds the bound makes the whole exceed it. -/
theorem readDigits_eq_ok_iff (hv : v ≤ bound) : readDigits bound fault v cs = .ok n ↔
    (∀ c ∈ cs, c.isDigit = true) ∧ v * 10 ^ cs.length + numberOf cs = n ∧ n ≤ bound := by
  induction cs generalizing v with
  | nil =>
      simp only [readDigits, Except.ok.injEq, List.not_mem_nil, false_imp_iff, implies_true,
        List.length_nil, Nat.pow_zero, Nat.mul_one, numberOf_nil, Nat.add_zero, true_and]
      omega
  | cons c cs ih =>
      cases hc : c.isDigit with
      | false => simp [readDigits, digit?_of_not_isDigit hc, hc]
      | true =>
          have hvalue : v * 10 ^ (c :: cs).length + numberOf (c :: cs) =
              (v * 10 + digitValue c) * 10 ^ cs.length + numberOf cs := by
            rw [numberOf_cons, List.length_cons]
            ring
          rw [readDigits, digit?_of_isDigit hc, hvalue]
          simp only [List.forall_mem_cons, hc, true_and]
          split
          case isTrue hle => exact ih hle
          case isFalse hlt =>
            have hpow : 1 ≤ 10 ^ cs.length := Nat.one_le_pow _ _ (by decide)
            have hgrows := Nat.le_mul_of_pos_right (v * 10 + digitValue c) hpow
            refine iff_of_false nofun ?_
            rintro ⟨-, hn, hle⟩
            omega

theorem isNumeral_plus_cons : IsNumeral ('+' :: cs) n ↔
    cs ≠ [] ∧ (∀ d ∈ cs, d.isDigit = true) ∧ numberOf cs = n := by
  constructor
  · rintro ⟨ds, rfl | h, hne, hds, hn⟩
    · exact absurd (hds '+' List.mem_cons_self) (by decide)
    · obtain ⟨-, rfl⟩ := List.cons.inj h
      exact ⟨hne, hds, hn⟩
  · intro h
    exact ⟨cs, .inr rfl, h⟩

theorem isNumeral_cons_of_ne (hc : c ≠ '+') : IsNumeral (c :: cs) n ↔
    (∀ d ∈ c :: cs, d.isDigit = true) ∧ numberOf (c :: cs) = n := by
  constructor
  · rintro ⟨ds, rfl | h, -, hds, hn⟩
    · exact ⟨hds, hn⟩
    · exact absurd (List.cons.inj h).1 hc
  · intro h
    exact ⟨c :: cs, .inl rfl, List.cons_ne_nil c cs, h⟩

theorem not_isNumeral_nil : ¬IsNumeral [] n := by
  rintro ⟨ds, rfl | h, hne, -⟩
  · exact hne rfl
  · cases h

theorem readNat_eq_ok_iff : readNat bound cs = .ok n ↔ IsNumeral cs n ∧ n ≤ bound := by
  cases cs with
  | nil => exact iff_of_false nofun fun h => not_isNumeral_nil h.1
  | cons c cs =>
      by_cases hc : c = '+'
      · subst hc
        cases cs with
        | nil => simp [readNat, isNumeral_plus_cons]
        | cons d ds =>
            rw [readNat, readDigits_eq_ok_iff (Nat.zero_le bound), isNumeral_plus_cons]
            · simp [and_assoc]
            · simp
      · have hread : readNat bound (c :: cs) = readDigits bound .tooLarge 0 (c :: cs) := by
          simp [readNat, hc]
        rw [hread, readDigits_eq_ok_iff (Nat.zero_le bound), isNumeral_cons_of_ne hc, Nat.zero_mul,
          Nat.zero_add, and_assoc]

theorem IsNumeral.unique {m : Nat} (hn : IsNumeral cs n) (hm : IsNumeral cs m) : n = m := by
  have hread : readNat (max n m) cs = .ok n := readNat_eq_ok_iff.mpr ⟨hn, le_max_left n m⟩
  rw [readNat_eq_ok_iff.mpr ⟨hm, le_max_right n m⟩] at hread
  exact (Except.ok.inj hread).symm

end Dualbank.Text
