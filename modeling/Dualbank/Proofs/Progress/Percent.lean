import Dualbank.Staging

namespace Dualbank

open Text (maxU64)

namespace ProgressOutcome

def ofPercent (percent : Nat) : ProgressOutcome :=
  if percent = 0 then noDownloadStarted
  else if percent < 100 then inProgress percent
  else finished

/-- How much of the expected bytes is there, counted without a bound. -/
def exact (actual expected : Nat) : ProgressOutcome :=
  if expected ≤ actual then finished
  else if 100 * actual / expected = 0 then noDownloadStarted
  else inProgress (100 * actual / expected)

/-- The order in which a download goes on. Waiting for the location stands apart from it. -/
inductive NoFurther : ProgressOutcome → ProgressOutcome → Prop
  | refl (o : ProgressOutcome) : NoFurther o o
  | started (p : Nat) : NoFurther noDownloadStarted (inProgress p)
  | grown {p q : Nat} (h : p ≤ q) : NoFurther (inProgress p) (inProgress q)
  | done : NoFurther noDownloadStarted finished
  | completed (p : Nat) : NoFurther (inProgress p) finished

variable {a b n p q : Nat}

@[simp] theorem ofPercent_zero : ofPercent 0 = noDownloadStarted := rfl

theorem ofPercent_of_lt (h : p ≠ 0) (h' : p < 100) : ofPercent p = inProgress p := by
  rw [ofPercent, if_neg h, if_pos h']

theorem ofPercent_of_le (h : 100 ≤ p) : ofPercent p = finished := by
  rw [ofPercent, if_neg (by omega), if_neg (by omega)]

theorem ofPercent_eq_inProgress_iff : ofPercent p = inProgress q ↔ p = q ∧ 1 ≤ q ∧ q ≤ 99 := by
  unfold ofPercent
  split
  · simp only [reduceCtorEq, false_iff]
    omega
  · split <;> simp only [inProgress.injEq, reduceCtorEq, false_iff] <;> omega

theorem ofPercent_mono (h : p ≤ q) : NoFurther (ofPercent p) (ofPercent q) := by
  rcases Nat.eq_zero_or_pos p with rfl | hp
  · rcases Nat.eq_zero_or_pos q with rfl | hq
    · exact .refl _
    rcases Nat.lt_or_ge q 100 with hq' | hq'
    · rw [ofPercent_zero, ofPercent_of_lt (by omega) hq']
      exact .started q
    · rw [ofPercent_zero, ofPercent_of_le hq']
      exact .done
  rcases Nat.lt_or_ge p 100 with hp' | hp'
  · rw [ofPercent_of_lt (by omega) hp']
    rcases Nat.lt_or_ge q 100 with hq' | hq'
    · rw [ofPercent_of_lt (by omega) hq']
      exact .grown h
    · rw [ofPercent_of_le hq']
      exact .completed p
  · rw [ofPercent_of_le hp', ofPercent_of_le (Nat.le_trans hp' h)]
    exact .refl _

theorem ofSizes_eq_ofPercent (a n : Nat) : ofSizes a n = ofPercent (min (a * 100) maxU64 / n) := rfl

theorem exact_eq_ofPercent (hn : 0 < n) (a : Nat) : exact a n = ofPercent (100 * a / n) := by
  have hall : n ≤ a ↔ 100 ≤ 100 * a / n := by
    rw [Nat.le_div_iff_mul_le hn]
    omega
  unfold exact
  split
  case isTrue h => exact (ofPercent_of_le (hall.mp h)).symm
  case isFalse h =>
    split
    case isTrue h' => rw [h', ofPercent_zero]
    case isFalse h' => exact (ofPercent_of_lt h' (Nat.lt_of_not_le (mt hall.mpr h))).symm

theorem ofSizes_of_fits (hn : 0 < n) (h : 100 * a ≤ maxU64) : ofSizes a n = exact a n := by
  rw [ofSizes_eq_ofPercent, exact_eq_ofPercent hn, Nat.mul_comm a, Nat.min_eq_left h]

theorem ofSizes_of_exceeds (h : maxU64 < 100 * a) : ofSizes a n = ofPercent (maxU64 / n) := by
  rw [ofSizes_eq_ofPercent, Nat.mul_comm a, Nat.min_eq_right (Nat.le_of_lt h)]

theorem ofSizes_of_both_exceed (hn : n ≤ maxU64) (ha : maxU64 < 100 * a)
    (h : maxU64 < 100 * n) : ofSizes a n = inProgress (maxU64 / n) := by
  have hpos : 0 < n := by omega
  rw [ofSizes_of_exceeds ha]
  refine ofPercent_of_lt (Nat.ne_of_gt (Nat.div_pos hn hpos)) ?_
  rwa [Nat.div_lt_iff_lt_mul hpos]

/-- Where the percentage is the exact one: the sizes fit, or the cut product happens to have the
same quotient. -/
theorem ofSizes_eq_exact_iff (hn : 0 < n) (hmax : n ≤ maxU64) : ofSizes a n = exact a n ↔
    100 * a ≤ maxU64 ∨ 100 * n ≤ maxU64 ∨ 100 * a / n = maxU64 / n := by
  rcases Nat.lt_or_ge maxU64 (100 * a) with ha | ha
  case inr => exact iff_of_true (ofSizes_of_fits hn ha) (.inl ha)
  rcases Nat.lt_or_ge maxU64 (100 * n) with hbig | hbig
  case inr =>
    refine iff_of_true ?_ (.inr (.inl hbig))
    have hall : n ≤ a := by omega
    rw [ofSizes_of_exceeds ha, exact, if_pos hall]
    exact ofPercent_of_le ((Nat.le_div_iff_mul_le hn).mpr hbig)
  rw [ofSizes_of_both_exceed hmax ha hbig, exact_eq_ofPercent hn, eq_comm,
    ofPercent_eq_inProgress_iff]
  constructor
  · rintro ⟨h, -⟩
    exact .inr (.inr h)
  · rintro (h | h | h)
    · omega
    · omega
    · have hlt : maxU64 / n < 100 := by rwa [Nat.div_lt_iff_lt_mul hn]
      exact ⟨h, Nat.div_pos hmax hn, by omega⟩

theorem ofSizes_noFurther_exact (hn : 0 < n) (a : Nat) : NoFurther (ofSizes a n) (exact a n) := by
  rw [ofSizes_eq_ofPercent, exact_eq_ofPercent hn, Nat.mul_comm a]
  exact ofPercent_mono (Nat.div_le_div_right (Nat.min_le_left _ _))

theorem ofSizes_mono (h : a ≤ b) (n : Nat) : NoFurther (ofSizes a n) (ofSizes b n) := by
  rw [ofSizes_eq_ofPercent, ofSizes_eq_ofPercent]
  refine ofPercent_mono (Nat.div_le_div_right ?_)
  omega

theorem ofSizes_eq_inProgress (h : ofSizes a n = inProgress p) : 1 ≤ p ∧ p ≤ 99 :=
  (ofPercent_eq_inProgress_iff.mp h).2

theorem ofSizes_ne_waitingToStart (a n : Nat) : ofSizes a n ≠ waitingToStart := by
  rw [ofSizes_eq_ofPercent]
  unfold ofPercent
  split
  · simp
  · split <;> simp

end ProgressOutcome

end Dualbank
