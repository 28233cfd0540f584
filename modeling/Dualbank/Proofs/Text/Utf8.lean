import Dualbank.Text.Utf8
import Mathlib.Data.List.Basic

namespace Dualbank.Text

open String (utf8EncodeChar)

variable {a b : UInt8} {bs : Bytes}

@[simp] theorem bits_six (b : UInt8) : bits b 0x3F = b.toNat % 64 :=
  (UInt8.toNat_and ..).trans (Nat.and_two_pow_sub_one_eq_mod _ 6)

@[simp] theorem bits_five (b : UInt8) : bits b 0x1F = b.toNat % 32 :=
  (UInt8.toNat_and ..).trans (Nat.and_two_pow_sub_one_eq_mod _ 5)

@[simp] theorem bits_four (b : UInt8) : bits b 0x0F = b.toNat % 16 :=
  (UInt8.toNat_and ..).trans (Nat.and_two_pow_sub_one_eq_mod _ 4)

@[simp] theorem bits_three (b : UInt8) : bits b 0x07 = b.toNat % 8 :=
  (UInt8.toNat_and ..).trans (Nat.and_two_pow_sub_one_eq_mod _ 3)

theorem between_iff {lo hi : UInt8} :
    between lo hi b = true ↔ lo.toNat ≤ b.toNat ∧ b.toNat ≤ hi.toNat := by
  simp [between, UInt8.le_iff_toNat_le]

theorem isContinuation_iff : isContinuation b = true ↔ 0x80 ≤ b.toNat ∧ b.toNat ≤ 0xBF := by
  simp [isContinuation, between_iff]

theorem isSecond_iff : isSecond a b = true ↔
    0x80 ≤ b.toNat ∧ b.toNat ≤ 0xBF ∧ (a.toNat = 0xE0 → 0xA0 ≤ b.toNat) ∧
      (a.toNat = 0xED → b.toNat ≤ 0x9F) ∧ (a.toNat = 0xF0 → 0x90 ≤ b.toNat) ∧
      (a.toNat = 0xF4 → b.toNat ≤ 0x8F) := by
  unfold isSecond
  simp only [← UInt8.toNat_inj, UInt8.reduceToNat]
  split
  · simp [between_iff]; omega
  split
  · simp [between_iff]; omega
  split
  · simp [between_iff]; omega
  split
  · simp [between_iff]; omega
  · simp [isContinuation_iff]; omega

/-- The number of the character at the front, and how many bytes after the first belong to it. -/
inductive Fronts : UInt8 → Bytes → Nat → Nat → Prop
  | one {a : UInt8} (ha : a.toNat < 0x80) (bs : Bytes) : Fronts a bs a.toNat 0
  | two {a b : UInt8} (ha : 0xC2 ≤ a.toNat ∧ a.toNat < 0xE0) (hb : isSecond a b = true)
      (bs : Bytes) : Fronts a (b :: bs) (a.toNat % 32 * 64 + b.toNat % 64) 1
  | three {a b c : UInt8} (ha : 0xE0 ≤ a.toNat ∧ a.toNat < 0xF0) (hb : isSecond a b = true)
      (hc : isContinuation c = true) (bs : Bytes) :
      Fronts a (b :: c :: bs) ((a.toNat % 16 * 64 + b.toNat % 64) * 64 + c.toNat % 64) 2
  | four {a b c d : UInt8} (ha : 0xF0 ≤ a.toNat ∧ a.toNat ≤ 0xF4) (hb : isSecond a b = true)
      (hc : isContinuation c = true) (hd : isContinuation d = true) (bs : Bytes) :
      Fronts a (b :: c :: d :: bs)
        (((a.toNat % 8 * 64 + b.toNat % 64) * 64 + c.toNat % 64) * 64 + d.toNat % 64) 3

theorem Fronts.first {v n : Nat} (h : Fronts a bs v n) : first a bs = (some (Char.ofNat v), n) := by
  cases h with
  | one ha bs =>
      unfold Text.first
      rw [if_pos (by simpa [UInt8.lt_iff_toNat_lt] using ha)]
  | two ha hb bs =>
      have h₁ : ¬a < 0x80 := by simp [UInt8.lt_iff_toNat_lt]; omega
      have h₂ : between 0xC2 0xF4 a = true := by simp [between_iff]; omega
      have h₃ : a < 0xE0 := by simpa [UInt8.lt_iff_toNat_lt] using ha.2
      simp [Text.first, h₁, h₂, h₃, hb]
  | three ha hb hc bs =>
      have h₁ : ¬a < 0x80 := by simp [UInt8.lt_iff_toNat_lt]; omega
      have h₂ : between 0xC2 0xF4 a = true := by simp [between_iff]; omega
      have h₃ : ¬a < 0xE0 := by simpa [UInt8.lt_iff_toNat_lt] using ha.1
      have h₄ : a < 0xF0 := by simpa [UInt8.lt_iff_toNat_lt] using ha.2
      simp [Text.first, h₁, h₂, h₃, h₄, hb, hc]
  | four ha hb hc hd bs =>
      have h₁ : ¬a < 0x80 := by simp [UInt8.lt_iff_toNat_lt]; omega
      have h₂ : between 0xC2 0xF4 a = true := by simp [between_iff]; omega
      have h₃ : ¬a < 0xE0 := by simp [UInt8.lt_iff_toNat_lt]; omega
      have h₄ : ¬a < 0xF0 := by simpa [UInt8.lt_iff_toNat_lt] using ha.1
      simp [Text.first, h₁, h₂, h₃, h₄, hb, hc, hd]

theorem fronts_of_first {r : Char} {n : Nat} (h : first a bs = (some r, n)) :
    ∃ v, Fronts a bs v n ∧ r = Char.ofNat v := by
  unfold first at h
  split at h
  case isTrue ha =>
    obtain ⟨rfl, rfl⟩ : Char.ofNat a.toNat = r ∧ 0 = n := by simpa using h
    exact ⟨_, .one (by simpa [UInt8.lt_iff_toNat_lt] using ha) bs, rfl⟩
  split at h
  case isFalse => simp at h
  case isTrue ha =>
  obtain ⟨ha, ha'⟩ := between_iff.mp ha
  cases bs with
  | nil => simp at h
  | cons b bs =>
  dsimp only at h
  split at h
  case isTrue => simp at h
  case isFalse hb =>
  have hb : isSecond a b = true := by simpa using hb
  split at h
  case isTrue hlt =>
    obtain ⟨rfl, rfl⟩ : Char.ofNat (a.toNat % 32 * 64 + b.toNat % 64) = r ∧ 1 = n := by
      simpa using h
    exact ⟨_, .two ⟨ha, UInt8.lt_iff_toNat_lt.mp hlt⟩ hb bs, rfl⟩
  case isFalse hlt =>
  have hlt : 0xE0 ≤ a.toNat := by simpa [UInt8.lt_iff_toNat_lt] using hlt
  cases bs with
  | nil => simp at h
  | cons c bs =>
  dsimp only at h
  split at h
  case isTrue => simp at h
  case isFalse hc =>
  have hc : isContinuation c = true := by simpa using hc
  split at h
  case isTrue hlt' =>
    obtain ⟨rfl, rfl⟩ :
        Char.ofNat ((a.toNat % 16 * 64 + b.toNat % 64) * 64 + c.toNat % 64) = r ∧ 2 = n := by
      simpa using h
    exact ⟨_, .three ⟨hlt, UInt8.lt_iff_toNat_lt.mp hlt'⟩ hb hc bs, rfl⟩
  case isFalse hlt' =>
  have hlt' : 0xF0 ≤ a.toNat := by simpa [UInt8.lt_iff_toNat_lt] using hlt'
  cases bs with
  | nil => simp at h
  | cons d bs =>
  dsimp only at h
  split at h
  case isTrue => simp at h
  case isFalse hd =>
    obtain ⟨rfl, rfl⟩ : Char.ofNat
        (((a.toNat % 8 * 64 + b.toNat % 64) * 64 + c.toNat % 64) * 64 + d.toNat % 64) = r ∧
          3 = n := by
      simpa using h
    exact ⟨_, .four ⟨hlt', ha'⟩ hb hc (by simpa using hd) bs, rfl⟩

theorem first_utf8EncodeChar (r : Char) (bs : Bytes) :
    ∃ a t, utf8EncodeChar r = a :: t ∧ first a (t ++ bs) = (some r, t.length) := by
  have hr : Char.ofNat r.toNat = r := Char.ofNat_toNat r
  have hv : r.toNat < 0xD800 ∨ 0xDFFF < r.toNat ∧ r.toNat < 0x110000 := r.valid
  generalize hn : r.toNat = n at hr hv
  have front {a : UInt8} {t : Bytes} {v k : Nat} (h : Fronts a (t ++ bs) v k) (hv : v = n)
      (hk : k = t.length) : first a (t ++ bs) = (some r, t.length) := by
    rw [h.first, hv, hr, hk]
  simp only [utf8EncodeChar, Char.toNat_val, hn]
  -- In each shape the bytes give back the remainders that they were made of.
  split
  · have ha : (UInt8.ofNat n).toNat = n := by simp; omega
    exact ⟨_, [], rfl, front (.one (by omega) bs) (by omega) rfl⟩
  split
  · have ha : (UInt8.ofNat (n / 64 % 32 + 192)).toNat = n / 64 + 192 := by simp; omega
    have hb : (UInt8.ofNat (n % 64 + 128)).toNat = n % 64 + 128 := by simp; omega
    exact ⟨_, [_], rfl, front (.two (by omega) (isSecond_iff.mpr (by omega)) bs) (by omega) rfl⟩
  split
  · have ha : (UInt8.ofNat (n / 4096 % 16 + 224)).toNat = n / 4096 + 224 := by simp; omega
    have hb : (UInt8.ofNat (n / 64 % 64 + 128)).toNat = n / 64 % 64 + 128 := by simp; omega
    have hc : (UInt8.ofNat (n % 64 + 128)).toNat = n % 64 + 128 := by simp; omega
    exact ⟨_, [_, _], rfl, front (.three (by omega) (isSecond_iff.mpr (by omega))
      (isContinuation_iff.mpr (by omega)) bs) (by omega) rfl⟩
  · have ha : (UInt8.ofNat (n / 262144 % 8 + 240)).toNat = n / 262144 + 240 := by simp; omega
    have hb : (UInt8.ofNat (n / 4096 % 64 + 128)).toNat = n / 4096 % 64 + 128 := by simp; omega
    have hc : (UInt8.ofNat (n / 64 % 64 + 128)).toNat = n / 64 % 64 + 128 := by simp; omega
    have hd : (UInt8.ofNat (n % 64 + 128)).toNat = n % 64 + 128 := by simp; omega
    exact ⟨_, [_, _, _], rfl, front (.four (by omega) (isSecond_iff.mpr (by omega))
      (isContinuation_iff.mpr (by omega)) (isContinuation_iff.mpr (by omega)) bs) (by omega) rfl⟩

theorem toNat_ofNat_of_valid {n : Nat} (h : n.isValidChar) : (Char.ofNat n).toNat = n := by
  rw [Char.ofNat, dif_pos h]
  rfl

theorem ofNat_eq_of_toNat {n : Nat} (h : n = b.toNat) : UInt8.ofNat n = b := by
  rw [h, UInt8.ofNat_toNat]

theorem utf8EncodeChar_of_first {r : Char} {n : Nat} (h : first a bs = (some r, n)) :
    utf8EncodeChar r ++ bs.drop n = a :: bs := by
  obtain ⟨v, hv, rfl⟩ := fronts_of_first h
  cases hv with
  | one ha bs =>
      have hr := toNat_ofNat_of_valid (n := a.toNat) (.inl (by omega))
      simp only [utf8EncodeChar, Char.toNat_val, hr]
      rw [if_pos (by omega), ofNat_eq_of_toNat rfl]
      rfl
  | @two b ha hb bs =>
      have hb := isSecond_iff.mp hb
      have hr := toNat_ofNat_of_valid (n := a.toNat % 32 * 64 + b.toNat % 64) (.inl (by omega))
      simp only [utf8EncodeChar, Char.toNat_val, hr]
      rw [if_neg (by omega), if_pos (by omega), ofNat_eq_of_toNat (b := a) (by omega),
        ofNat_eq_of_toNat (b := b) (by omega)]
      rfl
  | @three b c ha hb hc bs =>
      have hb := isSecond_iff.mp hb
      have hc := isContinuation_iff.mp hc
      have hr := toNat_ofNat_of_valid
        (n := (a.toNat % 16 * 64 + b.toNat % 64) * 64 + c.toNat % 64) (by
          unfold Nat.isValidChar; omega)
      simp only [utf8EncodeChar, Char.toNat_val, hr]
      rw [if_neg (by omega), if_neg (by omega), if_pos (by omega),
        ofNat_eq_of_toNat (b := a) (by omega), ofNat_eq_of_toNat (b := b) (by omega),
        ofNat_eq_of_toNat (b := c) (by omega)]
      rfl
  | @four b c d ha hb hc hd bs =>
      have hb := isSecond_iff.mp hb
      have hc := isContinuation_iff.mp hc
      have hd := isContinuation_iff.mp hd
      have hr := toNat_ofNat_of_valid
        (n := ((a.toNat % 8 * 64 + b.toNat % 64) * 64 + c.toNat % 64) * 64 + d.toNat % 64) (by
          unfold Nat.isValidChar; omega)
      simp only [utf8EncodeChar, Char.toNat_val, hr]
      rw [if_neg (by omega), if_neg (by omega), if_neg (by omega),
        ofNat_eq_of_toNat (b := a) (by omega), ofNat_eq_of_toNat (b := b) (by omega),
        ofNat_eq_of_toNat (b := c) (by omega), ofNat_eq_of_toNat (b := d) (by omega)]
      rfl

@[simp] theorem split_nil : split [] = [] := by rw [split]

theorem split_cons (b : UInt8) (bs : Bytes) :
    split (b :: bs) = (first b bs).1 :: split (bs.drop (first b bs).2) := by rw [split]

theorem split_utf8EncodeChar_append (r : Char) (bs : Bytes) :
    split (utf8EncodeChar r ++ bs) = some r :: split bs := by
  obtain ⟨a, t, hr, hfirst⟩ := first_utf8EncodeChar r bs
  rw [hr, List.cons_append, split_cons, hfirst, List.drop_left]

theorem split_eq_map_some_iff {cs : List Char} :
    split bs = cs.map some ↔ bs = cs.flatMap utf8EncodeChar := by
  constructor
  · intro h
    induction cs generalizing bs with
    | nil =>
        cases bs with
        | nil => rfl
        | cons b bs => simp [split_cons] at h
    | cons c cs ih =>
        cases bs with
        | nil => simp at h
        | cons b bs =>
            rw [split_cons, List.map_cons] at h
            obtain ⟨hc, hrest⟩ := List.cons.inj h
            rw [List.flatMap_cons, ← ih hrest]
            exact (utf8EncodeChar_of_first (Prod.ext hc rfl)).symm
  · rintro rfl
    induction cs with
    | nil => simp
    | cons c cs ih => rw [List.flatMap_cons, split_utf8EncodeChar_append, ih, List.map_cons]

theorem mapM_id_eq_some_iff {α : Type} {xs : List (Option α)} {ys : List α} :
    xs.mapM id = some ys ↔ xs = ys.map some := by
  induction xs generalizing ys with
  | nil => cases ys <;> simp
  | cons x xs ih =>
      cases x with
      | none => cases ys <;> simp
      | some x =>
          cases ys with
          | nil => simp [Option.bind_eq_some_iff]
          | cons y ys => simp [Option.bind_eq_some_iff, ih, and_comm]

/-- Exactly the bytes that a text is written in are read, and as that text. -/
theorem decode?_eq_some_iff {s : String} : decode? bs = some s ↔ bs = encode s := by
  rw [decode?, Option.map_eq_some_iff]
  constructor
  · rintro ⟨cs, hcs, rfl⟩
    rw [encode, String.toList_ofList]
    exact split_eq_map_some_iff.mp (mapM_id_eq_some_iff.mp hcs)
  · intro h
    exact ⟨s.toList, mapM_id_eq_some_iff.mpr (split_eq_map_some_iff.mpr h), String.ofList_toList⟩

theorem encode_injective : Function.Injective encode := by
  intro s s' h
  have hs : decode? (encode s) = some s := decode?_eq_some_iff.mpr rfl
  exact (Option.some.inj (hs.symm.trans (decode?_eq_some_iff.mpr h)))

end Dualbank.Text
