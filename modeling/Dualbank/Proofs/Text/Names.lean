import Dualbank.Proofs.Text.Trim
import Dualbank.Target

namespace Dualbank

namespace Text

variable {cs ws : List Char}

theorem lowerAscii_of_not_ascii {c : Char} (h : 128 ≤ c.toNat) : lowerAscii c = c := by
  have hle : ¬('A' ≤ c ∧ c ≤ 'Z') := by
    rintro ⟨-, hz⟩
    simp only [Char.le_def, UInt32.le_iff_toNat_le] at hz
    have hz : c.toNat ≤ 90 := hz
    omega
  rw [lowerAscii, if_neg hle]

theorem lowerChar_of_ne {c : Char} (h : c ≠ '\u0130') (h' : c ≠ '\u212a') :
    lowerChar c = [lowerAscii c] := by
  simp [lowerChar, h, h']

/-- No character of `ws` is one that the two exceptions have, or come to. -/
theorem flatMap_lowerChar_eq_iff
    (hw : ∀ w ∈ ws, w ≠ 'k' ∧ w ≠ '\u0307' ∧ w ≠ '\u0130' ∧ w ≠ '\u212a') :
    cs.flatMap lowerChar = ws ↔ cs.map lowerAscii = ws := by
  induction cs generalizing ws with
  | nil => rfl
  | cons c cs ih =>
      rw [List.flatMap_cons, List.map_cons]
      by_cases hi : c = '\u0130'
      · subst hi
        refine iff_of_false ?_ ?_
        · rintro rfl
          exact (hw '\u0307' (by simp [lowerChar])).2.1 rfl
        · rintro rfl
          exact (hw '\u0130' List.mem_cons_self).2.2.1 rfl
      by_cases hk : c = '\u212a'
      · subst hk
        refine iff_of_false ?_ ?_
        · rintro rfl
          exact (hw 'k' List.mem_cons_self).1 rfl
        · rintro rfl
          exact (hw '\u212a' List.mem_cons_self).2.2.2 rfl
      rw [lowerChar_of_ne hi hk, List.singleton_append]
      cases ws with
      | nil => simp
      | cons w ws =>
          rw [List.cons.injEq, List.cons.injEq, ih fun v hv => hw v (List.mem_cons_of_mem _ hv)]

theorem lower_eq_iff {s w : String}
    (hw : ∀ c ∈ w.toList, c ≠ 'k' ∧ c ≠ '\u0307' ∧ c ≠ '\u0130' ∧ c ≠ '\u212a') :
    lower s = w ↔ s.toList.map lowerAscii = w.toList := by
  rw [lower, ← flatMap_lowerChar_eq_iff hw, ← String.toList_inj, String.toList_ofList]

end Text

namespace Target

open Text

variable {s w : String} {t : Target}

theorem ofDescriptor?_eq_some_iff_lower :
    ofDescriptor? s = some t ↔ lower (trim s) ∈ t.words := by
  unfold ofDescriptor?
  generalize lower (trim s) = w
  split
  case h_8 => rcases t with (_ | _) | _ <;> simp_all [words, word, Image.text]
  all_goals rcases t with (_ | _) | _ <;> simp [words, word, Image.text]

theorem mem_all (t : Target) : t ∈ all := by
  rcases t with (_ | _) | _ <;> decide

theorem plain_of_mem_words (h : w ∈ t.words) :
    (∀ c ∈ w.toList, c ≠ 'k' ∧ c ≠ '\u0307' ∧ c ≠ '\u0130' ∧ c ≠ '\u212a') ∧
      w.toList.map lowerAscii = w.toList := by
  have hall : ∀ t ∈ all, ∀ w ∈ t.words,
      (w.toList.all fun c => c ≠ 'k' ∧ c ≠ '\u0307' ∧ c ≠ '\u0130' ∧ c ≠ '\u212a') = true ∧
        w.toList.map lowerAscii = w.toList := by decide
  simpa only [List.all_eq_true, decide_eq_true_eq] using hall t (mem_all t) w h

theorem isAscii_of_mem_words (h : w ∈ t.words) : ∀ c ∈ w.toList, c.toNat < 128 := by
  have hall : ∀ t ∈ all, ∀ w ∈ t.words, (w.toList.all fun c => c.toNat < 128) = true := by decide
  simpa only [List.all_eq_true, decide_eq_true_eq] using hall t (mem_all t) w h

theorem ofDescriptor?_eq_some_iff :
    ofDescriptor? s = some t ↔ ∃ w ∈ t.words, sameIgnoringAsciiCase w (trim s) = true := by
  rw [ofDescriptor?_eq_some_iff_lower]
  constructor
  · intro h
    obtain ⟨hplain, hlower⟩ := plain_of_mem_words h
    refine ⟨_, h, ?_⟩
    rw [sameIgnoringAsciiCase, beq_iff_eq, hlower]
    exact ((lower_eq_iff hplain).mp rfl).symm
  · rintro ⟨w, hw, hs⟩
    obtain ⟨hplain, hlower⟩ := plain_of_mem_words hw
    rw [sameIgnoringAsciiCase, beq_iff_eq, hlower] at hs
    rwa [(lower_eq_iff hplain).mpr hs.symm]

theorem find?_all_eq (known : Option Target) : all.find? (fun t => known = some t) = known := by
  cases known with
  | none => simp
  | some t => rcases t with (_ | _) | _ <;> rfl

theorem ofArgument?_trim : ofArgument? true (trim s) = ofDescriptor? s := by
  have hknown : (fun t : Target => t.words.any fun w => sameIgnoringAsciiCase w (trim s)) =
      fun t => decide (ofDescriptor? s = some t) := by
    funext t
    rw [Bool.eq_iff_iff, List.any_eq_true, decide_eq_true_eq, ofDescriptor?_eq_some_iff]
  rw [← find?_all_eq (ofDescriptor? s), ← hknown]
  rfl

theorem isAscii_of_ofDescriptor? (h : ofDescriptor? s = some t) :
    ∀ c ∈ (trim s).toList, c.toNat < 128 := by
  intro c hc
  obtain ⟨w, hw, hsame⟩ := ofDescriptor?_eq_some_iff.mp h
  rw [sameIgnoringAsciiCase, beq_iff_eq, (plain_of_mem_words hw).2] at hsame
  have hletter : lowerAscii c ∈ w.toList := by
    rw [hsame]
    exact List.mem_map_of_mem hc
  have hascii := isAscii_of_mem_words hw _ hletter
  by_contra hge
  rw [lowerAscii_of_not_ascii (by omega)] at hascii
  exact hge hascii

/-- A descriptor file names a target exactly if the command line does, letter case ignored, once the
white space around the text is taken away: both know the same names and aliases. A character that is
no ASCII character makes either refuse. -/
theorem readers_agree (s : String) :
    (∀ t, ofDescriptor? s = some t ↔ ofArgument? true (trim s) = some t) ∧
    (∀ t, ofDescriptor? s = some t ↔ ∃ w ∈ t.words, sameIgnoringAsciiCase w (trim s) = true) ∧
    ∀ c ∈ (trim s).toList, 128 ≤ c.toNat →
      ofDescriptor? s = none ∧ ofArgument? true (trim s) = none := by
  rw [ofArgument?_trim]
  refine ⟨fun t => Iff.rfl, fun t => ofDescriptor?_eq_some_iff, ?_⟩
  intro c hc hge
  have hnone : ofDescriptor? s = none := by
    rw [Option.eq_none_iff_forall_ne_some]
    intro t ht
    have hascii := isAscii_of_ofDescriptor? ht c hc
    omega
  exact ⟨hnone, hnone⟩

/-- The lower case of the dotted capital I begins with an ASCII letter. -/
theorem readers_refuse_dotted_capital :
    '\u0130' ∈ (trim "F\u0130RMWARE\n").toList ∧
      ofDescriptor? "F\u0130RMWARE\n" = none ∧ ofArgument? true (trim "F\u0130RMWARE\n") = none ∧
      ofDescriptor? "FIRMWARE\n" = some .firmware := by
  have hmem : '\u0130' ∈ (trim "F\u0130RMWARE\n").toList := by decide
  obtain ⟨-, -, hnone⟩ := readers_agree "F\u0130RMWARE\n"
  obtain ⟨-, hknown, -⟩ := readers_agree "FIRMWARE\n"
  exact ⟨hmem, (hnone _ hmem (by decide)).1, (hnone _ hmem (by decide)).2,
    (hknown .firmware).mpr ⟨"firmware", by decide, by decide⟩⟩

end Target

end Dualbank
