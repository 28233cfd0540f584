import Dualbank.Proofs.Settings.Merge
import Dualbank.Settings.Layers
import Mathlib.Data.Option.Basic

namespace Dualbank.Settings

open Value (Distinct distinct_of_isPlain distinct_nil)

namespace Variables

variable {n : Nat} {cs rest : List Char} {v : Value} {es es' : Entries} {start : String}
  {env : List (String × String)}

theorem plain_distinct (cs : List Char) : (plain cs).Distinct := by
  refine distinct_of_isPlain ?_
  unfold plain
  split
  · rfl
  · split <;> rfl

/-- By induction on the fuel, for values and for the pairs of a table at once. -/
theorem reads_distinct (n : Nat) :
    (∀ cs v rest, value? n cs = some (v, rest) → v.Distinct) ∧
    ∀ es cs es' rest, pairs? n es cs = some (es', rest) → (Value.table es).Distinct →
      (Value.table es').Distinct := by
  induction n with
  | zero => simp [value?, pairs?]
  | succ n ih =>
      obtain ⟨ihValue, ihPairs⟩ := ih
      constructor
      · intro cs v rest h
        rw [value?] at h
        obtain ⟨⟨w, ds⟩, hw, h⟩ := Option.map_eq_some_iff.mp h
        cases h
        simp only at hw
        split at hw
        · cases hw
          exact distinct_of_isPlain rfl
        · split at hw
          · obtain ⟨⟨es, _⟩, hes, hw⟩ := Option.map_eq_some_iff.mp hw
            cases hw
            exact ihPairs _ _ _ _ hes distinct_nil
          · obtain ⟨⟨vs, _⟩, -, hw⟩ := Option.map_eq_some_iff.mp hw
            cases hw
            exact distinct_of_isPlain rfl
          · obtain ⟨⟨vs, _⟩, -, hw⟩ := Option.map_eq_some_iff.mp hw
            cases hw
            exact distinct_of_isPlain rfl
          · cases hw
            exact distinct_of_isPlain rfl
          · cases hw
          · cases hw
            exact plain_distinct _
      · intro es cs es' rest h hes
        unfold pairs? at h
        split at h
        · cases h
        · cases h
          exact hes
        · rename_i hn _
          cases hn
          obtain ⟨⟨k, ds⟩, -, h⟩ := Option.bind_eq_some_iff.mp h
          simp only at h
          split at h
          · obtain ⟨⟨v, ds⟩, hv, h⟩ := Option.bind_eq_some_iff.mp h
            have hput := hes.put (k := k) (ihValue _ _ _ hv)
            split at h
            · exact ihPairs _ _ _ _ h hput
            · cases h
              exact hput
            · cases h
          · cases h

theorem read_distinct (s : String) : (read s).Distinct := by
  unfold read
  split
  · rename_i v h
    exact (reads_distinct _).1 _ v [] h
  · exact distinct_of_isPlain rfl

end Variables

namespace Toml

variable {cs rest : List Char} {v : Value}

theorem integer?_isPlain (h : integer? cs = some v) : v.isPlain := by
  have hword (n : Int) (h : withinWord n = some v) : v.isPlain := by
    unfold withinWord at h
    split at h
    · cases h
      rfl
    · cases h
  unfold integer? at h
  split at h <;>
    · obtain ⟨n, -, h⟩ := Option.bind_eq_some_iff.mp h
      exact hword _ h

theorem float?_isPlain (h : float? cs = some v) : v.isPlain := by
  have hlast {e? : Option Int} {tooLarge : Int → Bool}
      (h : (do let e ← e?; if tooLarge e then none else return Value.float) = some v) :
      v.isPlain := by
    obtain ⟨e, -, h⟩ := Option.bind_eq_some_iff.mp h
    split at h
    · cases h
    · cases h
      rfl
  unfold float? at h
  simp only at h
  split at h
  · cases h
    rfl
  · obtain ⟨n, -, h⟩ := Option.bind_eq_some_iff.mp h
    split at h <;>
      · obtain ⟨r, -, h⟩ := Option.bind_eq_some_iff.mp h
        split at h
        · exact hlast h
        · exact hlast h
        · split at h <;> exact hlast h
        · exact hlast h

theorem moment?_distinct (h : moment? cs = some v) : v.Distinct := by
  unfold moment? at h
  split at h
  · cases h
    exact distinct_nil.put (k := "moment") (distinct_of_isPlain rfl)
  · cases h

theorem scalar?_distinct (h : scalar? cs = some (v, rest)) : v.Distinct := by
  obtain ⟨w, hw, h⟩ := Option.map_eq_some_iff.mp h
  cases h
  split at hw
  · cases hw
    exact distinct_of_isPlain rfl
  · split at hw
    · cases hw
      exact distinct_of_isPlain rfl
    · rcases (Option.orElse_eq_some _ _ _).mp hw with hw | ⟨-, hw⟩
      · exact moment?_distinct hw
      · rcases (Option.orElse_eq_some _ _ _).mp hw with hw | ⟨-, hw⟩
        · exact distinct_of_isPlain (float?_isPlain hw)
        · exact distinct_of_isPlain (integer?_isPlain hw)

variable {k : String} {i : Item} {items items' inner : Items} {path table : List String}
  {made o : Origin}

def Sound (items : Items) : Prop := (Value.table (entries items)).Distinct

theorem put_of_lookup_eq_none {α : Type} {k : String} {a : α} {es : List (String × α)}
    (h : es.lookup k = none) : Value.put k a es = es ++ [(k, a)] := by
  induction es with
  | nil => rfl
  | cons e es ih =>
      rw [Value.lookup_cons] at h
      by_cases hk : k = e.1
      · simp [hk] at h
      · rw [if_neg hk] at h
        simp [Value.put, Ne.symm hk, ih h]

theorem entries_put : entries (Value.put k i items) = Value.put k i.toValue (entries items) := by
  induction items with
  | nil => simp [Value.put, entries]
  | cons e items ih =>
      obtain ⟨n, j⟩ := e
      by_cases hk : n = k <;> simp [Value.put, entries, hk, ih]

theorem lookup_entries : (entries items).lookup k = (items.lookup k).map Item.toValue := by
  induction items with
  | nil => simp [entries]
  | cons e items ih =>
      obtain ⟨n, j⟩ := e
      rw [entries, Value.lookup_cons, Value.lookup_cons, ih]
      by_cases hk : k = n <;> simp [hk]

theorem sound_nil : Sound [] := by
  unfold Sound
  rw [entries]
  exact distinct_nil

theorem Sound.put (h : Sound items) (hi : i.toValue.Distinct) : Sound (Value.put k i items) := by
  unfold Sound
  rw [entries_put]
  exact Distinct.put h hi

theorem Sound.add (h : Sound items) (hk : items.lookup k = none) (hi : i.toValue.Distinct) :
    Sound (items ++ [(k, i)]) := by
  rw [← put_of_lookup_eq_none hk]
  exact h.put hi

theorem Sound.toValue (h : Sound items) : (Item.table o items).toValue.Distinct := by
  rw [Item.toValue]
  exact h

theorem tables_distinct (each : List Items) : (Item.tables each).toValue.Distinct := by
  rw [Item.toValue]
  exact distinct_of_isPlain rfl

theorem Sound.below (h : Sound items) (hk : items.lookup k = some (.table o inner)) :
    Sound inner := by
  refine Distinct.get? (k := k) h ?_
  rw [Value.get?, lookup_entries, hk, Option.map_some, Item.toValue]

theorem change_sound {f : Origin → Items → Option (Origin × Items)}
    (hf : ∀ o items r, f o items = some r → Sound items → Sound r.2) {r : Origin × Items}
    (h : change made f path o items = some r) (hs : Sound items) : Sound r.2 := by
  induction path generalizing o items r with
  | nil => exact hf o items r h hs
  | cons k ks ih =>
      rw [change] at h
      split at h
      · obtain ⟨⟨o', below⟩, hbelow, h⟩ := Option.bind_eq_some_iff.mp h
        cases h
        exact hs.put (ih hbelow sound_nil).toValue
      · rename_i o' below hk
        split at h
        · cases h
        · obtain ⟨⟨o', below⟩, hbelow, h⟩ := Option.bind_eq_some_iff.mp h
          cases h
          exact hs.put (ih hbelow (hs.below hk)).toValue
      · obtain ⟨⟨o', last⟩, -, h⟩ := Option.bind_eq_some_iff.mp h
        cases h
        exact hs.put (tables_distinct _)
      · cases h
      · cases h

theorem add_sound {r : Origin × Items} (h : add k i o items = some r) (hi : i.toValue.Distinct)
    (hs : Sound items) : Sound r.2 := by
  unfold add at h
  split at h
  · cases h
  · rename_i hk
    cases h
    exact hs.add (Option.not_isSome_iff_eq_none.mp hk) hi

theorem addValue_sound {r : Origin × Items} (h : addValue path v o items = some r)
    (hv : v.Distinct) (hs : Sound items) : Sound r.2 := by
  unfold addValue at h
  split at h
  · cases h
  · refine change_sound (fun o below r h hs => ?_) h hs
    split at h
    · exact add_sound h (by rwa [Item.toValue]) hs
    · cases h

theorem define_sound (h : define path items = some items') (hs : Sound items) : Sound items' := by
  unfold define at h
  split at h
  · cases h
  · obtain ⟨r, hr, rfl⟩ := Option.map_eq_some_iff.mp h
    refine change_sound (fun o below r h hs => ?_) hr hs
    split at h
    · rename_i hk
      cases h
      exact hs.add hk sound_nil.toValue
    · rename_i hk
      cases h
      exact hs.put (hs.below hk).toValue
    · cases h

theorem defineNext_sound (h : defineNext path items = some items') (hs : Sound items) :
    Sound items' := by
  unfold defineNext at h
  split at h
  · cases h
  · obtain ⟨r, hr, rfl⟩ := Option.map_eq_some_iff.mp h
    refine change_sound (fun o below r h hs => ?_) hr hs
    split at h
    · rename_i hk
      cases h
      exact hs.add hk (tables_distinct _)
    · cases h
      exact hs.put (tables_distinct _)
    · cases h

/-- What is read in a value with less fuel is in the induction hypothesis. -/
theorem reads_sound (n : Nat) :
    (∀ depth cs v rest, value? n depth cs = some (v, rest) → v.Distinct) ∧
    (∀ depth items cs items' rest, pairs? n depth items cs = some (items', rest) →
      Sound items → Sound items') ∧
    ∀ depth cs path v rest, pair? n depth cs = some (path, v, rest) → v.Distinct := by
  induction n with
  | zero => simp [value?, pairs?, pair?]
  | succ n ih =>
      obtain ⟨ihValue, ihPairs, ihPair⟩ := ih
      refine ⟨?_, ?_, ?_⟩
      · intro depth cs v rest h
        unfold value? at h
        split at h
        · split at h
          · obtain ⟨⟨vs, _⟩, -, h⟩ := Option.map_eq_some_iff.mp h
            cases h
            exact distinct_of_isPlain rfl
          · cases h
        · split at h
          · split at h
            · cases h
              exact distinct_nil
            · obtain ⟨⟨items, _⟩, hitems, h⟩ := Option.map_eq_some_iff.mp h
              cases h
              exact ihPairs _ _ _ _ _ hitems sound_nil
          · cases h
        · obtain ⟨⟨s, _⟩, -, h⟩ := Option.map_eq_some_iff.mp h
          cases h
          exact distinct_of_isPlain rfl
        · obtain ⟨⟨s, _⟩, -, h⟩ := Option.map_eq_some_iff.mp h
          cases h
          exact distinct_of_isPlain rfl
        · exact scalar?_distinct h
      · intro depth items cs items' rest h hs
        rw [pairs?] at h
        obtain ⟨⟨path, v, cs⟩, hpair, h⟩ := Option.bind_eq_some_iff.mp h
        obtain ⟨⟨o, added⟩, hadded, h⟩ := Option.bind_eq_some_iff.mp h
        have hadded : Sound added := addValue_sound hadded (ihPair _ _ _ _ _ hpair) hs
        simp only at h
        split at h
        · exact ihPairs _ _ _ _ _ h hadded
        · cases h
          exact hadded
        · cases h
      · intro depth cs path v rest h
        rw [pair?] at h
        obtain ⟨⟨path, cs⟩, -, h⟩ := Option.bind_eq_some_iff.mp h
        obtain ⟨cs, -, h⟩ := Option.bind_eq_some_iff.mp h
        obtain ⟨⟨w, cs⟩, hw, h⟩ := Option.bind_eq_some_iff.mp h
        cases h
        exact ihValue _ _ _ _ hw

theorem lines?_sound {n : Nat} (h : lines? n table items cs = some items') (hs : Sound items) :
    Sound items' := by
  induction n generalizing table items cs with
  | zero => cases h
  | succ n ih =>
      rw [lines?] at h
      split at h
      · cases h
        exact hs
      · obtain ⟨⟨path, cs⟩, -, h⟩ := Option.bind_eq_some_iff.mp h
        obtain ⟨opened, hopened, h⟩ := Option.bind_eq_some_iff.mp h
        exact ih h (defineNext_sound hopened hs)
      · obtain ⟨⟨path, cs⟩, -, h⟩ := Option.bind_eq_some_iff.mp h
        obtain ⟨opened, hopened, h⟩ := Option.bind_eq_some_iff.mp h
        exact ih h (define_sound hopened hs)
      · split at h
        · exact ih h hs
        · obtain ⟨⟨path, v, cs⟩, hpair, h⟩ := Option.bind_eq_some_iff.mp h
          obtain ⟨⟨o, changed⟩, hchanged, h⟩ := Option.bind_eq_some_iff.mp h
          obtain ⟨cs, -, h⟩ := Option.bind_eq_some_iff.mp h
          have hv : v.Distinct := (reads_sound _).2.2 _ _ _ _ _ hpair
          exact ih h (change_sound (fun _ _ _ h hs => addValue_sound h hv hs) hchanged hs)

theorem read?_distinct {s : String} (h : read? s = some v) : v.IsTable ∧ v.Distinct := by
  obtain ⟨items, hitems, rfl⟩ := Option.map_eq_some_iff.mp h
  exact ⟨⟨_, rfl⟩, lines?_sound hitems sound_nil⟩

end Toml
end Dualbank.Settings
