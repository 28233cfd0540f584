import Dualbank.Settings.Value
import Mathlib.Data.List.Basic

namespace Dualbank.Settings.Value

variable {α : Type} {k k' : String} {a : α} {es os : Entries} {v x old new : Value} {p : List String}

def names (es : List (String × α)) : List String := es.map Prod.fst

def get? : Value → String → Option Value
  | table es, k => es.lookup k
  | _, _ => none

def at? : Value → List String → Option Value
  | v, [] => some v
  | v, k :: ks => (v.get? k).bind fun x => x.at? ks

def IsTable (v : Value) : Prop := ∃ es, v = table es

def isPlain : Value → Bool
  | table _ => false
  | _ => true

/-- No table on the way down holds a name twice. -/
def Distinct (v : Value) : Prop := ∀ p es, v.at? p = some (table es) → (names es).Nodup

/-- Above the end of the path there is nothing but tables, as far as there is anything. -/
def LeadsTo : Value → List String → Prop
  | _, [] => True
  | v, k :: ks => v.IsTable ∧ ∀ x, v.get? k = some x → x.LeadsTo ks

def onto (o : Option Value) (v : Value) : Value := o.elim v fun o => o.merge v

/-- A value but for what a table holds. -/
def shape : Value → Value
  | table _ => table []
  | v => v

/-- What the last of the values has at a path that has something there. -/
def topmost (vs : List Value) (p : List String) : Option Value := vs.reverse.findSome? (·.at? p)

@[simp] theorem onto_none : onto none = id := rfl

@[simp] theorem onto_some : onto (some o) v = o.merge v := rfl

theorem lookup_cons {n : String} {x : α} {es : List (String × α)} :
    List.lookup k ((n, x) :: es) = if k = n then some x else es.lookup k := by
  by_cases h : k = n
  · simp [h]
  · have hne : (k == n) = false := by simpa using h
    rw [List.lookup_cons, hne, if_neg h]

theorem lookup_eq_none_iff {es : List (String × α)} : es.lookup k = none ↔ k ∉ names es := by
  induction es with
  | nil => simp [names]
  | cons e es ih =>
      rw [lookup_cons]
      by_cases h : k = e.1 <;> simp_all [names]

theorem lookup_put (es : List (String × α)) :
    (put k a es).lookup k' = if k' = k then some a else es.lookup k' := by
  induction es with
  | nil => rw [put, lookup_cons]
  | cons e es ih =>
      obtain ⟨n, x⟩ := e
      by_cases hn : n = k
      · simp only [put, hn, if_true, lookup_cons]
        by_cases h : k' = k <;> simp [h]
      · simp only [put, hn, if_false, lookup_cons, ih]
        by_cases h : k' = n <;> simp [h, hn]

theorem names_put (es : List (String × α)) :
    names (put k a es) = if k ∈ names es then names es else names es ++ [k] := by
  induction es with
  | nil => simp [put, names]
  | cons e es ih =>
      by_cases he : e.1 = k
      · simp [put, he, names]
      · by_cases h : k ∈ names es <;> simp_all [put, names, Ne.symm he]

theorem nodup_names_put {es : List (String × α)} (h : (names es).Nodup) :
    (names (put k a es)).Nodup := by
  rw [names_put]
  split
  · exact h
  · rename_i hk
    simpa [List.nodup_append, h] using fun n hn => ne_of_mem_of_not_mem hn hk

theorem get?_of_not_isTable (h : ¬v.IsTable) : v.get? k = none := by
  cases v with
  | table es => exact absurd ⟨es, rfl⟩ h
  | _ => rfl

theorem at?_cons (hx : v.get? k = some x) : v.at? (k :: p) = x.at? p := by
  rw [at?, hx]
  rfl

theorem at?_single (es : Entries) (k : String) : (table es).at? [k] = es.lookup k :=
  Option.bind_fun_some _

theorem at?_pair {cs : Entries} (h : es.lookup k = some (table cs)) (k' : String) :
    (table es).at? [k, k'] = cs.lookup k' := by
  have hget : (table es).get? k = some (table cs) := h
  rw [at?_cons hget, at?_single]

theorem Distinct.get? (h : v.Distinct) (hx : v.get? k = some x) : x.Distinct := by
  intro p es hp
  exact h (k :: p) es ((at?_cons hx).trans hp)

theorem distinct_of_isPlain (h : v.isPlain) : v.Distinct := by
  intro p es hp
  cases v with
  | table es => cases h
  | _ => cases p <;> cases hp

theorem distinct_table (hes : (names es).Nodup) (h : ∀ e ∈ es, e.2.Distinct) :
    (table es).Distinct := by
  intro p fs hp
  cases p with
  | nil =>
      obtain rfl := table.inj (Option.some.inj hp)
      exact hes
  | cons k p =>
      obtain ⟨x, hx, hbelow⟩ := Option.bind_eq_some_iff.mp hp
      obtain ⟨before, after, rfl, -⟩ := List.lookup_eq_some_iff.mp hx
      exact h (k, x) (by simp) p fs hbelow

theorem distinct_nil : (table []).Distinct :=
  distinct_table List.nodup_nil nofun

theorem Distinct.put (h : (table es).Distinct) (hv : v.Distinct) :
    (table (put k v es)).Distinct := by
  intro p fs hp
  cases p with
  | nil =>
      obtain rfl := table.inj (Option.some.inj hp)
      exact nodup_names_put (h [] es rfl)
  | cons k' p =>
      obtain ⟨x, hx, hp⟩ := Option.bind_eq_some_iff.mp hp
      rw [Value.get?, lookup_put] at hx
      split at hx
      · obtain rfl := Option.some.inj hx
        exact hv p fs hp
      · have hget : (table es).get? k' = some x := hx
        exact h (k' :: p) fs ((at?_cons hget).trans hp)

theorem Distinct.nest (h : v.Distinct) (p : List String) : (v.nest p).Distinct := by
  induction p with
  | nil => exact h
  | cons k p ih => exact distinct_nil.put ih

theorem merge_of_not_isTable (h : ¬v.IsTable) : old.merge v = v := by
  cases v with
  | table es => exact absurd ⟨es, rfl⟩ h
  | _ => simp [merge]

theorem merge_of_isTable (h : ¬old.IsTable) : old.merge (table es) = table es := by
  cases old with
  | table os => exact absurd ⟨os, rfl⟩ h
  | _ => simp [merge]

theorem isTable_merge (h : v.IsTable) : (old.merge v).IsTable := by
  obtain ⟨es, rfl⟩ := h
  by_cases hold : old.IsTable
  · obtain ⟨os, rfl⟩ := hold
    exact ⟨_, by rw [merge]⟩
  · exact ⟨es, merge_of_isTable hold⟩

theorem mergeEntries_cons :
    mergeEntries os ((k, v) :: es) = mergeEntries (put k (onto (os.lookup k) v) os) es := by
  rw [mergeEntries]
  cases os.lookup k <;> rfl

theorem lookup_mergeEntries (h : (names es).Nodup) : (mergeEntries os es).lookup k =
    ((es.lookup k).map (onto (os.lookup k))).or (os.lookup k) := by
  induction es generalizing os with
  | nil => simp [mergeEntries]
  | cons e es ih =>
      obtain ⟨n, v⟩ := e
      obtain ⟨hn, hes⟩ := List.nodup_cons.mp h
      rw [mergeEntries_cons, ih hes, lookup_put, lookup_cons]
      by_cases hk : k = n
      · subst hk
        rw [lookup_eq_none_iff.mpr hn]
        simp
      · simp [hk]

theorem get?_merge (h : (names es).Nodup) :
    (old.merge (table es)).get? k = ((es.lookup k).map (onto (old.get? k))).or (old.get? k) := by
  by_cases hold : old.IsTable
  · obtain ⟨os, rfl⟩ := hold
    rw [merge]
    exact lookup_mergeEntries h
  · rw [merge_of_isTable hold, get?_of_not_isTable hold, Option.or_none]
    exact Option.map_id'.symm

theorem get?_merge_cases (h : (names es).Nodup) (hx : (old.merge (table es)).get? k = some x) :
    old.get? k = some x ∨ ∃ v, es.lookup k = some v ∧ x = onto (old.get? k) v := by
  rw [get?_merge h] at hx
  cases hv : es.lookup k with
  | none =>
      rw [hv, Option.map_none, Option.none_or] at hx
      exact .inl hx
  | some v =>
      rw [hv, Option.map_some, Option.some_or] at hx
      exact .inr ⟨v, rfl, (Option.some.inj hx).symm⟩

theorem at?_merge (hd : new.Distinct) (h : new.LeadsTo p) :
    (old.merge new).at? p = ((new.at? p).map (onto (old.at? p))).or (old.at? p) := by
  induction p generalizing old new with
  | nil => simp [at?]
  | cons k ks ih =>
      obtain ⟨⟨es, rfl⟩, hbelow⟩ := h
      have hes : (names es).Nodup := hd [] es rfl
      have hlookup : (table es).get? k = es.lookup k := rfl
      simp only [at?, get?_merge hes, hlookup]
      cases hx : es.lookup k with
      | none => simp
      | some x =>
          cases ho : old.get? k with
          | none => simp
          | some o => simpa using ih (hd.get? hx) (hbelow x hx)

theorem shape_of_isTable (h : v.IsTable) : v.shape = table [] := by
  obtain ⟨es, rfl⟩ := h
  rfl

theorem shape_onto (o : Option Value) (v : Value) : (onto o v).shape = v.shape := by
  cases o with
  | none => rfl
  | some o =>
      by_cases h : v.IsTable
      · rw [onto_some, shape_of_isTable (isTable_merge h), shape_of_isTable h]
      · rw [onto_some, merge_of_not_isTable h]

theorem shape_at?_merge (hd : new.Distinct) (h : new.LeadsTo p) :
    ((old.merge new).at? p).map shape = ((new.at? p).or (old.at? p)).map shape := by
  rw [at?_merge hd h]
  cases new.at? p with
  | none => rfl
  | some v => simp [shape_onto]

theorem topmost_nil (p : List String) : topmost [] p = none := rfl

theorem topmost_cons (v : Value) (vs : List Value) (p : List String) :
    topmost (v :: vs) p = (topmost vs p).or (v.at? p) := by
  simp [topmost]

theorem nodup_names_mergeEntries (h : (names os).Nodup) : (names (mergeEntries os es)).Nodup := by
  induction es generalizing os with
  | nil => simpa [mergeEntries] using h
  | cons e es ih =>
      rw [mergeEntries_cons]
      exact ih (nodup_names_put h)

theorem nodup_names_merge (hold : old.Distinct) (hnew : new.Distinct)
    (h : old.merge new = table es) : (names es).Nodup := by
  by_cases hn : new.IsTable
  · obtain ⟨ns, rfl⟩ := hn
    by_cases ho : old.IsTable
    · obtain ⟨os, rfl⟩ := ho
      rw [Value.merge] at h
      obtain rfl := table.inj h
      exact nodup_names_mergeEntries (hold [] os rfl)
    · rw [merge_of_isTable ho] at h
      exact hnew [] es (congrArg some h)
  · rw [merge_of_not_isTable hn] at h
    exact hnew [] es (congrArg some h)

theorem Distinct.merge (hold : old.Distinct) (hnew : new.Distinct) : (old.merge new).Distinct := by
  intro p
  induction p generalizing old new with
  | nil => exact fun es h => nodup_names_merge hold hnew (Option.some.inj h)
  | cons k ks ih =>
      intro es h
      obtain ⟨x, hx, hp⟩ := Option.bind_eq_some_iff.mp h
      by_cases hn : new.IsTable
      · obtain ⟨ns, rfl⟩ := hn
        rcases get?_merge_cases (hnew [] ns rfl) hx with ho | ⟨v, hv, rfl⟩
        · exact hold.get? ho ks es hp
        · cases ho : old.get? k with
          | none =>
              rw [ho] at hp
              exact hnew.get? hv ks es hp
          | some o =>
              rw [ho] at hp
              exact ih (hold.get? ho) (hnew.get? hv) es hp
      · rw [merge_of_not_isTable hn] at hx
        exact hnew.get? hx ks es hp

variable {vs : List Value}

theorem shape_at?_foldl (h : ∀ v ∈ vs, v.Distinct ∧ v.LeadsTo p) :
    ((vs.foldl Value.merge old).at? p).map shape = ((topmost vs p).or (old.at? p)).map shape := by
  induction vs generalizing old with
  | nil => rfl
  | cons v vs ih =>
      obtain ⟨hv, hvs⟩ := List.forall_mem_cons.mp h
      rw [List.foldl_cons, ih hvs, topmost_cons, Option.or_assoc, Option.map_or, Option.map_or,
        shape_at?_merge hv.1 hv.2]

end Dualbank.Settings.Value
