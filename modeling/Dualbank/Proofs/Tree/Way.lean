import Dualbank.Bench.FileTree

namespace Dualbank.Bench.FileTree

variable {t t' : FileTree} {ending : Ending} {links links' : Nat} {p q w : Place} {name : String}
  {ns rest : List String} {target : String}

structure IsName (name : String) : Prop where
  ne_empty : name ≠ ""
  ne_dot : name ≠ "."
  ne_dots : name ≠ ".."
  fits : name.utf8ByteSize ≤ longestName

instance (name : String) : Decidable (IsName name) :=
  decidable_of_iff (name ≠ "" ∧ name ≠ "." ∧ name ≠ ".." ∧ name.utf8ByteSize ≤ longestName)
    ⟨fun ⟨hempty, hdot, hdots, hfits⟩ => ⟨hempty, hdot, hdots, hfits⟩,
      fun h => ⟨h.ne_empty, h.ne_dot, h.ne_dots, h.fits⟩⟩

theorem isName_of_not (hn : ¬(decide (name = "") || decide (name = ".")) = true)
    (hdots : ¬name = "..") (hlong : ¬longestName < name.utf8ByteSize) : IsName name := by
  simp only [Bool.or_eq_true, decide_eq_true_eq, not_or] at hn
  exact ⟨hn.1, hn.2, hdots, Nat.not_lt.mp hlong⟩

def startOf (target : String) (p : Place) : Place := if Path.isAbsolute target then [] else p

/-- From a place, the names lead through directories and links to a place; so many links may be
followed before and after it. -/
inductive Way (t : FileTree) : Nat → Place → List String → Nat → Place → Prop
  | stay (links : Nat) (p : Place) : Way t links p [] links p
  | here {links links' : Nat} {p w : Place} {name : String} {ns : List String}
      (hd : t.node? p = some .directory) (hn : name = "" ∨ name = ".")
      (h : Way t links p ns links' w) : Way t links p (name :: ns) links' w
  | up {links links' : Nat} {p w : Place} {ns : List String} (hd : t.node? p = some .directory)
      (h : Way t links p.dropLast ns links' w) : Way t links p (".." :: ns) links' w
  | enter {links links' : Nat} {p w : Place} {name : String} {ns : List String}
      (hd : t.node? p = some .directory) (hn : IsName name)
      (hnode : ∀ target, t.node? (p ++ [name]) ≠ some (.link target))
      (h : Way t links (p ++ [name]) ns links' w) : Way t links p (name :: ns) links' w
  | follow {links links' : Nat} {p w : Place} {name target : String} {ns : List String}
      (hd : t.node? p = some .directory) (hn : IsName name)
      (hlink : t.node? (p ++ [name]) = some (.link target))
      (h : Way t links (startOf target p) (names target ++ ns) links' w) :
      Way t (links + 1) p (name :: ns) links' w

theorem lookup_cons_node {es : List (Place × Node)} {n : Node} :
    List.lookup q ((p, n) :: es) = if q = p then some n else es.lookup q := by
  by_cases h : q = p
  · simp [h]
  · rw [List.lookup_cons, beq_false_of_ne h, if_neg h]

theorem lookup_filter_fst (keep : Place → Bool) (es : List (Place × Node)) (p : Place) :
    (es.filter fun e => keep e.1).lookup p = if keep p then es.lookup p else none := by
  induction es with
  | nil => simp
  | cons e es ih =>
      obtain ⟨q, n⟩ := e
      rw [List.filter_cons, lookup_cons_node]
      cases hq : keep q with
      | true =>
          rw [if_pos rfl, lookup_cons_node, ih]
          by_cases hp : p = q <;> simp [hp, hq]
      | false =>
          rw [if_neg Bool.false_ne_true, ih]
          by_cases hp : p = q <;> simp [hp, hq]

theorem node?_put (hp : p ≠ []) (n : Node) :
    (t.put p n).node? q = if q = p then some n else t.node? q := by
  cases q with
  | nil =>
      rw [if_neg hp.symm]
      rfl
  | cons c cs =>
      change List.lookup (c :: cs) ((p, n) :: t.nodes.filter fun e => decide (e.1 ≠ p)) = _
      rw [lookup_cons_node, lookup_filter_fst fun p' => decide (p' ≠ p)]
      by_cases h : c :: cs = p <;> simp [h, node?]

theorem node?_erase (hq : q ≠ []) :
    (t.erase q).node? p = if q <+: p then none else t.node? p := by
  cases p with
  | nil =>
      rw [if_neg (by simpa using hq)]
      rfl
  | cons c cs =>
      change List.lookup (c :: cs) (t.nodes.filter fun e => !q.isPrefixOf e.1) = _
      rw [lookup_filter_fst fun p' => !q.isPrefixOf p']
      by_cases h : q <+: c :: cs
      · rw [if_pos h, List.isPrefixOf_iff_prefix.mpr h]
        rfl
      · rw [if_neg h, Bool.eq_false_iff.mpr (mt List.isPrefixOf_iff_prefix.mp h)]
        rfl

theorem walk_nil : t.walk ending links p [] = .ok (p, t.node? p) := by
  rw [walk]

theorem walk_of_missing (h : t.node? p = none) :
    t.walk ending links p (name :: rest) = .error (.number Errno.noEntry) := by
  rw [walk, h]

theorem walk_here (hd : t.node? p = some .directory) (hn : name = "" ∨ name = ".") :
    t.walk ending links p (name :: rest) = t.walk ending links p rest := by
  rw [walk, hd]
  simp [hn]

theorem walk_up (hd : t.node? p = some .directory) :
    t.walk ending links p (".." :: rest) = t.walk ending links p.dropLast rest := by
  rw [walk, hd]
  rfl

theorem walk_enter (he : ending ≠ .create) (hd : t.node? p = some .directory) (hn : IsName name)
    (hnode : ∀ target, t.node? (p ++ [name]) ≠ some (.link target)) :
    t.walk ending links p (name :: rest) = t.walk ending links (p ++ [name]) rest := by
  rw [walk, hd]
  simp only [hn.ne_empty, hn.ne_dot, hn.ne_dots, he, Nat.not_lt.mpr hn.fits, decide_false,
    Bool.or_false, Bool.false_and, Bool.false_eq_true, if_false]

theorem walk_follow (he : ending = .follow ∨ ending = .keep ∧ rest ≠ [])
    (hd : t.node? p = some .directory) (hn : IsName name)
    (hlink : t.node? (p ++ [name]) = some (.link target)) :
    t.walk ending (links + 1) p (name :: rest) =
      t.walk ending links (startOf target p) (names target ++ rest) := by
  have hc : ending ≠ .create := by
    rintro rfl
    simp at he
  have hk : ¬(rest.isEmpty && decide (ending = .keep)) = true := by
    rcases he with rfl | ⟨rfl, hrest⟩
    · simp
    · simpa using hrest
  rw [walk, hd]
  simp only [hn.ne_empty, hn.ne_dot, hn.ne_dots, hc, Nat.not_lt.mpr hn.fits, decide_false,
    Bool.or_false, Bool.false_and, Bool.false_eq_true, if_false, hlink, if_neg hk]
  rfl

theorem walk_keep (hd : t.node? p = some .directory) (hn : IsName name) :
    t.walk .keep links p [name] = .ok (p ++ [name], t.node? (p ++ [name])) := by
  by_cases hlink : ∃ target, t.node? (p ++ [name]) = some (.link target)
  · obtain ⟨target, hlink⟩ := hlink
    rw [walk, hd]
    simp [hn.ne_empty, hn.ne_dot, hn.ne_dots, Nat.not_lt.mpr hn.fits, hlink]
  · rw [walk_enter (by simp) hd hn fun target h => hlink ⟨target, h⟩, walk_nil]

theorem way_of_walk {x : Option Node} (h : t.walk .follow links p ns = .ok (w, x)) :
    (∃ links', t.Way links p ns links' w) ∧ x = t.node? w := by
  fun_induction walk t .follow links p ns with
  | case1 links p =>
      obtain ⟨rfl, rfl⟩ := Prod.mk.inj (Except.ok.inj h)
      exact ⟨⟨links, .stay links _⟩, rfl⟩
  | case3 links p name rest hd hn ih =>
      obtain ⟨⟨links', hway⟩, hx⟩ := ih h
      exact ⟨⟨links', .here hd (by simpa using hn) hway⟩, hx⟩
  | case4 links p rest hd hn ih =>
      obtain ⟨⟨links', hway⟩, hx⟩ := ih h
      exact ⟨⟨links', .up hd hway⟩, hx⟩
  | case7 links p name rest hd hn hdots hc hlong target hlink hk => simp at hk
  | case9 p name rest hd hn hdots hc hlong target hlink hk links start ih =>
      obtain ⟨⟨links', hway⟩, hx⟩ := ih h
      exact ⟨⟨links', .follow hd (isName_of_not hn hdots hlong) hlink hway⟩, hx⟩
  | case10 links p name rest hd hn hdots hc hlong hnode ih =>
      obtain ⟨⟨links', hway⟩, hx⟩ := ih h
      exact ⟨⟨links', .enter hd (isName_of_not hn hdots hlong) hnode hway⟩, hx⟩
  | case2 | case5 | case6 | case8 | case11 => cases h

theorem Way.walk_append (h : t.Way links p ns links' w)
    (he : ending = .follow ∨ ending = .keep ∧ rest ≠ []) :
    t.walk ending links p (ns ++ rest) = t.walk ending links' w rest := by
  have hc : ending ≠ .create := by
    rintro rfl
    simp at he
  induction h with
  | stay links p => rfl
  | here hd hn h ih => rw [List.cons_append, walk_here hd hn, ih]
  | up hd h ih => rw [List.cons_append, walk_up hd, ih]
  | enter hd hn hnode h ih => rw [List.cons_append, walk_enter hc hd hn hnode, ih]
  | follow hd hn hlink h ih =>
      rw [List.cons_append, ← ih, List.append_assoc]
      refine walk_follow (he.imp_right fun hk => ⟨hk.1, ?_⟩) hd hn hlink
      exact List.append_ne_nil_of_right_ne_nil _ hk.2

theorem Way.walk (h : t.Way links p ns links' w) :
    t.walk .follow links p ns = .ok (w, t.node? w) := by
  have hwalk : t.walk .follow links p (ns ++ []) = _ := h.walk_append (.inl rfl)
  rwa [List.append_nil, walk_nil] at hwalk

theorem way_of_append {ms : List String} (h : t.Way links p (ns ++ ms) links' w) :
    ∃ links'' v, t.Way links p ns links'' v ∧ t.Way links'' v ms links' w := by
  generalize hall : ns ++ ms = all at h
  induction h generalizing ns with
  | stay links p =>
      obtain ⟨rfl, rfl⟩ := List.append_eq_nil_iff.mp hall
      exact ⟨links, p, .stay links p, .stay links p⟩
  | here hd hn h ih =>
      rcases List.append_eq_cons_iff.mp hall with ⟨rfl, rfl⟩ | ⟨ns, rfl, hns⟩
      · exact ⟨_, _, .stay _ _, .here hd hn h⟩
      · obtain ⟨links'', v, hfirst, hrest⟩ := ih hns.symm
        exact ⟨links'', v, .here hd hn hfirst, hrest⟩
  | up hd h ih =>
      rcases List.append_eq_cons_iff.mp hall with ⟨rfl, rfl⟩ | ⟨ns, rfl, hns⟩
      · exact ⟨_, _, .stay _ _, .up hd h⟩
      · obtain ⟨links'', v, hfirst, hrest⟩ := ih hns.symm
        exact ⟨links'', v, .up hd hfirst, hrest⟩
  | enter hd hn hnode h ih =>
      rcases List.append_eq_cons_iff.mp hall with ⟨rfl, rfl⟩ | ⟨ns, rfl, hns⟩
      · exact ⟨_, _, .stay _ _, .enter hd hn hnode h⟩
      · obtain ⟨links'', v, hfirst, hrest⟩ := ih hns.symm
        exact ⟨links'', v, .enter hd hn hnode hfirst, hrest⟩
  | follow hd hn hlink h ih =>
      rcases List.append_eq_cons_iff.mp hall with ⟨rfl, rfl⟩ | ⟨ns, rfl, rfl⟩
      · exact ⟨_, _, .stay _ _, .follow hd hn hlink h⟩
      · obtain ⟨links'', v, hfirst, hrest⟩ := ih (List.append_assoc ..)
        exact ⟨links'', v, .follow hd hn hlink hfirst, hrest⟩

/-- A way stays where directories and links stay and no link is added. -/
theorem Way.mono (hd : ∀ p, t.node? p = some .directory → t'.node? p = some .directory)
    (hl : ∀ p target, t'.node? p = some (.link target) ↔ t.node? p = some (.link target))
    (h : t.Way links p ns links' w) : t'.Way links p ns links' w := by
  induction h with
  | stay links p => exact .stay links p
  | here hp hn h ih => exact .here (hd _ hp) hn ih
  | up hp h ih => exact .up (hd _ hp) ih
  | enter hp hn hnode h ih =>
      exact .enter (hd _ hp) hn (fun target => mt (hl _ target).mp (hnode target)) ih
  | follow hp hn hlink h ih => exact .follow (hd _ hp) hn ((hl _ _).mpr hlink) ih

/-- Along the names nothing is found that a walk could go on from. -/
def Lost (t : FileTree) (links : Nat) (p : Place) (ns : List String) : Prop :=
  ∀ ending rest, rest ≠ [] → ending ≠ .create →
    t.walk ending links p (ns ++ rest) = .error (.number Errno.noEntry)

namespace Lost

theorem of_missing (h : t.node? p = none) : t.Lost links p ns := by
  intro ending rest hrest _
  obtain ⟨name, more, hmore⟩ :=
    List.exists_cons_of_ne_nil (List.append_ne_nil_of_right_ne_nil ns hrest)
  rw [hmore, walk_of_missing h]

theorem of_here (hd : t.node? p = some .directory) (hn : name = "" ∨ name = ".")
    (h : t.Lost links p ns) : t.Lost links p (name :: ns) := by
  intro ending rest hrest he
  rw [List.cons_append, walk_here hd hn]
  exact h ending rest hrest he

theorem of_up (hd : t.node? p = some .directory) (h : t.Lost links p.dropLast ns) :
    t.Lost links p (".." :: ns) := by
  intro ending rest hrest he
  rw [List.cons_append, walk_up hd]
  exact h ending rest hrest he

theorem of_enter (hd : t.node? p = some .directory) (hn : IsName name)
    (hnode : ∀ target, t.node? (p ++ [name]) ≠ some (.link target))
    (h : t.Lost links (p ++ [name]) ns) : t.Lost links p (name :: ns) := by
  intro ending rest hrest he
  rw [List.cons_append, walk_enter he hd hn hnode]
  exact h ending rest hrest he

theorem of_follow (hd : t.node? p = some .directory) (hn : IsName name)
    (hlink : t.node? (p ++ [name]) = some (.link target))
    (h : t.Lost links (startOf target p) (names target ++ ns)) :
    t.Lost (links + 1) p (name :: ns) := by
  intro ending rest hrest he
  have he' : ending = .follow ∨ ending = .keep ∧ ns ++ rest ≠ [] := by
    cases ending <;> simp_all
  rw [List.cons_append, walk_follow he' hd hn hlink, ← List.append_assoc]
  exact h ending rest hrest he

end Lost

def Beside (q p : Place) : Prop := q <+: p → p = q

theorem Beside.not_below (hq : t.node? q ≠ some .directory) (hd : t.node? p = some .directory)
    (h : Beside q p) : ¬q <+: p := fun hqp => hq (h hqp ▸ hd)

theorem beside_root (q : Place) : Beside q [] := fun h => (List.prefix_nil.mp h).symm

theorem beside_dropLast (h : ¬q <+: p) : Beside q p.dropLast :=
  fun hq => absurd (hq.trans (List.dropLast_prefix p)) h

theorem beside_concat (h : ¬q <+: p) : Beside q (p ++ [name]) :=
  fun hq => (List.prefix_concat_iff.mp hq).elim Eq.symm fun hq => absurd hq h

theorem beside_startOf (h : ¬q <+: p) : Beside q (startOf target p) := by
  unfold startOf
  split
  · exact beside_root q
  · exact fun hq => absurd hq h

theorem Way.beside (hq : t.node? q ≠ some .directory) (h : t.Way links p ns links' w)
    (hp : Beside q p) : Beside q w := by
  induction h with
  | stay => exact hp
  | here _ _ _ ih => exact ih hp
  | up hd _ ih => exact ih (beside_dropLast (hp.not_below hq hd))
  | enter hd _ _ _ ih => exact ih (beside_concat (hp.not_below hq hd))
  | follow hd _ _ _ ih => exact ih (beside_startOf (hp.not_below hq hd))

/-- Where a node is removed that is no directory, a way stays, or it led through that node as a link
and is lost. -/
theorem Way.erase (hq : t.node? q ≠ some .directory) (h : t.Way links p ns links' w)
    (hp : Beside q p) : (t.erase q).Way links p ns links' w ∨
      (∃ target, t.node? q = some (.link target)) ∧ (t.erase q).Lost links p ns := by
  have hroot : q ≠ [] := by
    rintro rfl
    exact hq rfl
  have hkept {p : Place} (hqp : ¬q <+: p) : (t.erase q).node? p = t.node? p := by
    rw [node?_erase hroot, if_neg hqp]
  have hunlinked {p : Place} {target : String} (h : t.node? p ≠ some (.link target)) :
      (t.erase q).node? p ≠ some (.link target) := by
    rw [node?_erase hroot]
    split
    · simp
    · exact h
  induction h with
  | stay links p => exact .inl (.stay links p)
  | here hd hn h ih =>
      have hd' := (hkept (hp.not_below hq hd)).trans hd
      exact (ih hp).imp (.here hd' hn) (And.imp_right (.of_here hd' hn))
  | up hd h ih =>
      have hqp := hp.not_below hq hd
      have hd' := (hkept hqp).trans hd
      exact (ih (beside_dropLast hqp)).imp (.up hd') (And.imp_right (.of_up hd'))
  | enter hd hn hnode h ih =>
      have hqp := hp.not_below hq hd
      have hd' := (hkept hqp).trans hd
      have hnode' := fun target => hunlinked (hnode target)
      exact (ih (beside_concat hqp)).imp (.enter hd' hn hnode')
        (And.imp_right (.of_enter hd' hn hnode'))
  | @follow links links' p w name target ns hd hn hlink h ih =>
      have hqp := hp.not_below hq hd
      have hd' := (hkept hqp).trans hd
      -- below the link there is no way, so it is the link itself that is removed or it stays
      by_cases hname : q <+: p ++ [name]
      · obtain rfl := beside_concat hqp hname
        have hgone : (t.erase (p ++ [name])).node? (p ++ [name]) = none := by
          rw [node?_erase hroot, if_pos hname]
        exact .inr ⟨⟨target, hlink⟩, .of_enter hd' hn (by simp [hgone]) (.of_missing hgone)⟩
      · have hlink' := (hkept hname).trans hlink
        exact (ih (beside_startOf hqp)).imp (.follow hd' hn hlink')
          (And.imp_right (.of_follow hd' hn hlink'))

end Dualbank.Bench.FileTree
