import Dualbank.Proofs.Path
import Dualbank.Proofs.Text.Utf8
import Dualbank.Proofs.Tree.Way

namespace Dualbank.Bench.FileTree

variable {t : FileTree} {dir name : String} {w : Place} {n : Node} {e : OsError}

structure IsFileName (name : String) : Prop extends IsName name where
  plain : '/' ∉ name.toList

instance (name : String) : Decidable (IsFileName name) :=
  decidable_of_iff (IsName name ∧ '/' ∉ name.toList)
    ⟨fun ⟨hn, hs⟩ => { toIsName := hn, plain := hs }, fun h => ⟨h.toIsName, h.plain⟩⟩

def IsLink (t : FileTree) (path : String) : Prop :=
  ∃ p target, t.find .keep path = .ok (p, some (.link target))

/-- What the link should lead to cannot be reached. -/
def LeadsAstray (t : FileTree) (path : String) : Prop :=
  t.IsLink path ∧ ∃ e, t.get path = .error e

/-- What the link should lead to is missing. -/
def LeadsNowhere (t : FileTree) (path : String) : Prop :=
  t.IsLink path ∧ t.get path = .error (.number Errno.noEntry)

def Opens (t : FileTree) (path : String) (w : Place) : Prop :=
  t.walk .follow mostLinks [] (names path) = .ok (w, some .directory)

def filled (path : String) : List String :=
  ((Path.pieces path).filter (· ≠ [])).map String.ofList

theorem names_eq_filled (path : String) :
    names path = filled path ∨ names path = filled path ++ [""] := by
  by_cases h : path.toList.getLast? = some '/'
  · exact .inr (by simp [names, filled, h])
  · exact .inl (by simp [names, filled, h])

theorem ne_empty_of_mem_filled {path : String} (h : name ∈ filled path) : name ≠ "" := by
  obtain ⟨c, hc, rfl⟩ := List.mem_map.mp h
  have hne : c ≠ [] := by simpa using (List.mem_filter.mp hc).2
  exact fun he => hne (by simpa using congrArg String.toList he)

theorem eq_of_way_empty {links links' : Nat} {p : Place} (h : t.Way links p [""] links' w) :
    w = p := by
  obtain ⟨name, hname⟩ : ∃ name, name = "" := ⟨_, rfl⟩
  rw [← hname] at h
  cases h with
  | here hd hn h =>
      cases h
      rfl
  | up => exact absurd hname (by decide)
  | enter hd hn => exact absurd hname hn.ne_empty
  | follow hd hn => exact absurd hname hn.ne_empty

theorem Opens.way (h : t.Opens dir w) :
    (∃ links, t.Way mostLinks [] (filled dir) links w) ∧ t.node? w = some .directory := by
  obtain ⟨⟨links, hway⟩, hnode⟩ := way_of_walk h
  refine ⟨?_, hnode.symm⟩
  rcases names_eq_filled dir with hnames | hnames
  · exact ⟨links, hnames ▸ hway⟩
  · rw [hnames] at hway
    obtain ⟨links', v, hfilled, hlast⟩ := way_of_append hway
    exact ⟨links', eq_of_way_empty hlast ▸ hfilled⟩

theorem opens_of_way {links : Nat} (h : t.Way mostLinks [] (filled dir) links w)
    (hd : t.node? w = some .directory) : t.Opens dir w := by
  rcases names_eq_filled dir with hnames | hnames
  · rw [Opens, hnames, h.walk, hd]
  · rw [Opens, hnames, h.walk_append (.inl rfl), walk_here hd (.inl rfl), walk_nil, hd]

theorem getLast?_join (hn : IsFileName name) :
    (Path.join dir name).toList.getLast? ≠ some '/' := by
  have hname : name.toList.getLast? ≠ some '/' := fun h => hn.plain (List.mem_of_getLast? h)
  have hchars : name.toList ≠ [] := fun h => hn.ne_empty (String.toList_eq_nil_iff.mp h)
  rw [Path.join, if_neg (by simp [Path.isAbsolute_of_plain hn.plain])]
  split <;> rwa [String.toList_append, List.getLast?_append_of_ne_nil _ hchars]

theorem names_join (hn : IsFileName name) :
    names (Path.join dir name) = filled dir ++ [name] := by
  obtain ⟨ps, hps, hfilled, -⟩ := Path.pieces_join (p := dir) (Path.isAbsolute_of_plain hn.plain)
  rw [names, hps, List.filter_append, hfilled, Path.pieces_of_plain hn.plain]
  simp [getLast?_join hn, hn.ne_empty, filled]

theorem isPresent_eq_true_iff {path : String} :
    t.isPresent path = .ok true ↔ ∃ n, t.get path = .ok n := by
  unfold isPresent
  cases t.get path with
  | ok n => simp
  | error e => by_cases he : e.isNotFound <;> simp [he]

theorem isPresent_eq_false_iff {path : String} :
    t.isPresent path = .ok false ↔ t.get path = .error (.number Errno.noEntry) := by
  unfold isPresent
  cases t.get path with
  | ok n => simp
  | error e => by_cases he : e.isNotFound <;> simp_all [OsError.isNotFound]

theorem checkPath_eq_error {path : String} (h : checkPath path = .error e) (hp : path ≠ "") :
    ¬e.isNotFound ∧ ¬e.isAlreadyPresent := by
  unfold checkPath at h
  split at h
  · cases h
    decide
  · rw [if_neg (by simpa using hp)] at h
    split at h
    · cases h
      decide
    · cases h

theorem refused {path : String} (h : checkPath path = .error e) (hp : path ≠ "") :
    t.isPresent path = .error e ∧ t.createNew path = .error e ∧ t.remove path = .error e ∧
      ¬t.IsLink path := by
  refine ⟨?_, ?_, ?_, ?_⟩
  · rw [isPresent, get, find, h]
    exact if_neg (checkPath_eq_error h hp).1
  · rw [createNew, find, h]
    rfl
  · rw [remove, h]
    rfl
  · rintro ⟨p, target, hfind⟩
    rw [find, h] at hfind
    cases hfind

section Entries

variable (hw : t.Opens dir w) (hn : IsFileName name)
  (hc : checkPath (Path.join dir name) = .ok ())
include hw hn hc

theorem find_keep :
    t.find .keep (Path.join dir name) = .ok (w ++ [name], t.node? (w ++ [name])) := by
  obtain ⟨⟨links, hway⟩, hd⟩ := hw.way
  have hwalk : t.walk .keep mostLinks [] (filled dir ++ [name]) = _ :=
    hway.walk_append (.inr ⟨rfl, List.cons_ne_nil _ _⟩)
  rw [find, hc, names_join hn]
  exact hwalk.trans (walk_keep hd hn.toIsName)

theorem find_follow (hlink : ∀ target, t.node? (w ++ [name]) ≠ some (.link target)) :
    t.find .follow (Path.join dir name) = .ok (w ++ [name], t.node? (w ++ [name])) := by
  obtain ⟨⟨links, hway⟩, hd⟩ := hw.way
  have hwalk : t.walk .follow mostLinks [] (filled dir ++ [name]) = _ :=
    hway.walk_append (.inl rfl)
  rw [find, hc, names_join hn]
  exact hwalk.trans ((walk_enter (by simp) hd hn.toIsName hlink).trans walk_nil)

theorem isPresent_of_unlinked (hlink : ∀ target, t.node? (w ++ [name]) ≠ some (.link target)) :
    t.isPresent (Path.join dir name) = .ok (t.node? (w ++ [name])).isSome := by
  rw [isPresent, get, find_follow hw hn hc hlink]
  cases t.node? (w ++ [name]) <;> rfl

theorem readText_of_file {number : Nat} {text : String} {x : Bool}
    (hnode : t.node? (w ++ [name]) = some (.file number (Text.encode text) x))
    (htail : t.tail number = 0) : t.readText (Path.join dir name) = .ok text := by
  rw [readText, read, get, find_follow hw hn hc (by simp [hnode]), hnode]
  dsimp only [bind, Except.bind, pure, Except.pure]
  rw [htail, spelledOut, if_pos rfl, Text.decode?_eq_some_iff.mpr rfl]

theorem isLink_iff : t.IsLink (Path.join dir name) ↔
    ∃ target, t.node? (w ++ [name]) = some (.link target) := by
  simp [IsLink, find_keep hw hn hc]

theorem createNew_eq : t.createNew (Path.join dir name) =
    if (t.node? (w ++ [name])).isSome then .error (.number Errno.alreadyPresent)
    else .ok (t.addFile (w ++ [name]) [] false) := by
  rw [createNew, find_keep hw hn hc]
  cases t.node? (w ++ [name]) <;> rfl

theorem remove_eq : t.remove (Path.join dir name) =
    match t.node? (w ++ [name]) with
    | none => .error (.number Errno.noEntry)
    | some .directory => .error (.number Errno.isDirectory)
    | some _ => .ok (t.erase (w ++ [name])) := by
  obtain ⟨⟨links, hway⟩, hd⟩ := hw.way
  have hnames : (names (Path.join dir name)).filter (· ≠ "") = filled dir ++ [name] := by
    rw [names_join hn, List.filter_eq_self]
    intro c hc
    rcases List.mem_append.mp hc with hc | hc
    · simpa using ne_empty_of_mem_filled hc
    · simpa [List.mem_singleton.mp hc] using hn.ne_empty
  have hparent : t.walk .follow mostLinks [] (filled dir ++ [""]) = .ok (w, some .directory) := by
    rw [hway.walk_append (.inl rfl), walk_here hd (.inl rfl), walk_nil, hd]
  rw [remove, hc]
  dsimp only [bind, Except.bind]
  rw [hnames, List.getLast?_concat, List.dropLast_concat]
  dsimp only
  rw [hparent]
  dsimp only
  rw [if_neg (by simp [hn.ne_dot, hn.ne_dots])]
  rw [walk_keep hd hn.toIsName]
  cases t.node? (w ++ [name]) with
  | none => rfl
  | some n =>
      cases n with
      | directory => rfl
      | _ => exact if_neg (by simpa using getLast?_join hn)

end Entries

/-- What the calls on a path meet: none of them gets through, or there is nothing at its place, or a
link, or something else. -/
inductive Meets (t : FileTree) (path : String) (p : Place) : Prop
  | refused (e : OsError) (hnotFound : ¬e.isNotFound) (halready : ¬e.isAlreadyPresent)
      (hlink : ¬t.IsLink path) (hpresent : t.isPresent path = .error e)
      (hcreate : t.createNew path = .error e) (hremove : t.remove path = .error e)
  | nothing (hc : checkPath path = .ok ()) (hnode : t.node? p = none) (hlink : ¬t.IsLink path)
      (hpresent : t.isPresent path = .ok false)
      (hcreate : t.createNew path = .ok (t.addFile p [] false))
      (hremove : t.remove path = .error (.number Errno.noEntry))
  | link (target : String) (hc : checkPath path = .ok ())
      (hnode : t.node? p = some (.link target)) (hlink : t.IsLink path)
      (hcreate : t.createNew path = .error (.number Errno.alreadyPresent))
      (hremove : t.remove path = .ok (t.erase p))
  | directory (hnode : t.node? p = some .directory) (hlink : ¬t.IsLink path)
      (hpresent : t.isPresent path = .ok true)
      (hcreate : t.createNew path = .error (.number Errno.alreadyPresent))
      (hremove : t.remove path = .error (.number Errno.isDirectory))
  | other (n : Node) (hc : checkPath path = .ok ()) (hnode : t.node? p = some n)
      (hdirectory : n ≠ .directory) (hlink : ¬t.IsLink path)
      (hpresent : t.isPresent path = .ok true)
      (hcreate : t.createNew path = .error (.number Errno.alreadyPresent))
      (hremove : t.remove path = .ok (t.erase p))

theorem Opens.meets (hw : t.Opens dir w) (hn : IsFileName name) :
    t.Meets (Path.join dir name) (w ++ [name]) := by
  have hpath : Path.join dir name ≠ "" := by
    intro h
    have hnames : names (Path.join dir name) = _ := names_join hn
    rw [h] at hnames
    simp [names, Path.pieces] at hnames
  cases hc : checkPath (Path.join dir name) with
  | error e =>
      obtain ⟨hpresent, hcreate, hremove, hlink⟩ := refused (t := t) hc hpath
      obtain ⟨hnotFound, halready⟩ := checkPath_eq_error hc hpath
      exact .refused e hnotFound halready hlink hpresent hcreate hremove
  | ok u =>
      have hlink := isLink_iff hw hn hc
      have hpresent := isPresent_of_unlinked hw hn hc
      have hcreate := createNew_eq hw hn hc
      have hremove := remove_eq hw hn hc
      cases hnode : t.node? (w ++ [name]) with
      | none =>
          rw [hnode] at hlink hpresent hcreate hremove
          exact .nothing hc hnode (by simp [hlink]) (hpresent (by simp)) hcreate hremove
      | some n =>
          rw [hnode] at hlink hpresent hcreate hremove
          cases n with
          | directory =>
              exact .directory hnode (by simp [hlink]) (hpresent (by simp)) hcreate hremove
          | link target => exact .link target hc hnode (hlink.mpr ⟨target, rfl⟩) hcreate hremove
          | _ =>
              exact .other _ hc hnode (by simp) (by simp [hlink]) (hpresent (by simp)) hcreate
                hremove

theorem node?_addFile {q : Place} (hq : q ≠ []) (bs : Bytes) (x : Bool) {p : Place} :
    (t.addFile q bs x).node? p = if p = q then some (.file t.next bs x) else t.node? p :=
  node?_put hq _

theorem Opens.addFile {q : Place} (hw : t.Opens dir w) (hq : t.node? q = none) (bs : Bytes)
    (x : Bool) : (t.addFile q bs x).Opens dir w := by
  have hroot : q ≠ [] := by
    rintro rfl
    cases hq
  obtain ⟨⟨links, hway⟩, hd⟩ := hw.way
  have hkept {p : Place} (hp : t.node? p = some .directory) :
      (t.addFile q bs x).node? p = some .directory := by
    rw [node?_addFile hroot, if_neg (by rintro rfl; simp [hq] at hp), hp]
  refine opens_of_way (hway.mono (fun p => hkept) fun p target => ?_) (hkept hd)
  rw [node?_addFile hroot]
  split
  case isTrue hp => simp [hp, hq]
  case isFalse => rfl

/-- A directory is still there when something else is removed, unless its path led through what is
removed. -/
theorem Opens.erase {q : Place} (hw : t.Opens dir w) (hq : t.node? q ≠ some .directory) :
    (t.erase q).Opens dir w ∨
      (∃ target, t.node? q = some (.link target)) ∧
        (t.erase q).Lost mostLinks [] (filled dir) := by
  have hroot : q ≠ [] := by
    rintro rfl
    exact hq rfl
  obtain ⟨⟨links, hway⟩, hd⟩ := hw.way
  refine (hway.erase hq (beside_root q)).imp_left fun h => opens_of_way h ?_
  rw [node?_erase hroot, if_neg ((hway.beside hq (beside_root q)).not_below hq hd), hd]

section Lost

variable (h : t.Lost mostLinks [] (filled dir))
include h

theorem Lost.not_opens : ¬t.Opens dir w := by
  intro hw
  obtain ⟨⟨links, hway⟩, hd⟩ := hw.way
  have hlost := h .follow [""] (by simp) (by simp)
  rw [hway.walk_append (.inl rfl), walk_here hd (.inl rfl), walk_nil] at hlost
  cases hlost

variable (hn : IsFileName name) (hc : checkPath (Path.join dir name) = .ok ())
include hn hc

theorem Lost.find (ending : Ending) (he : ending ≠ .create) :
    t.find ending (Path.join dir name) = .error (.number Errno.noEntry) := by
  rw [FileTree.find, hc, names_join hn]
  exact h ending [name] (by simp) he

theorem Lost.isPresent : t.isPresent (Path.join dir name) = .ok false := by
  rw [FileTree.isPresent, get, h.find hn hc .follow (by simp)]
  rfl

theorem Lost.createNew : t.createNew (Path.join dir name) = .error (.number Errno.noEntry) := by
  rw [FileTree.createNew, h.find hn hc .keep (by simp)]
  rfl

end Lost

end Dualbank.Bench.FileTree
