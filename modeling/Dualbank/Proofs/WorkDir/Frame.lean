import Dualbank.Proofs.Phase.Edge
import Dualbank.Proofs.Plan.Past
import Dualbank.Text.Utf8
import Mathlib.Logic.Function.Basic

namespace Dualbank

open Plan Routine Phase

inductive Item
  | file (bytes : Bytes)
  | directory

abbrev Folder := String → Option Item

namespace Folder

def text? (g : Folder) (f : Descriptor) : Option String :=
  match g f.fileName with
  | some (.file bytes) => Text.decode? bytes
  | _ => none

def trimmed? (g : Folder) (f : Descriptor) : Option String := (g.text? f).map Text.trim

def Announces (g : Folder) : Prop :=
  ∃ type version size a, g.trimmed? .type = some type ∧ g.trimmed? .version = some version ∧
    g.trimmed? .size = some size ∧ Announcement.ofTexts type version size = .ok a

end Folder

abbrev FolderEvent := Event Call.Answer Folder

variable {g g' : Folder} {past : List FolderEvent} {op : Operation} {m : Marker} {entry : Entry}
  {q : Call} {x : q.Answer} {d : WorkDir} {p : Phase} {t : Target} {α β : Type}

namespace Call

/-- Entries come and go by the calls alone. A creation is exclusive, a directory is not removed, and
what fails does nothing. What is not about entries is answered freely. -/
def inFolder : Rules Answer Folder
  | has m, g, x, g' => g' = g ∧ ∀ b, x = .ok b → (g m.fileName).isSome = b
  | read f, g, x, g' => g' = g ∧ ∀ s, x = .ok s → g.text? f = some s
  | create m, g, .ok (), g' =>
    g m.fileName = none ∧ g' = Function.update g m.fileName (some (.file []))
  | remove e, g, .ok (), g' =>
    (∃ bytes, g e.fileName = some (.file bytes)) ∧ g' = Function.update g e.fileName none
  | _, g, _, g' => g' = g

def LeavesFolder : Call → Prop
  | create _ | remove _ => False
  | _ => True

theorem LeavesFolder.eq (h : q.LeavesFolder) (hx : inFolder q g x g') : g' = g := by
  cases q with
  | has | read => exact hx.1
  | create | remove => exact h.elim
  | _ => exact hx

end Call

open Call (inFolder LeavesFolder)

/-- The last phase that was read waits for its commit, and rebooted if it has to. -/
def Confirms (p : Phase) (past : List FolderEvent) : Prop :=
  ∃ before w w' after, past = before ++ ⟨.readPhase, .ok p, w, w'⟩ :: after ∧ p ≠ idle ∧
    (∀ e ∈ after, e.question.Spares ∧ e.question ≠ .readPhase) ∧
    (p.awaitsReboot → Answered after (.isRebooted p.includesFirmware) (.ok true))

/-- Why an operation may create a marker that is not there. -/
inductive Adds (past : List FolderEvent) (g : Folder) : Operation → Marker → Prop
  | download (h : g.Announces) : Adds past g .download .download
  | install {l : String} (hl : g.trimmed? .location = some l) (hblank : l ≠ "")
      (hi : g Marker.installed.fileName = none) : Adds past g .install .install
  | apply (hi : g Marker.installed.fileName ≠ none) (hd : g Marker.download.fileName ≠ none)
      (hr : g Marker.rollback.fileName = none) : Adds past g .apply .apply
  | rollback {op : Operation} {t u : Target} (hop : op = .rollback t ∨ op = .switchSlot t)
      (hs : ∀ i ∈ u.images, Answered past (.switch i) (.ok ()))
      (hw : Answered past (.writePhase (.switched u)) (.ok ())) : Adds past g op .rollback

inductive Removes (past : List FolderEvent) : Operation → Entry → Prop
  | commit {op : Operation} {p : Phase} (hop : op.Commits) (hp : Confirms p past)
      (hidle : p.afterCommit = idle) (e : Entry) : Removes past op e
  | rebooted (h : Answered past .reboot (.ok ())) : Removes past .apply (.marker .rollback)

/-- Nothing is added or removed without its reason, and nothing is overwritten. -/
structure Framed (op : Operation) (past : List FolderEvent) (e : FolderEvent) : Prop where
  added : ∀ name, e.before name = none → e.after name ≠ none → ∃ m : Marker,
    name = m.fileName ∧ e.after name = some (.file []) ∧ Adds past e.before op m
  kept : ∀ name item, e.before name = some item → e.after name = some item ∨
    e.after name = none ∧ ∃ entry : Entry, name = entry.fileName ∧ Removes past op entry

namespace Framed

theorem refl : Framed op past ⟨q, x, g, g⟩ :=
  ⟨fun _ h h' => absurd h h', fun _ _ h => .inl h⟩

theorem leaves (h : q.LeavesFolder) (hx : inFolder q g x g') : Framed op past ⟨q, x, g, g'⟩ := by
  obtain rfl := h.eq hx
  exact refl

theorem create {x : Except OsError Unit} (hx : inFolder (.create m) g x g')
    (h : g m.fileName = none → Adds past g op m) : Framed op past ⟨.create m, x, g, g'⟩ := by
  cases x with
  | error e =>
      obtain rfl : g' = g := hx
      exact refl
  | ok u =>
      obtain ⟨hm, rfl⟩ := hx
      refine ⟨fun name hb ha => ?_, fun name item hb => .inl ?_⟩
      · by_cases hn : name = m.fileName
        · subst hn
          exact ⟨m, rfl, Function.update_self .., h hm⟩
        · exact absurd ((Function.update_of_ne hn ..).trans hb) ha
      · have hn : name ≠ m.fileName := by
          rintro rfl
          cases hm.symm.trans hb
        exact (Function.update_of_ne hn ..).trans hb

theorem remove {x : Except OsError Unit} (hx : inFolder (.remove entry) g x g')
    (h : Removes past op entry) : Framed op past ⟨.remove entry, x, g, g'⟩ := by
  cases x with
  | error e =>
      obtain rfl : g' = g := hx
      exact refl
  | ok u =>
      obtain ⟨-, rfl⟩ := hx
      refine ⟨fun name hb ha => ?_, fun name item hb => ?_⟩
      · by_cases hn : name = entry.fileName
        · exact absurd (by simp [hn]) ha
        · exact absurd ((Function.update_of_ne hn ..).trans hb) ha
      · by_cases hn : name = entry.fileName
        · exact .inr ⟨by simp [hn], entry, hn, h⟩
        · exact .inl ((Function.update_of_ne hn ..).trans hb)

end Framed

abbrev Frames (op : Operation) (r : Routine α) (g : Folder) (past : List FolderEvent)
    (post : α → Folder → List FolderEvent → Prop) : Prop :=
  SureInTurn inFolder (Framed op) r g past post

namespace Frames

variable {r : Routine α} {post : β → Folder → List FolderEvent → Prop}

theorem of_leaves (h : Asks LeavesFolder r.run) : Frames op r g past fun _ g' _ => g' = g := by
  refine h.inTurn (I := fun g' _ => g' = g) ?_ rfl
  rintro q v x v' past hq rfl hx
  exact ⟨.leaves hq hx, hq.eq hx⟩

theorem ask_bind {f : q.Answer → Routine β} (hq : q.LeavesFolder)
    (hf : ∀ x, inFolder q g x g → Frames op (f x) g (past ++ [⟨q, x, g, g⟩]) post) :
    Frames op (ask q >>= f) g past post := by
  apply SureInTurn.ask_bind
  intro x v hx
  obtain rfl := hq.eq hx
  exact ⟨.refl, hf x hx⟩

theorem readPhase_bind {f : Phase → Routine β}
    (hf : ∀ p, Frames op (f p) g (past ++ [⟨.readPhase, .ok p, g, g⟩]) post) :
    Frames op (readPhase >>= f) g past post := by
  rw [readPhase, LawfulMonad.bind_assoc]
  refine ask_bind trivial fun x _ => SureInTurn.ofExcept_bind ?_
  rintro p rfl
  exact hf p

theorem writePhase_bind {f : Unit → Routine β}
    (hf : Frames op (f ()) g (past ++ [⟨.writePhase p, .ok (), g, g⟩]) post) :
    Frames op (writePhase p >>= f) g past post := by
  rw [writePhase, LawfulMonad.bind_assoc]
  refine ask_bind trivial fun x _ => SureInTurn.ofExcept_bind ?_
  rintro ⟨⟩ rfl
  exact hf

theorem isRebooted_bind {f : Bool → Routine β}
    (hf : ∀ b, Frames op (f b) g (past ++ [⟨.isRebooted p.includesFirmware, .ok b, g, g⟩]) post) :
    Frames op (Update.isRebooted p >>= f) g past post := by
  rw [Update.isRebooted, Routine.isRebooted, LawfulMonad.bind_assoc]
  refine ask_bind trivial fun x _ => SureInTurn.ofExcept_bind ?_
  rintro b rfl
  exact hf b

theorem has_bind {f : Bool → Routine β}
    (hf : ∀ past, Frames op (f (g m.fileName).isSome) g past post) :
    Frames op (d.has m >>= f) g past post := by
  rw [WorkDir.has, LawfulMonad.bind_assoc]
  refine ask_bind trivial fun x hx => ?_
  cases x with
  | ok b =>
      obtain rfl := hx.2 b rfl
      exact hf _
  | error e => exact sureInTurn_throw

theorem create (h : g m.fileName = none → Adds past g op m) :
    Frames op (WorkDir.create m) g past fun _ _ _ => True := by
  apply SureInTurn.ask_bind
  intro x g' hx
  refine ⟨.create hx h, ?_⟩
  cases x with
  | ok u => exact trivial
  | error e => exact trivial

theorem create_bind {f : Except OsError Creation → Routine β}
    (h : g m.fileName = none → Adds past g op m)
    (hf : ∀ x g' past, Frames op (f x) g' past fun _ _ _ => True) :
    Frames op (WorkDir.create m >>= f) g past fun _ _ _ => True :=
  (create h).bind fun x g' past _ => hf x g' past

theorem read (f : Descriptor) : Frames op (d.read f) g past fun o g' _ =>
    g' = g ∧ ∀ s, o = some s → g.trimmed? f = some s := by
  refine ask_bind trivial fun x hx => ?_
  cases x with
  | ok s =>
      refine sureInTurn_pure.mpr ⟨rfl, ?_⟩
      rintro _ ⟨⟩
      exact congrArg (Option.map Text.trim) (hx.2 s rfl)
  | error e =>
      dsimp only
      split
      · exact sureInTurn_pure.mpr ⟨rfl, nofun⟩
      · exact sureInTurn_throw

theorem location : Frames op d.location g past fun o g' _ =>
    g' = g ∧ (o.isSome → ∃ l, g.trimmed? .location = some l ∧ l ≠ "") := by
  refine (read .location).bind ?_
  rintro o _ past ⟨rfl, ho⟩
  refine sureInTurn_pure.mpr ⟨rfl, fun h => ?_⟩
  cases o with
  | none => cases h
  | some l =>
      refine ⟨l, ho l rfl, ?_⟩
      rintro rfl
      cases h

end Frames

namespace Staging

open WorkDir

theorem announced_frames : Frames op (announced d) g past fun o g' _ =>
    g' = g ∧ (o.isSome → g.Announces) := by
  refine (Frames.read .type).bind ?_
  rintro type _ past ⟨rfl, htype⟩
  refine (Frames.read .version).bind ?_
  rintro version _ past ⟨rfl, hversion⟩
  refine (Frames.read .size).bind ?_
  rintro size g past ⟨rfl, hsize⟩
  split
  case h_1 type version size =>
    generalize ha : Announcement.ofTexts type version size = r
    refine SureInTurn.ofExcept_bind ?_
    rintro a rfl
    refine Frames.location.bind ?_
    rintro l _ past ⟨rfl, -⟩
    refine sureInTurn_pure.mpr ⟨rfl, fun _ => ?_⟩
    exact ⟨type, version, size, a, htype type rfl, hversion version rfl, hsize size rfl, ha⟩
  case h_2 => exact sureInTurn_pure.mpr ⟨rfl, nofun⟩

theorem download_frames : Frames .download (download d) g past fun _ _ _ => True := by
  refine announced_frames.bind ?_
  rintro a g past ⟨rfl, ha⟩
  cases a with
  | none => exact trivial
  | some a =>
      refine Frames.create_bind (fun _ => .download (ha rfl)) ?_
      intro x g' past
      split <;> exact trivial

theorem install_frames : Frames .install (install d) g past fun _ _ _ => True := by
  refine Frames.location.bind ?_
  rintro l g past ⟨rfl, hl⟩
  cases l with
  | none => exact trivial
  | some l =>
      obtain ⟨l, hl, hblank⟩ := hl rfl
      refine Frames.has_bind fun past => ?_
      cases hi : g Marker.installed.fileName with
      | some item => exact trivial
      | none =>
          refine Frames.create_bind (fun _ => .install hl hblank hi) ?_
          intro x g' past
          split <;> exact trivial

theorem reboot_frames : Frames op reboot g past fun o _ past' =>
    (∀ n, o ≠ .rebootFailed n) → Answered past' .reboot (.ok ()) := by
  refine Frames.ask_bind trivial fun x _ => ?_
  cases x with
  | ok u => exact sureInTurn_pure.mpr fun _ => answered_concat
  | error e => exact sureInTurn_pure.mpr fun h => absurd rfl (h _)

theorem removeRollback_frames (h : Answered past .reboot (.ok ())) :
    Frames .apply (d.remove (.marker .rollback)) g past fun _ _ _ => True := by
  apply SureInTurn.ask_bind
  intro x g' hx
  refine ⟨.remove hx (.rebooted h), ?_⟩
  cases x with
  | ok u => exact trivial
  | error e =>
      dsimp only
      split <;> exact trivial

theorem restart_frames {undo : Int → Routine ApplyOutcome}
    (hundo : ∀ n, Asks LeavesFolder (undo n).run) :
    Frames .apply (restart d undo) g past fun _ _ _ => True := by
  refine reboot_frames.bind ?_
  rintro o g past ho
  split
  case h_1 n =>
    exact SureOr.mono (Frames.of_leaves (hundo n)) (fun _ _ _ => trivial) fun _ _ _ => trivial
  case h_2 hne =>
    exact (removeRollback_frames (ho fun n hn => hne n hn)).bind fun _ _ _ _ => trivial

theorem applyRollback_frames :
    Frames .apply (applyRollback d) g past fun _ _ _ => True := by
  rw [applyRollback_eq]
  refine Frames.readPhase_bind fun p => ?_
  dsimp only
  split
  · exact Frames.writePhase_bind (restart_frames fun _ => ⟨trivial, fun _ => trivial⟩)
  · exact restart_frames fun _ => trivial

theorem apply_frames : Frames .apply (apply d) g past fun _ _ _ => True := by
  have hrequest (past : List FolderEvent)
      (h : g Marker.apply.fileName = none → Adds past g .apply .apply) :
      Frames .apply apply.request g past fun _ _ _ => True := by
    refine Frames.create_bind h ?_
    intro x g' past
    split <;> exact trivial
  rw [apply_eq]
  refine Frames.has_bind fun past => ?_
  cases hr : g Marker.rollback.fileName with
  | some item => exact applyRollback_frames
  | none =>
      refine Frames.has_bind fun past => ?_
      cases hi : g Marker.installed.fileName with
      | none => exact trivial
      | some item =>
          refine Frames.has_bind fun past => ?_
          cases ha : g Marker.apply.fileName with
          -- The marker is there already, and its creation comes to nothing.
          | some item => exact hrequest past fun h => by cases h.symm.trans ha
          | none =>
              refine Frames.has_bind fun past => ?_
              cases hd : g Marker.download.fileName with
              | none =>
                  exact SureOr.mono reboot_frames (fun _ _ _ => trivial) fun _ _ _ => trivial
              | some item => exact hrequest past fun _ => .apply (by simp [hi]) (by simp [hd]) hr

end Staging

namespace Update

theorem recordSwitch_frames (hop : op = .rollback t ∨ op = .switchSlot t) {u : Target}
    (hs : ∀ i ∈ u.images, Answered past (.switch i) (.ok ())) :
    Frames op (recordSwitch u) g past fun _ _ _ => True := by
  refine Frames.writePhase_bind (Frames.create_bind (fun _ => ?_) ?_)
  · exact .rollback hop (fun i hi => (hs i hi).append_right) answered_concat
  · intro x g' past
    split <;> exact trivial

theorem switchImages_frames (hop : op = .rollback t ∨ op = .switchSlot t) {is : List Image}
    {before : Option Image} (hb : ∀ i ∈ before, Answered past (.switch i) (.ok ())) :
    Frames op (switchImages before is) g past fun _ _ past' =>
      past ⊆ past' ∧ ∀ i ∈ is, Answered past' (.switch i) (.ok ()) := by
  induction is generalizing before past with
  | nil => exact sureInTurn_pure.mpr ⟨List.Subset.refl past, nofun⟩
  | cons i rest ih =>
      refine Frames.ask_bind trivial fun x _ => ?_
      cases x with
      | ok u =>
          have hi : Answered (past ++ [⟨.switch i, .ok (), g, g⟩]) (.switch i) (.ok ()) :=
            answered_concat
          refine SureOr.mono (ih ?_) ?_ fun _ _ _ => trivial
          · rintro j ⟨⟩
            exact hi
          · rintro u v ⟨hsub, hrest⟩
            exact ⟨List.Subset.trans (List.subset_append_left _ _) hsub,
              List.forall_mem_cons.mpr ⟨hi.mono hsub, hrest⟩⟩
      | error e =>
          cases before with
          | none => exact sureInTurn_throw
          | some j =>
              refine (recordSwitch_frames hop ?_).bind fun _ _ _ _ => sureInTurn_throw
              intro k hk
              obtain rfl := List.mem_singleton.mp hk
              exact (hb k rfl).append_right

theorem switchTarget_frames (hop : op = .rollback t ∨ op = .switchSlot t) :
    Frames op (switchTarget t) g past fun _ _ _ => True := by
  have hnone : ∀ i ∈ (none : Option Image), Answered past (.switch i) (.ok ()) := by simp
  refine (switchImages_frames hop hnone).bind ?_
  rintro u g past ⟨-, hs⟩
  exact recordSwitch_frames hop hs

end Update

theorem confirms_of_read (hp : p ≠ idle) (hr : p.awaitsReboot = false) :
    Confirms p (past ++ [⟨.readPhase, .ok p, g, g⟩]) :=
  ⟨past, g, g, [], rfl, hp, by simp, by simp [hr]⟩

theorem confirms_of_rebooted (hp : p ≠ idle) :
    Confirms p (past ++ [⟨.readPhase, .ok p, g, g⟩] ++
      [⟨.isRebooted p.includesFirmware, .ok true, g, g⟩]) := by
  refine ⟨past, g, g, [⟨.isRebooted p.includesFirmware, .ok true, g, g⟩], ?_, hp, ?_, ?_⟩
  · simp
  · simp [Call.Spares]
  · exact fun _ => ⟨g, g, List.mem_singleton_self _⟩

theorem Confirms.concat (h : Confirms p past) (hq : q.Spares) (hr : q ≠ .readPhase) :
    Confirms p (past ++ [⟨q, x, g, g'⟩]) := by
  obtain ⟨before, w, w', after, rfl, hp, hafter, hreboot⟩ := h
  refine ⟨before, w, w', after ++ [⟨q, x, g, g'⟩], List.append_assoc .., hp, ?_,
    fun h => (hreboot h).append_right⟩
  intro e he
  rcases List.mem_append.mp he with he | he
  · exact hafter e he
  · obtain rfl := List.mem_singleton.mp he
    exact ⟨hq, hr⟩

namespace Update

theorem confirm_frames (hop : op.Commits) (h : Confirms p past) :
    Frames op (confirm d p) g past fun _ _ _ => True := by
  have hwrite (g : Folder) (past : List FolderEvent) :
      Frames op (do writePhase p.afterCommit; return CommitOutcome.committed) g past
        fun _ _ _ => True := Frames.writePhase_bind trivial
  unfold confirm
  dsimp only
  split
  case isFalse => exact hwrite g past
  case isTrue hidle =>
    have hremoves : Asks (fun q => ∃ e, q = .remove e) d.clear.run :=
      WorkDir.clear_asks fun e => ⟨e, rfl⟩
    have hclear : Frames op d.clear g past fun _ _ _ => True := by
      refine SureOr.mono (hremoves.inTurn (I := fun _ past => Confirms p past) ?_ h)
        (fun _ _ _ => trivial) fun _ _ _ => trivial
      rintro q v x v' past ⟨e, rfl⟩ hp hx
      exact ⟨.remove hx (.commit hop hp (isIdle_iff.mp hidle) e), hp.concat trivial nofun⟩
    exact hclear.bind fun _ g past _ => hwrite g past

theorem commit_frames (hop : op.Commits) :
    Frames op (commit d) g past fun _ _ _ => True := by
  rw [commit_eq]
  refine Frames.readPhase_bind fun p => ?_
  split
  case isTrue => exact trivial
  case isFalse hidle =>
    have hp : p ≠ idle := fun h => hidle (isIdle_iff.mpr h)
    dsimp only
    split
    case isFalse hr => exact confirm_frames hop (confirms_of_read hp (by simpa using hr))
    case isTrue =>
      refine Frames.isRebooted_bind fun b => ?_
      cases b with
      | false => exact trivial
      | true => exact confirm_frames hop (confirms_of_rebooted hp)

theorem settle_frames (hop : op.Commits) (n : Nat) :
    Frames op (settle d n) g past fun _ _ _ => True := by
  induction n generalizing g past with
  | zero =>
      refine Frames.readPhase_bind fun p => ?_
      split <;> exact trivial
  | succ n ih =>
      refine Frames.readPhase_bind fun p => ?_
      split
      · exact trivial
      · refine (commit_frames hop).bind fun o g past _ => ?_
        split
        · exact trivial
        · exact trivial
        · split
          · exact trivial
          · exact ih

end Update

theorem Operation.frames (op : Operation) (d : WorkDir) (g : Folder) :
    Frames op (op.routine d) g [] fun _ _ _ => True := by
  have hleaves (h : Asks LeavesFolder (op.routine d).run) :
      Frames op (op.routine d) g [] fun _ _ _ => True :=
    SureOr.mono (Frames.of_leaves h) (fun _ _ _ => trivial) fun _ _ _ => trivial
  cases op with
  | update | updateIfNewer | progress =>
      refine hleaves ((Operation.asks _ d).mono fun q hq => ?_)
      cases q with
      | create | remove => exact hq.elim
      | _ => exact trivial
  | allowAutomatic => exact Update.settle_frames (.inr rfl) _
  | commit => exact Update.commit_frames (.inl rfl)
  | rollback t =>
      refine Frames.readPhase_bind fun p => ?_
      split
      · exact Update.switchTarget_frames (.inl rfl)
      · exact trivial
  | switchSlot t =>
      refine Frames.readPhase_bind fun p => ?_
      split
      · exact Update.switchTarget_frames (.inr rfl)
      · exact trivial
  | download => exact Staging.download_frames
  | install => exact Staging.install_frames
  | apply => exact Staging.apply_frames

inductive Query (d : WorkDir) : {α : Type} → Routine α → Prop
  | announced : Query d (Staging.announced d)
  | readPhase : Query d readPhase
  | isRebooted (f : Bool) : Query d (isRebooted f)
  | installedVersion (t : Target) : Query d (installedVersion t)
  | markBad (t : Target) (s : Slot) : Query d (markBad t s)
  | isBad (t : Target) (s : Slot) : Query d (isBad t s)

theorem Query.leaves {r : Routine α} (h : Query d r) : Asks LeavesFolder r.run := by
  cases h with
  | announced => exact Staging.announced_asks fun _ => trivial
  | readPhase => exact readPhase_asks trivial
  | installedVersion t => exact installedVersion_asks trivial
  | isRebooted | markBad | isBad =>
      exact asks_run_bind ((asks_run_ask _).mpr trivial) fun _ => asks_run_ofExcept _

/-- In any run of operations, wherever each of them is cut, an event adds an empty marker for one of
the reasons, removes an entry of the workflow for one of the reasons, or leaves the folder as it
is. What is asked in between leaves it, too. -/
theorem Run.framed {log : List (Operation × List FolderEvent)} (h : Run inFolder d g log g') :
    (∀ x ∈ log, ∀ before e after, x.2 = before ++ e :: after → Framed x.1 before e) ∧
    ∀ {α : Type} {r : Routine α}, Query d r → ∀ v es p v', Steps inFolder r.run v es p v' →
      v' = v := by
  refine ⟨fun x hx before e after he => ?_, fun hq v es p v' hs => ?_⟩
  · obtain ⟨v, p, v', hs⟩ := h.exists_steps x hx
    exact (x.1.frames d v).events hs he
  · have hkept : ∀ e ∈ es, e.before = v → e.after = v := fun e he hb =>
      ((hq.leaves.of_mem hs e he).eq (hs.rules_of_mem e he)).trans hb
    exact (hs.invariant (I := (· = v)) hkept rfl).1

theorem rollback_marker_framed :
    ∃ log g', Run inFolder ⟨"/data"⟩ (fun _ => none) log g' ∧
      g' Marker.rollback.fileName = some (.file []) ∧
      ∀ x ∈ log, ∀ before e after, x.2 = before ++ e :: after → Framed x.1 before e := by
  let g : Folder := fun _ => none
  have hread : inFolder .readPhase g (.ok .idle) g := rfl
  have hswitch : inFolder (.switch .application) g (.ok ()) g := rfl
  have hwrite : inFolder (.writePhase (.switched .application)) g (.ok ()) g := rfl
  have hcreate : inFolder (.create .rollback) g (.ok ())
      (Function.update g Marker.rollback.fileName (some (.file []))) := ⟨rfl, rfl⟩
  have hrun : Run inFolder ⟨"/data"⟩ g [(.switchSlot .application, _)] _ :=
    .cons (.ask hread (.ask hswitch (.ask hwrite (.ask hcreate (.refl _ _))))) (.nil _)
  exact ⟨_, _, hrun, Function.update_self .., hrun.framed.1⟩

end Dualbank
