import Dualbank.Bench.Machine
import Dualbank.Proofs.Device.Calls
import Dualbank.Proofs.Plan.Outcome
import Dualbank.Proofs.Tree.Entry
import Dualbank.Proofs.WorkDir.Race

namespace Dualbank

open Plan Routine
open Bench (Machine FileTree)

namespace Device

variable {α β : Type}

def answerOn (dev : Device) (q : Call) : StateM Machine q.Answer :=
  (dev.answer q).run Machine.answer

def gives (dev : Device) (s : Machine) (r : Routine α) : Except Error α :=
  ((dev.perform r.run).run Machine.answer s).1

def after (dev : Device) (s : Machine) (r : Routine α) : Machine :=
  ((dev.perform r.run).run Machine.answer s).2

variable {dev : Device} {s : Machine} {r : Routine α} {f : α → Routine β}

theorem gives_eq : dev.gives s r = outcome dev.answerOn r.run s := by
  rw [gives, perform, run_run]
  rfl

theorem after_eq : dev.after s r = (r.run.run dev.answerOn s).2 := by
  rw [after, perform, run_run]
  rfl

theorem gives_bind :
    dev.gives s (r >>= f) = dev.gives s r >>= fun a => dev.gives (dev.after s r) (f a) := by
  simp only [gives_eq, after_eq]
  exact outcome_run_bind

theorem gives_bind_of_ok {a : α} (h : dev.gives s r = .ok a) :
    dev.gives s (r >>= f) = dev.gives (dev.after s r) (f a) := by
  rw [gives_bind, h]
  rfl

theorem after_bind_of_ok {a : α} (h : dev.gives s r = .ok a) :
    dev.after s (r >>= f) = dev.after (dev.after s r) (f a) := by
  have hrun : (r >>= f).run.run dev.answerOn s =
      (ExceptT.bindCont f (r.run.run dev.answerOn s).1).run dev.answerOn
        (r.run.run dev.answerOn s).2 :=
    congrFun (run_bind dev.answerOn r.run (ExceptT.bindCont f)) s
  rw [gives_eq, outcome] at h
  rw [after_eq, after_eq, after_eq, hrun, h]
  rfl

theorem gives_ask_bind {q : Call} {f : q.Answer → Routine β} :
    dev.gives s (ask q >>= f) = dev.gives (dev.answerOn q s).2 (f (dev.answerOn q s).1) := by
  rw [gives_eq, gives_eq]
  rfl

theorem after_ask_bind {q : Call} {f : q.Answer → Routine β} :
    dev.after s (ask q >>= f) = dev.after (dev.answerOn q s).2 (f (dev.answerOn q s).1) := by
  rw [after_eq, after_eq]
  rfl

end Device

variable {dev : Device} {s : Machine} {m : Marker} {w : Bench.Place}

namespace WorkDir

def markerPath (d : WorkDir) (m : Marker) : String := d.pathOf (.marker m)

def creationFrom : Except OsError FileTree → Except OsError Creation
  | .ok _ => .ok .created
  | .error e => if e.isAlreadyPresent then .ok .alreadyPresent else .error e

theorem answerOn_has :
    dev.answerOn (.has m) s = (s.files.isPresent (dev.workDir.markerPath m), s) := rfl

theorem answerOn_create :
    dev.answerOn (.create m) s = s.update (s.files.createNew (dev.workDir.markerPath m)) := by
  rw [Device.answerOn]
  rfl

theorem answerOn_remove : dev.answerOn (.remove (.marker m)) s =
    s.update (s.files.remove (dev.workDir.markerPath m)) := by
  rw [Device.answerOn]
  rfl

theorem gives_has : dev.gives s (dev.workDir.has m) =
    (s.files.isPresent (dev.workDir.markerPath m)).mapError
      fun e => .io (.checking (dev.workDir.markerPath m)) e := by
  rw [has, Device.gives_ask_bind, answerOn_has]
  cases s.files.isPresent (dev.workDir.markerPath m) with
  | ok b => rfl
  | error e => rfl

theorem after_has : dev.after s (dev.workDir.has m) = s := by
  rw [has, Device.after_ask_bind, answerOn_has]
  cases s.files.isPresent (dev.workDir.markerPath m) with
  | ok b => rfl
  | error e => rfl

theorem gives_create : dev.gives s (create m) =
    .ok (creationFrom (s.files.createNew (dev.workDir.markerPath m))) := by
  rw [create, Device.gives_ask_bind, answerOn_create]
  cases s.files.createNew (dev.workDir.markerPath m) with
  | ok files => rfl
  | error e =>
      dsimp only [Machine.update, creationFrom]
      split <;> rfl

theorem after_create : dev.after s (create m) =
    (s.update (s.files.createNew (dev.workDir.markerPath m))).2 := by
  rw [create, Device.after_ask_bind, answerOn_create]
  cases s.files.createNew (dev.workDir.markerPath m) with
  | ok files => rfl
  | error e => rfl

theorem gives_read_of_ok {f : Descriptor} {text : String}
    (h : s.files.readText (dev.workDir.pathOf (.descriptor f)) = .ok text) :
    dev.gives s (dev.workDir.read f) = .ok (some (Text.trim text)) ∧
      dev.after s (dev.workDir.read f) = s := by
  have hanswer : dev.answerOn (.read f) s = (.ok text, s) := by
    rw [← h]
    rfl
  rw [read, Device.gives_ask_bind, Device.after_ask_bind, hanswer]
  exact ⟨rfl, rfl⟩

theorem gives_remove_of_ok {files : FileTree}
    (h : s.files.remove (dev.workDir.markerPath m) = .ok files) :
    dev.gives s (dev.workDir.remove (.marker m)) = .ok () ∧
      dev.after s (dev.workDir.remove (.marker m)) = { s with files } := by
  rw [remove, Device.gives_ask_bind, Device.after_ask_bind, answerOn_remove, h]
  exact ⟨rfl, rfl⟩

theorem gives_remove_of_error {e : OsError}
    (h : s.files.remove (dev.workDir.markerPath m) = .error e) :
    dev.gives s (dev.workDir.remove (.marker m)) =
        (if e.isNotFound then .ok () else .error (.io (.removing (dev.workDir.markerPath m)) e)) ∧
      dev.after s (dev.workDir.remove (.marker m)) = s := by
  rw [remove, Device.gives_ask_bind, Device.after_ask_bind, answerOn_remove, h]
  dsimp only [Machine.update]
  split
  · exact ⟨rfl, rfl⟩
  · exact ⟨rfl, rfl⟩

theorem isFileName (m : Marker) : Bench.FileTree.IsFileName m.fileName := by
  cases m <;> decide

theorem meets (hw : s.files.Opens dev.workDir.path w) (m : Marker) :
    s.files.Meets (dev.workDir.markerPath m) (w ++ [m.fileName]) :=
  hw.meets (isFileName m)

end WorkDir

open WorkDir
open Bench.FileTree

structure Agree (dev : Device) (s : Machine) (m : Marker) : Prop where
  present_iff : dev.gives (dev.after s (dev.workDir.has m)) (create m) = .ok (.ok .alreadyPresent) ↔
    dev.gives s (dev.workDir.has m) = .ok true
  absent_iff : dev.gives (dev.after s (dev.workDir.has m)) (create m) = .ok (.ok .created) ↔
    dev.gives s (dev.workDir.has m) = .ok false
  present_after : ∀ c, dev.gives s (create m) = .ok (.ok c) →
    dev.gives (dev.after s (create m)) (dev.workDir.has m) = .ok true

structure Removed (dev : Device) (s : Machine) (m : Marker) : Prop where
  absent : dev.gives (dev.after s (dev.workDir.remove (.marker m))) (dev.workDir.has m) = .ok false
  created_iff :
    dev.gives (dev.after s (dev.workDir.remove (.marker m))) (create m) = .ok (.ok .created) ↔
      ∃ w, (dev.after s (dev.workDir.remove (.marker m))).files.Opens dev.workDir.path w
  kept : ¬s.files.IsLink (dev.workDir.markerPath m) →
    ∃ w, (dev.after s (dev.workDir.remove (.marker m))).files.Opens dev.workDir.path w

theorem gives_has_eq_ok_iff {b : Bool} : dev.gives s (dev.workDir.has m) = .ok b ↔
    s.files.isPresent (dev.workDir.markerPath m) = .ok b := by
  rw [gives_has]
  cases s.files.isPresent (dev.workDir.markerPath m) <;> simp [Except.mapError]

theorem gives_create_eq_created_iff : dev.gives s (create m) = .ok (.ok .created) ↔
    ∃ files, s.files.createNew (dev.workDir.markerPath m) = .ok files := by
  rw [gives_create]
  cases s.files.createNew (dev.workDir.markerPath m) with
  | ok files => simp [creationFrom]
  | error e => by_cases he : e.isAlreadyPresent <;> simp [creationFrom, he]

theorem isPresent_addFile (hw : s.files.Opens dev.workDir.path w)
    (hc : checkPath (dev.workDir.markerPath m) = .ok ())
    (hnode : s.files.node? (w ++ [m.fileName]) = none) :
    (s.files.addFile (w ++ [m.fileName]) [] false).isPresent (dev.workDir.markerPath m) =
      .ok true := by
  have hfile := node?_addFile (t := s.files) (q := w ++ [m.fileName]) (by simp) [] false
    (p := w ++ [m.fileName])
  rw [if_pos rfl] at hfile
  have hpresent := isPresent_of_unlinked (hw.addFile hnode [] false) (isFileName m) hc
    (by simp [hfile])
  rwa [hfile] at hpresent

/-- After a creation, whether the marker is there or was there, a look finds it unless it is a link
that leads astray. -/
theorem has_after_create (hw : s.files.Opens dev.workDir.path w) {c : Creation}
    (hc : dev.gives s (create m) = .ok (.ok c)) :
    (dev.gives (dev.after s (create m)) (dev.workDir.has m) = .ok true ↔
        ¬s.files.LeadsAstray (dev.workDir.markerPath m)) ∧
      (dev.gives (dev.after s (create m)) (dev.workDir.has m) = .ok false ↔
        s.files.LeadsNowhere (dev.workDir.markerPath m)) := by
  rw [gives_has_eq_ok_iff, gives_has_eq_ok_iff, after_create]
  cases meets hw m with
  | refused e hnotFound halready hlink hpresent hcreate hremove =>
      rw [gives_create, hcreate] at hc
      simp [creationFrom, halready] at hc
  | nothing hcheck hnode hlink hpresent hcreate hremove =>
      rw [hcreate]
      dsimp only [Machine.update]
      simp [isPresent_addFile hw hcheck hnode, LeadsAstray, LeadsNowhere, hlink]
  | link target hcheck hnode hlink hcreate hremove =>
      rw [hcreate]
      dsimp only [Machine.update]
      rw [isPresent_eq_true_iff, isPresent_eq_false_iff, LeadsAstray, LeadsNowhere]
      cases s.files.get (dev.workDir.markerPath m) <;> simp [hlink]
  | directory hnode hlink hpresent hcreate hremove =>
      rw [hcreate]
      simp [Machine.update, hpresent, LeadsAstray, LeadsNowhere, hlink]
  | other n hcheck hnode hdirectory hlink hpresent hcreate hremove =>
      rw [hcreate]
      simp [Machine.update, hpresent, LeadsAstray, LeadsNowhere, hlink]

theorem told_alike (hw : s.files.Opens dev.workDir.path w)
    (h : ¬s.files.LeadsAstray (dev.workDir.markerPath m)) :
    dev.gives s (create m) = .ok (.ok .alreadyPresent) ∧
        dev.gives s (dev.workDir.has m) = .ok true ∨
      dev.gives s (create m) = .ok (.ok .created) ∧
          dev.gives s (dev.workDir.has m) = .ok false ∨
        ∃ e e', dev.gives s (create m) = .ok (.error e) ∧
          dev.gives s (dev.workDir.has m) = .error e' := by
  rw [gives_create, gives_has]
  cases meets hw m with
  | refused e hnotFound halready hlink hpresent hcreate hremove =>
      refine .inr (.inr ⟨e, _, ?_, by rw [hpresent]; rfl⟩)
      rw [hcreate, creationFrom, if_neg halready]
  | nothing hcheck hnode hlink hpresent hcreate hremove =>
      rw [hpresent, hcreate]
      exact .inr (.inl ⟨rfl, rfl⟩)
  | link target hcheck hnode hlink hcreate hremove =>
      have hget : ∃ n, s.files.get (dev.workDir.markerPath m) = .ok n := by
        cases hget : s.files.get (dev.workDir.markerPath m) with
        | ok n => exact ⟨n, rfl⟩
        | error e => exact absurd ⟨hlink, e, hget⟩ h
      rw [hcreate, isPresent_eq_true_iff.mpr hget]
      exact .inl ⟨rfl, rfl⟩
  | directory hnode hlink hpresent hcreate hremove =>
      rw [hcreate, hpresent]
      exact .inl ⟨rfl, rfl⟩
  | other n hcheck hnode hdirectory hlink hpresent hcreate hremove =>
      rw [hcreate, hpresent]
      exact .inl ⟨rfl, rfl⟩

theorem agree_iff (hw : s.files.Opens dev.workDir.path w) :
    Agree dev s m ↔ ¬s.files.LeadsAstray (dev.workDir.markerPath m) := by
  constructor
  · rintro h ⟨hlink, e, he⟩
    cases meets hw m with
    | link target hcheck hnode hlink hcreate hremove =>
        have hthere := h.present_iff.mp (by rw [after_has, gives_create, hcreate]; rfl)
        obtain ⟨n, hn⟩ := isPresent_eq_true_iff.mp (gives_has_eq_ok_iff.mp hthere)
        rw [he] at hn
        cases hn
    | _ => contradiction
  · intro h
    refine ⟨?_, ?_, fun c hc => (has_after_create hw hc).1.mpr h⟩ <;> rw [after_has]
    · rcases told_alike hw h with ⟨hc, hh⟩ | ⟨hc, hh⟩ | ⟨e, e', hc, hh⟩ <;> simp [hc, hh]
    · rcases told_alike hw h with ⟨hc, hh⟩ | ⟨hc, hh⟩ | ⟨e, e', hc, hh⟩ <;> simp [hc, hh]

theorem removed_of_erased (hw : s.files.Opens dev.workDir.path w)
    (hcheck : checkPath (dev.workDir.markerPath m) = .ok ())
    (hnode : s.files.node? (w ++ [m.fileName]) ≠ some .directory)
    (hremove : s.files.remove (dev.workDir.markerPath m) =
      .ok (s.files.erase (w ++ [m.fileName]))) : Removed dev s m := by
  have hafter : dev.after s (dev.workDir.remove (.marker m)) = _ := (gives_remove_of_ok hremove).2
  have hgone : (s.files.erase (w ++ [m.fileName])).node? (w ++ [m.fileName]) = none := by
    rw [node?_erase (by simp), if_pos (List.prefix_refl _)]
  -- the work directory stays, or its own path went through the link that was removed
  rcases hw.erase hnode with hopens | ⟨⟨target, htarget⟩, hlost⟩
  · have hpresent := isPresent_of_unlinked hopens (isFileName m) hcheck (by simp [hgone])
    have hcreate := createNew_eq hopens (isFileName m) hcheck
    rw [hgone] at hpresent hcreate
    refine ⟨?_, ?_, fun _ => ?_⟩
    · rw [hafter, gives_has_eq_ok_iff]
      exact hpresent
    · rw [hafter, gives_create_eq_created_iff]
      exact iff_of_true ⟨_, hcreate⟩ ⟨w, hopens⟩
    · rw [hafter]
      exact ⟨w, hopens⟩
  · have hlink := isLink_iff hw (isFileName m) hcheck
    refine ⟨?_, ?_, fun h => absurd (hlink.mpr ⟨target, htarget⟩) h⟩
    · rw [hafter, gives_has_eq_ok_iff]
      exact hlost.isPresent (isFileName m) hcheck
    · rw [hafter, gives_create_eq_created_iff]
      refine iff_of_false ?_ fun ⟨w', hw'⟩ => hlost.not_opens hw'
      rintro ⟨files, hcreate⟩
      cases hcreate.symm.trans (hlost.createNew (isFileName m) hcheck)

theorem removed_of_remove (hw : s.files.Opens dev.workDir.path w)
    (hr : dev.gives s (dev.workDir.remove (.marker m)) = .ok ()) : Removed dev s m := by
  cases meets hw m with
  | refused e hnotFound halready hlink hpresent hcreate hremove =>
      rw [(gives_remove_of_error hremove).1, if_neg hnotFound] at hr
      cases hr
  | directory hnode hlink hpresent hcreate hremove =>
      rw [(gives_remove_of_error hremove).1, if_neg (by decide)] at hr
      cases hr
  | nothing hcheck hnode hlink hpresent hcreate hremove =>
      have hafter : dev.after s (dev.workDir.remove (.marker m)) = s :=
        (gives_remove_of_error hremove).2
      refine ⟨?_, ?_, fun _ => ?_⟩
      · rw [hafter, gives_has_eq_ok_iff]
        exact hpresent
      · rw [hafter, gives_create_eq_created_iff]
        exact iff_of_true ⟨_, hcreate⟩ ⟨w, hw⟩
      · rw [hafter]
        exact ⟨w, hw⟩
  | link target hcheck hnode hlink hcreate hremove =>
      exact removed_of_erased hw hcheck (by simp [hnode]) hremove
  | other n hcheck hnode hdirectory hlink hpresent hcreate hremove =>
      exact removed_of_erased hw hcheck (by simp [hnode, hdirectory]) hremove

namespace Staging

def requested (d : WorkDir) (attempts : Nat) : Routine ProgressOutcome := do
  match ← announced d with
  | none => return .noDownloadStarted
  | some a =>
    if a.size = 0 then throw (.invalidDescriptor .zeroSize)
    match ← awaitLocation d (attempts - 1) with
    | none => return .waitingToStart
    | some path => return .ofSizes (← artifactSize path) a.size

theorem progress_eq_requested (d : WorkDir) (attempts : Nat) : progress d attempts = (do
    if !(← d.has .download) then return .noDownloadStarted
    requested d attempts) := rfl

theorem gives_progress {attempts : Nat} {b : Bool}
    (h : dev.gives s (dev.workDir.has .download) = .ok b) :
    dev.gives s (progress dev.workDir attempts) =
      if b then dev.gives s (requested dev.workDir attempts) else .ok .noDownloadStarted := by
  rw [progress_eq_requested, Device.gives_bind, h, after_has]
  cases b with
  | true => rfl
  | false => rfl

theorem after_announced : dev.after s (announced dev.workDir) = s := by
  have hasks : Asks (fun q => ∃ f, q = .read f) (announced dev.workDir).run :=
    announced_asks fun f => ⟨f, rfl⟩
  rw [Device.after_eq]
  refine hasks.run_snd ?_ s
  rintro _ s ⟨f, rfl⟩
  rfl

theorem created_of_requestDownload {o : DownloadOutcome} (h : dev.gives s requestDownload = .ok o)
    (ho : o = .started ∨ o = .startedBefore) :
    (∃ c, dev.gives s (create .download) = .ok (.ok c)) ∧
      dev.after s requestDownload = dev.after s (create .download) := by
  unfold requestDownload at h ⊢
  obtain ⟨x, hx⟩ : ∃ x, dev.gives s (create .download) = .ok x := ⟨_, gives_create⟩
  rw [Device.gives_bind, hx] at h
  rw [Device.after_bind_of_ok hx, hx]
  cases x with
  | error e =>
      obtain rfl := Except.ok.inj h
      simp at ho
  | ok c =>
      refine ⟨⟨c, rfl⟩, ?_⟩
      cases c <;> rfl

/-- A download that was started, now or before, left the machine as the creation of its marker
does. -/
theorem created_of_download {o : DownloadOutcome} (h : dev.gives s (download dev.workDir) = .ok o)
    (ho : o = .started ∨ o = .startedBefore) :
    (∃ c, dev.gives s (create .download) = .ok (.ok c)) ∧
      dev.after s (download dev.workDir) = dev.after s (create .download) := by
  rw [download_eq, Device.gives_bind, after_announced] at h
  rw [download_eq]
  cases ha : dev.gives s (announced dev.workDir) with
  | error e =>
      rw [ha] at h
      cases h
  | ok a =>
      rw [ha] at h
      rw [Device.after_bind_of_ok ha, after_announced]
      cases a with
      | none =>
          obtain rfl := Except.ok.inj h
          simp at ho
      | some a =>
          exact created_of_requestDownload h ho

end Staging

/-- Creating and looking agree about every marker exactly if it is no link that leads astray. A
marker that was removed is not found, and can be created where the work directory is still there. A
progress after a download that was started is told as if its marker was found, unless it is a link
that leads astray; where it leads nowhere, no download is told of. -/
theorem markers_agree_iff (dev : Device) (s : Machine) (hw : s.files.Opens dev.workDir.path w) :
    (∀ m, Agree dev s m ↔ ¬s.files.LeadsAstray (dev.workDir.markerPath m)) ∧
    (∀ m, dev.gives s (dev.workDir.remove (.marker m)) = .ok () → Removed dev s m) ∧
    ∀ o, dev.gives s (Staging.download dev.workDir) = .ok o → o = .started ∨ o = .startedBefore →
      ∀ attempts,
        (¬s.files.LeadsAstray (dev.workDir.markerPath .download) →
          dev.gives (dev.after s (Staging.download dev.workDir))
              (Staging.progress dev.workDir attempts) =
            dev.gives (dev.after s (Staging.download dev.workDir))
              (Staging.requested dev.workDir attempts)) ∧
        (s.files.LeadsNowhere (dev.workDir.markerPath .download) →
          dev.gives (dev.after s (Staging.download dev.workDir))
              (Staging.progress dev.workDir attempts) = .ok .noDownloadStarted) := by
  refine ⟨fun m => agree_iff hw, fun m => removed_of_remove hw, fun o h ho attempts => ?_⟩
  obtain ⟨⟨c, hc⟩, hafter⟩ := Staging.created_of_download h ho
  obtain ⟨hfound, hmissed⟩ := has_after_create hw hc
  rw [hafter]
  refine ⟨fun hastray => ?_, fun hnowhere => ?_⟩
  · rw [Staging.gives_progress (hfound.mpr hastray)]
    rfl
  · rw [Staging.gives_progress (hmissed.mpr hnowhere)]
    rfl

def linked (target : String) : Machine where
  files.nodes := [(["w"], .directory), (["w", "downloadUpdate"], .link target),
    (["w", "artifact"], .file 0 (Text.encode "12345") false),
    (["w", "update_type"], .file 1 (Text.encode "firmware") false),
    (["w", "update_version"], .file 2 (Text.encode "2") false),
    (["w", "update_size"], .file 3 (Text.encode "10") false),
    (["w", "update_location"], .file 4 (Text.encode "artifact") false)]

theorem opens_linked (target : String) :
    (linked target).files.Opens plainDevice.workDir.path ["w"] := by
  change (linked target).files.walk .follow 40 [] ["w"] = _
  rw [walk_enter (by decide) rfl (by decide) (fun _ h => by cases h), walk_nil]
  rfl

theorem isLink_linked (target : String) :
    (linked target).files.IsLink (plainDevice.workDir.markerPath .download) :=
  (isLink_iff (opens_linked target) (isFileName .download) (by decide)).mpr ⟨target, rfl⟩

theorem get_linked {target : String} (h : Path.isAbsolute target = false) (hn : IsName target)
    (hnames : names target = [target])
    (hnode : ∀ other, (linked target).files.node? ["w", target] ≠ some (.link other)) :
    (linked target).files.get (plainDevice.workDir.markerPath .download) =
      match (linked target).files.node? ["w", target] with
      | some n => .ok n
      | none => .error (.number Errno.noEntry) := by
  have hwalk : (linked target).files.walk .follow 40 [] ["w", "downloadUpdate"] =
      .ok (["w", target], (linked target).files.node? ["w", target]) := by
    rw [walk_enter (by decide) rfl (by decide) (fun _ h => by cases h),
      walk_follow (.inl rfl) rfl (by decide) rfl, hnames, startOf, if_neg (by simp [h])]
    change (linked target).files.walk .follow 39 ["w"] [target] = _
    rw [walk_enter (by decide) rfl hn hnode, walk_nil]
    rfl
  have hfind : (linked target).files.find .follow (plainDevice.workDir.markerPath .download) =
      .ok (["w", target], (linked target).files.node? ["w", target]) := hwalk
  rw [FileTree.get, hfind]
  cases (linked target).files.node? ["w", target] with
  | none => rfl
  | some n => rfl

theorem gives_read_linked (target : String) (f : Descriptor) {text : String} {number : Nat}
    (hnode : (linked target).files.node? ["w", f.fileName] =
      some (.file number (Text.encode text) false)) :
    plainDevice.gives (linked target) (plainDevice.workDir.read f) =
        .ok (some (Text.trim text)) ∧
      plainDevice.after (linked target) (plainDevice.workDir.read f) = linked target := by
  refine gives_read_of_ok (readText_of_file (opens_linked target) ?_ ?_ hnode rfl)
  · cases f <;> decide
  · cases f <;> decide

theorem gives_announced_linked (target : String) :
    plainDevice.gives (linked target) (Staging.announced plainDevice.workDir) =
      .ok (some ⟨.firmware, ⟨2⟩, 10, some "/w/artifact"⟩) := by
  have htype := gives_read_linked target .type rfl
  have hversion := gives_read_linked target .version rfl
  have hsize := gives_read_linked target .size rfl
  have hlocation := gives_read_linked target .location rfl
  have htexts : Announcement.ofTexts (Text.trim "firmware") (Text.trim "2") (Text.trim "10") =
      .ok fun source => ⟨.firmware, ⟨2⟩, 10, source⟩ := rfl
  rw [Staging.announced, Device.gives_bind_of_ok htype.1, htype.2,
    Device.gives_bind_of_ok hversion.1, hversion.2, Device.gives_bind_of_ok hsize.1, hsize.2]
  dsimp only
  rw [htexts]
  have hsource : plainDevice.gives (linked target) plainDevice.workDir.location =
      .ok (some "/w/artifact") := by
    rw [location, Device.gives_bind_of_ok hlocation.1]
    exact congrArg Except.ok (by decide)
  exact (Device.gives_bind_of_ok rfl).trans (Device.gives_bind_of_ok hsource)

theorem gives_create_linked (target : String) :
    plainDevice.gives (linked target) (create .download) = .ok (.ok .alreadyPresent) := by
  have hcreate := (createNew_eq (opens_linked target) (isFileName .download)
    (by decide)).trans (if_pos rfl)
  rw [gives_create]
  exact congrArg (fun x => Except.ok (creationFrom x)) hcreate

theorem gives_download_linked (target : String) :
    plainDevice.gives (linked target) (Staging.download plainDevice.workDir) =
      .ok .startedBefore := by
  rw [Staging.download_eq, Device.gives_bind_of_ok (gives_announced_linked target),
    Staging.after_announced]
  exact Device.gives_bind_of_ok (gives_create_linked target)

theorem gives_remove_linked (target : String) :
    plainDevice.gives (linked target) (plainDevice.workDir.remove (.marker .download)) = .ok () :=
  (gives_remove_of_ok (remove_eq (opens_linked target) (isFileName .download) (by decide))).1

theorem reaches_linked_artifact :
    ¬(linked "artifact").files.LeadsAstray (plainDevice.workDir.markerPath .download) := by
  rintro ⟨-, e, he⟩
  rw [get_linked (by decide) (by decide) (by decide) (fun _ h => by cases h)] at he
  cases he

theorem agree_on_linked_artifact :
    (linked "artifact").files.Opens plainDevice.workDir.path ["w"] ∧
    Agree plainDevice (linked "artifact") .download ∧
    plainDevice.gives (linked "artifact") (plainDevice.workDir.remove (.marker .download)) =
      .ok () ∧
    Removed plainDevice (linked "artifact") .download ∧
    plainDevice.gives (linked "artifact") (Staging.download plainDevice.workDir) =
      .ok .startedBefore ∧
    plainDevice.gives
        (plainDevice.after (linked "artifact") (Staging.download plainDevice.workDir))
        (Staging.progress plainDevice.workDir 5) =
      plainDevice.gives
        (plainDevice.after (linked "artifact") (Staging.download plainDevice.workDir))
        (Staging.requested plainDevice.workDir 5) := by
  have hremove := gives_remove_linked "artifact"
  have hdownload := gives_download_linked "artifact"
  obtain ⟨hagree, hremoved, hprogress⟩ := markers_agree_iff plainDevice _ (opens_linked "artifact")
  exact ⟨opens_linked _, (hagree .download).mpr reaches_linked_artifact, hremove,
    hremoved .download hremove, hdownload,
    (hprogress _ hdownload (.inr rfl) 5).1 reaches_linked_artifact⟩

theorem leadsNowhere_linked_gone :
    (linked "gone").files.LeadsNowhere (plainDevice.workDir.markerPath .download) := by
  refine ⟨isLink_linked "gone", ?_⟩
  rw [get_linked (by decide) (by decide) (by decide) (fun _ h => by cases h)]
  rfl

/-- The marker is a link to something that is missing: it counts as present when it is created, is
not found afterwards, and the download that it stands for is told of as if it had not been asked
for. -/
theorem requested_through_lost_link :
    (linked "gone").files.Opens plainDevice.workDir.path ["w"] ∧
    (linked "gone").files.LeadsNowhere (plainDevice.workDir.markerPath .download) ∧
    plainDevice.gives (linked "gone") (plainDevice.workDir.has .download) = .ok false ∧
    plainDevice.gives (linked "gone") (create .download) = .ok (.ok .alreadyPresent) ∧
    plainDevice.gives (plainDevice.after (linked "gone") (create .download))
      (plainDevice.workDir.has .download) = .ok false ∧
    plainDevice.gives (linked "gone") (Staging.download plainDevice.workDir) =
      .ok .startedBefore ∧
    plainDevice.gives
        (plainDevice.after (linked "gone") (Staging.download plainDevice.workDir))
        (Staging.progress plainDevice.workDir 5) = .ok .noDownloadStarted := by
  have hmissed := (has_after_create (opens_linked "gone") (gives_create_linked "gone")).2.mpr
    leadsNowhere_linked_gone
  have hdownload := gives_download_linked "gone"
  refine ⟨opens_linked _, leadsNowhere_linked_gone, ?_, gives_create_linked "gone", hmissed,
    hdownload, ?_⟩
  · exact gives_has_eq_ok_iff.mpr (isPresent_eq_false_iff.mpr leadsNowhere_linked_gone.2)
  · rw [(Staging.created_of_download hdownload (.inr rfl)).2, Staging.gives_progress hmissed]
    rfl

end Dualbank
