import Dualbank.Proofs.Files
import Dualbank.Proofs.Operation

namespace Dualbank

open Plan Routine

namespace Call

def OfUpdate (o : Offer) : Call → Prop
  | install i p => (i, p) ∈ o.parts
  | readPhase | writePhase _ | log _ => True
  | _ => False

def OfCommit : Call → Prop
  | readPhase | isRebooted _ | remove _ | writePhase _ => True
  | _ => False

def OfSwitch (t : Target) : Call → Prop
  | switch i => i ∈ t.images
  | readPhase | writePhase _ | create .rollback => True
  | _ => False

end Call

namespace Operation

def MayAsk : Operation → Call → Prop
  | update o => Call.OfUpdate o
  | updateIfNewer o => fun
    | .installedVersion _ => True
    | q => q.OfUpdate o
  | allowAutomatic | commit => Call.OfCommit
  | rollback t | switchSlot t => Call.OfSwitch t
  | download => fun
    | .read _ | .create .download => True
    | _ => False
  | progress _ => fun
    | .has .download | .read _ | .inspect _ | .pause => True
    | _ => False
  | install => fun
    | .read .location | .has .installed | .create .install => True
    | _ => False
  | apply => fun
    | .has _ | .readPhase | .writePhase _ | .reboot | .remove (.marker .rollback)
    | .create .apply => True
    | _ => False

end Operation

variable {sort : Call → Prop} {d : WorkDir}

namespace Routine

theorem readPhase_asks (h : sort .readPhase) : Asks sort readPhase.run :=
  asks_run_bind ((asks_run_ask _).mpr h) fun _ => asks_run_ofExcept _

theorem writePhase_asks {p : Phase} (h : sort (.writePhase p)) : Asks sort (writePhase p).run :=
  asks_run_bind ((asks_run_ask _).mpr h) fun _ => asks_run_ofExcept _

theorem installedVersion_asks {t : Target} (h : sort (.installedVersion t)) :
    Asks sort (installedVersion t).run :=
  asks_run_bind ((asks_run_ask _).mpr h) fun _ => asks_run_ofExcept _

end Routine

namespace Update

theorem giveUp_asks {i : Image} {before : Option Image} {e : EngineError}
    (hw : ∀ p, sort (.writePhase p)) (hl : ∀ m, sort (.log m)) :
    Asks sort (giveUp i before e).run := by
  unfold giveUp
  dsimp only
  split
  · apply asks_run_bind ((asks_run_ask _).mpr (hw _))
    intro x
    cases x with
    | ok u => exact trivial
    | error e => exact ⟨hl _, fun _ => ⟨hl _, fun _ => trivial⟩⟩
  · exact trivial

theorem writeParts_asks {parts : List (Image × Package)} {before : Option Image}
    (hi : ∀ x ∈ parts, sort (.install x.1 x.2)) (hw : ∀ p, sort (.writePhase p))
    (hl : ∀ m, sort (.log m)) : Asks sort (writeParts before parts).run := by
  induction parts generalizing before with
  | nil => exact trivial
  | cons part rest ih =>
      obtain ⟨hpart, hrest⟩ := List.forall_mem_cons.mp hi
      apply asks_run_bind ((asks_run_ask _).mpr hpart)
      intro x
      cases x with
      | ok u => exact ih hrest
      | error e => exact giveUp_asks hw hl

theorem update_asks {o : Offer} (hr : sort .readPhase)
    (hi : ∀ x ∈ o.parts, sort (.install x.1 x.2)) (hw : ∀ p, sort (.writePhase p))
    (hl : ∀ m, sort (.log m)) : Asks sort (update o).run := by
  unfold update
  split
  · exact trivial
  · apply asks_run_bind (readPhase_asks hr)
    intro p
    split
    · exact asks_run_bind (writeParts_asks hi hw hl) fun _ => writePhase_asks (hw _)
    · exact trivial

theorem offersNewer_asks {parts : List (Image × Package)}
    (h : ∀ part ∈ parts, sort (.installedVersion (.only part.1))) :
    Asks sort (offersNewer parts).run := by
  induction parts with
  | nil => exact trivial
  | cons part rest ih =>
      obtain ⟨hpart, hparts⟩ := List.forall_mem_cons.mp h
      have hrest (b : Bool) : Asks sort (do return b || (← offersNewer rest) : Routine Bool).run :=
        asks_run_bind (ih hparts) fun _ => trivial
      rw [offersNewer]
      split
      · exact hrest true
      · exact asks_run_bind (installedVersion_asks hpart) fun _ => hrest _

theorem updateIfNewer_asks {o : Offer} (hv : ∀ t, sort (.installedVersion t))
    (hr : sort .readPhase) (hi : ∀ x ∈ o.parts, sort (.install x.1 x.2))
    (hw : ∀ p, sort (.writePhase p)) (hl : ∀ m, sort (.log m)) :
    Asks sort (updateIfNewer o).run := by
  apply asks_run_bind (offersNewer_asks fun _ _ => hv _)
  intro newer
  split
  · exact asks_run_bind (update_asks hr hi hw hl) fun _ => trivial
  · exact trivial

theorem isRebooted_asks {p : Phase} (h : ∀ f, sort (.isRebooted f)) :
    Asks sort (isRebooted p).run :=
  asks_run_bind ((asks_run_ask _).mpr (h _)) fun _ => asks_run_ofExcept _

def confirm (d : WorkDir) (p : Phase) : Routine CommitOutcome := do
  if p.afterCommit.isIdle then d.clear
  writePhase p.afterCommit
  return .committed

theorem confirm_asks {p : Phase} (he : ∀ e, sort (.remove e)) (hw : ∀ p, sort (.writePhase p)) :
    Asks sort (confirm d p).run := by
  have hwrite : Asks sort (do writePhase p.afterCommit; return .committed :
      Routine CommitOutcome).run :=
    asks_run_bind (writePhase_asks (hw _)) fun _ => trivial
  unfold confirm
  dsimp only
  split
  · exact asks_run_bind (WorkDir.clear_asks he) fun _ => hwrite
  · exact hwrite

theorem commit_eq (d : WorkDir) : commit d = (do
    let p ← readPhase
    if p.isIdle then return .notNeeded
    if p.awaitsReboot then
      if !(← isRebooted p) then return .rebootPending p.includesFirmware
    confirm d p) := rfl

theorem commit_asks (hr : sort .readPhase) (hb : ∀ f, sort (.isRebooted f))
    (he : ∀ e, sort (.remove e)) (hw : ∀ p, sort (.writePhase p)) :
    Asks sort (commit d).run := by
  rw [commit_eq]
  apply asks_run_bind (readPhase_asks hr)
  intro p
  split
  · exact trivial
  · dsimp only
    split
    · apply asks_run_bind (isRebooted_asks hb)
      intro b
      split
      · exact trivial
      · exact confirm_asks he hw
    · exact confirm_asks he hw

theorem settle_asks (hr : sort .readPhase) (hb : ∀ f, sort (.isRebooted f))
    (he : ∀ e, sort (.remove e)) (hw : ∀ p, sort (.writePhase p)) (n : Nat) :
    Asks sort (settle d n).run := by
  induction n with
  | zero =>
      apply asks_run_bind (readPhase_asks hr)
      intro p
      split <;> exact trivial
  | succ n ih =>
      apply asks_run_bind (readPhase_asks hr)
      intro p
      split
      · exact trivial
      · apply asks_run_bind (commit_asks hr hb he hw)
        intro outcome
        split
        · exact trivial
        · exact trivial
        · split
          · exact trivial
          · exact ih

theorem recordSwitch_asks {t : Target} (hw : ∀ p, sort (.writePhase p))
    (hc : sort (.create .rollback)) : Asks sort (recordSwitch t).run := by
  apply asks_run_bind (writePhase_asks (hw _))
  intro u
  apply asks_run_bind (WorkDir.create_asks hc)
  intro x
  split <;> exact trivial

theorem switchImages_asks {is : List Image} {before : Option Image}
    (hs : ∀ i ∈ is, sort (.switch i)) (hw : ∀ p, sort (.writePhase p))
    (hc : sort (.create .rollback)) : Asks sort (switchImages before is).run := by
  induction is generalizing before with
  | nil => exact trivial
  | cons i rest ih =>
      obtain ⟨hi, hrest⟩ := List.forall_mem_cons.mp hs
      apply asks_run_bind ((asks_run_ask _).mpr hi)
      intro x
      cases x with
      | ok u => exact ih hrest
      | error e =>
          cases before with
          | none => exact trivial
          | some w => exact asks_run_bind (recordSwitch_asks hw hc) fun _ => trivial

theorem switchTarget_asks {t : Target} (hs : ∀ i ∈ t.images, sort (.switch i))
    (hw : ∀ p, sort (.writePhase p)) (hc : sort (.create .rollback)) :
    Asks sort (switchTarget t).run :=
  asks_run_bind (switchImages_asks hs hw hc) fun _ => recordSwitch_asks hw hc

theorem rollback_asks {t : Target} (hr : sort .readPhase) (hs : ∀ i ∈ t.images, sort (.switch i))
    (hw : ∀ p, sort (.writePhase p)) (hc : sort (.create .rollback)) :
    Asks sort (rollback t).run := by
  apply asks_run_bind (readPhase_asks hr)
  intro p
  split
  · exact switchTarget_asks hs hw hc
  · exact trivial

theorem switchSlot_asks {t : Target} (hr : sort .readPhase)
    (hs : ∀ i ∈ t.images, sort (.switch i)) (hw : ∀ p, sort (.writePhase p))
    (hc : sort (.create .rollback)) : Asks sort (switchSlot t).run := by
  apply asks_run_bind (readPhase_asks hr)
  intro p
  split
  · exact switchTarget_asks hs hw hc
  · exact trivial

end Update

namespace Staging

theorem reboot_asks (h : sort .reboot) : Asks sort reboot.run := by
  apply asks_run_bind ((asks_run_ask _).mpr h)
  intro x
  split <;> exact trivial

def restart (d : WorkDir) (undo : Int → Routine ApplyOutcome) : Routine ApplyOutcome := do
  match ← reboot with
  | .rebootFailed n => undo n
  | outcome => do
    d.remove (.marker .rollback)
    return outcome

theorem restart_asks {undo : Int → Routine ApplyOutcome} (hb : sort .reboot)
    (he : sort (.remove (.marker .rollback))) (hu : ∀ n, Asks sort (undo n).run) :
    Asks sort (restart d undo).run := by
  apply asks_run_bind (reboot_asks hb)
  intro outcome
  split
  · exact hu _
  · exact asks_run_bind (WorkDir.remove_asks he) fun _ => trivial

theorem applyRollback_eq (d : WorkDir) : applyRollback d = (do
    let p ← readPhase
    if p.isSwitched then writePhase p.afterCommit
    restart d fun n => do
      if p.isSwitched then discard (ask (.writePhase p))
      return .rebootFailed n) := rfl

theorem applyRollback_asks (hr : sort .readPhase) (hw : ∀ p, sort (.writePhase p))
    (hb : sort .reboot) (he : sort (.remove (.marker .rollback))) :
    Asks sort (applyRollback d).run := by
  rw [applyRollback_eq]
  apply asks_run_bind (readPhase_asks hr)
  intro p
  dsimp only
  split
  · apply asks_run_bind (writePhase_asks (hw _))
    intro u
    exact restart_asks hb he fun _ => ⟨hw _, fun _ => trivial⟩
  · exact restart_asks hb he fun _ => trivial

def applyInstalled (d : WorkDir) : Routine ApplyOutcome := do
  if !(← d.has .installed) then return .nothingToApply
  else if ← d.has .apply then apply.request
  else if ← d.has .download then apply.request
  else reboot

theorem apply_eq (d : WorkDir) : apply d = (do
    if ← d.has .rollback then applyRollback d else applyInstalled d) := rfl

theorem applyInstalled_asks (hh : ∀ m, sort (.has m)) (hb : sort .reboot)
    (hc : sort (.create .apply)) : Asks sort (applyInstalled d).run := by
  have hrequest : Asks sort apply.request.run := by
    apply asks_run_bind (WorkDir.create_asks hc)
    intro x
    split <;> exact trivial
  apply asks_run_bind (WorkDir.has_asks (hh .installed))
  intro installed
  split
  · exact trivial
  · apply asks_run_bind (WorkDir.has_asks (hh .apply))
    intro requested
    split
    · exact hrequest
    · apply asks_run_bind (WorkDir.has_asks (hh .download))
      intro downloaded
      split
      · exact hrequest
      · exact reboot_asks hb

theorem apply_asks (hh : ∀ m, sort (.has m)) (hr : sort .readPhase)
    (hw : ∀ p, sort (.writePhase p)) (hb : sort .reboot)
    (he : sort (.remove (.marker .rollback))) (hc : sort (.create .apply)) :
    Asks sort (apply d).run := by
  rw [apply_eq]
  apply asks_run_bind (WorkDir.has_asks (hh .rollback))
  intro rollback
  split
  · exact applyRollback_asks hr hw hb he
  · exact applyInstalled_asks hh hb hc

end Staging

theorem Operation.asks (op : Operation) (d : WorkDir) : Asks op.MayAsk (op.routine d).run := by
  cases op with
  | update o =>
      exact Update.update_asks trivial (fun _ hx => hx) (fun _ => trivial) fun _ => trivial
  | updateIfNewer o =>
      exact Update.updateIfNewer_asks (fun _ => trivial) trivial (fun _ hx => hx)
        (fun _ => trivial) fun _ => trivial
  | allowAutomatic =>
      exact Update.settle_asks trivial (fun _ => trivial) (fun _ => trivial) (fun _ => trivial) _
  | commit =>
      exact Update.commit_asks trivial (fun _ => trivial) (fun _ => trivial) fun _ => trivial
  | rollback t =>
      exact Update.rollback_asks trivial (fun _ hi => hi) (fun _ => trivial) trivial
  | switchSlot t =>
      exact Update.switchSlot_asks trivial (fun _ hi => hi) (fun _ => trivial) trivial
  | download => exact Staging.download_asks (fun _ => trivial) trivial
  | progress n =>
      exact Staging.progress_asks trivial (fun _ => trivial) trivial fun _ => trivial
  | install => exact Staging.install_asks trivial trivial trivial
  | apply =>
      exact Staging.apply_asks (fun _ => trivial) trivial (fun _ => trivial) trivial trivial
        trivial

end Dualbank
