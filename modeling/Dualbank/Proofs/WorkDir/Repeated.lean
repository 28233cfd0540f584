import Dualbank.Proofs.Footprint
import Dualbank.Proofs.Plan.Gives
import Mathlib.Logic.Function.Basic

namespace Dualbank

open Plan Routine

structure Site where
  phase : Phase
  files : Directory

namespace Site

def holds (w : Site) (m : Marker) : Bool := (w.files (.marker m)).isSome

def contents (w : Site) (f : Descriptor) : Except OsError String :=
  (w.files (.descriptor f)).elim (.error (.number Errno.noEntry)) .ok

def creation (w : Site) (m : Marker) : Except OsError Unit :=
  if w.holds m then .error (.number Errno.alreadyPresent) else .ok ()

def create (w : Site) (m : Marker) : Site :=
  if w.holds m then w else { w with files := Function.update w.files (.marker m) (some "") }

def removal (w : Site) (e : Entry) : Except OsError Unit :=
  if (w.files e).isSome then .ok () else .error (.number Errno.noEntry)

def remove (w : Site) (e : Entry) : Site := { w with files := Function.update w.files e none }

end Site

namespace Call

/-- Nobody else is at work, the record accepts what is written, and the device reboots. A call about
files that has a fault fails with it every time, and does nothing. -/
def undisturbed (faults : Call → Option OsError) : Rules Answer Site
  | readPhase, w, x, w' => x = .ok w.phase ∧ w' = w
  | writePhase p, w, x, w' => x = .ok () ∧ w' = { w with phase := p }
  | reboot, w, x, w' => x = .ok () ∧ w' = w
  | has m, w, x, w' => x = (faults (has m)).elim (.ok (w.holds m)) .error ∧ w' = w
  | read f, w, x, w' => x = (faults (read f)).elim (w.contents f) .error ∧ w' = w
  | create m, w, x, w' => x = (faults (create m)).elim (w.creation m) .error ∧
      w' = (faults (create m)).elim (w.create m) fun _ => w
  | remove e, w, x, w' => x = (faults (remove e)).elim (w.removal e) .error ∧
      w' = (faults (remove e)).elim (w.remove e) fun _ => w
  | _, w, _, w' => w' = w

def OfStage : Call → Prop
  | readPhase | writePhase _ | reboot | has _ | read _ | create _ | remove _ => True
  | _ => False

end Call

open Call (undisturbed)

/-- The routine comes to an end, and always in `w'`. -/
structure Leads {α : Type} (faults : Call → Option OsError) (r : Routine α) (w w' : Site) :
    Prop where
  ends : ∃ x v, Gives (undisturbed faults) r.run w x v
  unique : ∀ x v, Gives (undisturbed faults) r.run w x v → v = w'

variable {faults : Call → Option OsError} {d : WorkDir} {w w' : Site} {m : Marker} {α β : Type}

namespace Site

theorem create_eq_self (h : w.holds m) : w.create m = w := if_pos h

theorem holds_create_self (w : Site) (m : Marker) : (w.create m).holds m := by
  by_cases h : w.holds m
  · rwa [create_eq_self h]
  · rw [create, if_neg h]
    simp [holds]

theorem create_create (w : Site) (m : Marker) : (w.create m).create m = w.create m :=
  create_eq_self (w.holds_create_self m)

theorem holds_create_of_ne {m' : Marker} (w : Site) (h : m' ≠ m) :
    (w.create m).holds m' = w.holds m' := by
  unfold create
  split
  · rfl
  · simp [holds, Function.update_of_ne, h]

theorem holds_remove_self (w : Site) (m : Marker) : (w.remove (.marker m)).holds m = false := by
  simp [holds, remove]

theorem holds_remove_of_ne {m' : Marker} (w : Site) (h : m' ≠ m) :
    (w.remove (.marker m)).holds m' = w.holds m' := by
  simp [holds, remove, h]

end Site

namespace Call

theorem exists_undisturbed (faults : Call → Option OsError) (q : Call) (w : Site) :
    ∃ x w', undisturbed faults q w x w' := by
  obtain ⟨x⟩ := q.nonempty_answer
  cases q with
  | readPhase | writePhase | reboot | has | read | create | remove => exact ⟨_, _, rfl, rfl⟩
  | _ => exact ⟨x, w, rfl⟩

theorem OfStage.unique {q : Call} {x y : q.Answer} {v u : Site} (h : q.OfStage)
    (hx : undisturbed faults q w x v) (hy : undisturbed faults q w y u) : x = y ∧ v = u := by
  cases q with
  | readPhase | writePhase | reboot | has | read | create | remove =>
      exact ⟨hx.1.trans hy.1.symm, hx.2.trans hy.2.symm⟩
  | _ => exact h.elim

def OnlyCreates (m : Marker) : Call → Prop
  | readPhase | reboot | has _ | read _ => True
  | create m' => m' = m
  | _ => False

theorem OnlyCreates.ofStage {q : Call} (h : q.OnlyCreates m) : q.OfStage := by
  cases q with
  | readPhase | reboot | has | read | create => exact trivial
  | _ => exact h.elim

theorem OnlyCreates.cases {q : Call} {x : q.Answer} {v : Site} (h : q.OnlyCreates m)
    (hx : undisturbed faults q w x v) : v = w ∨ v = w.create m := by
  cases q with
  | readPhase | reboot | has | read => exact .inl hx.2
  | create m' =>
      obtain rfl : m' = m := h
      cases hf : faults (create m') with
      | some e => exact .inl (hx.2.trans (by rw [hf]; rfl))
      | none => exact .inr (hx.2.trans (by rw [hf]; rfl))
  | _ => exact h.elim

end Call

theorem cases_of_onlyCreates {r : Routine α} {x : Except Error α}
    (h : Asks (Call.OnlyCreates m) r.run) (hg : Gives (undisturbed faults) r.run w x w') :
    w' = w ∨ w' = w.create m := by
  have hsure : Sure (undisturbed faults) (fun _ => True) r.run w
      fun _ v => v = w ∨ v = w.create m := by
    refine h.sure (I := fun v => v = w ∨ v = w.create m) ?_ (.inl rfl)
    rintro q v x u hq (rfl | rfl) hx
    · exact ⟨trivial, hq.cases hx⟩
    · have hu := hq.cases hx
      rw [w.create_create m] at hu
      exact ⟨trivial, .inr (hu.elim id id)⟩
  exact hsure.gives hg

/-- What only ever creates one marker does nothing the second time. -/
theorem leads_of_onlyCreates {r : Routine α} (h : Asks (Call.OnlyCreates m) r.run) (w : Site) :
    ∃ w', Leads faults r w w' ∧ Leads faults r w' w' := by
  have hunique {v v' u : Site} {x y : Except Error α} (hx : Gives (undisturbed faults) r.run v x v')
      (hy : Gives (undisturbed faults) r.run v y u) : u = v' := by
    refine (h.gives_unique (fun q _ _ _ _ _ hq hx hy => ?_) hy hx).2
    exact Call.OfStage.unique hq.ofStage hx hy
  have hends (v : Site) := exists_gives (Call.exists_undisturbed faults) r.run v
  obtain ⟨x, w', hg⟩ := hends w
  refine ⟨w', ⟨⟨x, w', hg⟩, fun y u hy => hunique hg hy⟩, ⟨hends w', fun y u hy => ?_⟩⟩
  -- A run that left the site alone is the second run too; else the marker is there for it.
  rcases cases_of_onlyCreates h hg with rfl | rfl
  · exact hunique hg hy
  · have hu := cases_of_onlyCreates h hy
    rw [w.create_create m] at hu
    exact hu.elim id id

structure Requests (faults : Call → Option OsError) (w : Site) : Prop where
  installed : w.holds .installed
  download : w.holds .download
  apply : ¬w.holds .apply
  sound : ∀ q ∈ [.has .installed, .has .apply, .has .download, .create .apply], faults q = none

/-- An activation takes a rollback out of the way of a package, which the next asks to boot. -/
structure Turns (faults : Call → Option OsError) (w : Site) : Prop where
  rollback : w.holds .rollback
  sound : ∀ q ∈ [.has .rollback, .remove (.marker .rollback)], faults q = none
  requests : Requests faults w

def Phase.afterApply (p : Phase) : Phase := if p.isSwitched then p.afterCommit else p

theorem Phase.afterApply_afterApply (p : Phase) : p.afterApply.afterApply = p.afterApply := by
  cases p <;> rfl

namespace Site

def rolledBack (faults : Call → Option OsError) (w : Site) : Site :=
  (faults (.remove (.marker .rollback))).elim
    ({ w with phase := w.phase.afterApply }.remove (.marker .rollback))
    fun _ => { w with phase := w.phase.afterApply }

theorem rolledBack_of_none (hf : faults (.remove (.marker .rollback)) = none) (w : Site) :
    w.rolledBack faults = { w with phase := w.phase.afterApply }.remove (.marker .rollback) := by
  rw [rolledBack, hf]
  rfl

theorem rolledBack_of_some {e : OsError} (hf : faults (.remove (.marker .rollback)) = some e)
    (w : Site) : w.rolledBack faults = { w with phase := w.phase.afterApply } := by
  rw [rolledBack, hf]
  rfl

theorem rolledBack_rolledBack {e : OsError} (hf : faults (.remove (.marker .rollback)) = some e)
    (w : Site) : (w.rolledBack faults).rolledBack faults = w.rolledBack faults := by
  rw [rolledBack_of_some hf, rolledBack_of_some hf]
  exact congrArg (Site.mk · w.files) w.phase.afterApply_afterApply

theorem holds_rolledBack (hf : faults (.remove (.marker .rollback)) = none) (w : Site) :
    (w.rolledBack faults).holds .rollback = false := by
  rw [rolledBack_of_none hf]
  exact holds_remove_self _ _

theorem holds_rolledBack_of_some {e : OsError} (hf : faults (.remove (.marker .rollback)) = some e)
    (w : Site) : (w.rolledBack faults).holds m = w.holds m := by
  rw [rolledBack_of_some hf]
  rfl

theorem holds_rolledBack_of_ne (faults : Call → Option OsError) (w : Site) (h : m ≠ .rollback) :
    (w.rolledBack faults).holds m = w.holds m := by
  cases hf : faults (.remove (.marker .rollback)) with
  | some e => exact holds_rolledBack_of_some hf w
  | none =>
      rw [rolledBack_of_none hf]
      exact holds_remove_of_ne _ h

end Site

theorem requests_rolledBack : Requests faults (w.rolledBack faults) ↔ Requests faults w := by
  have hi : (w.rolledBack faults).holds .installed = w.holds .installed :=
    w.holds_rolledBack_of_ne faults (by decide)
  have hd : (w.rolledBack faults).holds .download = w.holds .download :=
    w.holds_rolledBack_of_ne faults (by decide)
  have ha : (w.rolledBack faults).holds .apply = w.holds .apply :=
    w.holds_rolledBack_of_ne faults (by decide)
  constructor
  · rintro ⟨h₁, h₂, h₃, h₄⟩
    exact ⟨hi ▸ h₁, hd ▸ h₂, ha ▸ h₃, h₄⟩
  · rintro ⟨h₁, h₂, h₃, h₄⟩
    exact ⟨hi ▸ h₁, hd ▸ h₂, ha ▸ h₃, h₄⟩

theorem leads_pure (a : α) : Leads faults (pure a) w w :=
  ⟨⟨.ok a, w, gives_done.mpr ⟨rfl, rfl⟩⟩, fun _ _ hg => (gives_done.mp hg).2⟩

theorem leads_throw (e : Error) : Leads faults (throw e : Routine α) w w :=
  ⟨⟨.error e, w, gives_done.mpr ⟨rfl, rfl⟩⟩, fun _ _ hg => (gives_done.mp hg).2⟩

theorem leads_ask_bind {q : Call} {x : q.Answer} {v : Site} {f : q.Answer → Routine α}
    (hq : q.OfStage) (hx : undisturbed faults q w x v) (h : Leads faults (f x) v w') :
    Leads faults (ask q >>= f) w w' := by
  constructor
  · obtain ⟨y, u, hg⟩ := h.ends
    exact ⟨y, u, gives_ask.mpr ⟨x, v, hx, hg⟩⟩
  · intro y u hg
    obtain ⟨x', v', hx', hg⟩ := gives_ask.mp hg
    obtain ⟨rfl, rfl⟩ := hq.unique hx hx'
    exact h.unique y u hg

theorem leads_has_bind {f : Bool → Routine α} (hfault : ∀ e, faults (.has m) = some e → w' = w)
    (h : faults (.has m) = none → Leads faults (f (w.holds m)) w w') :
    Leads faults (d.has m >>= f) w w' := by
  rw [WorkDir.has, LawfulMonad.bind_assoc]
  refine leads_ask_bind trivial ⟨rfl, rfl⟩ ?_
  cases hf : faults (.has m) with
  | some e =>
      rw [hfault e hf]
      exact leads_throw _
  | none => exact h hf

namespace Staging

theorem request_leads : Leads faults apply.request w
    ((faults (.create .apply)).elim (w.create .apply) fun _ => w) := by
  rw [apply.request, WorkDir.create, LawfulMonad.bind_assoc]
  refine leads_ask_bind trivial ⟨rfl, rfl⟩ ?_
  cases (faults (.create .apply)).elim (w.creation .apply) .error with
  | ok u => exact leads_pure _
  | error e =>
      dsimp only
      by_cases he : e.isAlreadyPresent
      · rw [if_pos he]
        exact leads_pure _
      · rw [if_neg he]
        exact leads_pure _

theorem reboot_leads_bind {f : ApplyOutcome → Routine α} (h : Leads faults (f .successful) w w') :
    Leads faults (reboot >>= f) w w' := by
  rw [reboot, LawfulMonad.bind_assoc]
  exact leads_ask_bind trivial ⟨rfl, rfl⟩ h

theorem reboot_leads : Leads faults reboot w w :=
  leads_ask_bind trivial ⟨rfl, rfl⟩ (leads_pure _)

theorem applyInstalled_leads (hyes : Requests faults w → w' = w.create .apply)
    (hno : ¬Requests faults w → w' = w) : Leads faults (applyInstalled d) w w' := by
  have hfault {q : Call} (hq : q ∈ [.has .installed, .has .apply, .has .download, .create .apply])
      (e : OsError) (hf : faults q = some e) : w' = w := by
    -- A call that fails leaves the site alone, and then no package was asked for.
    refine hno fun h => ?_
    rw [h.sound q hq] at hf
    cases hf
  refine leads_has_bind (hfault (by simp)) fun hfi => ?_
  cases hi : w.holds .installed with
  | false =>
      rw [hno fun h => by simp [h.installed] at hi]
      exact leads_pure _
  | true =>
      refine leads_has_bind (hfault (by simp)) fun hfa => ?_
      cases ha : w.holds .apply with
      | true =>
          have hw : (faults (.create .apply)).elim (w.create .apply) (fun _ => w) = w' := by
            rw [hno fun h => h.apply ha, Site.create_eq_self ha]
            cases faults (.create .apply) <;> rfl
          exact hw ▸ request_leads
      | false =>
          refine leads_has_bind (hfault (by simp)) fun hfd => ?_
          cases hd : w.holds .download with
          | false =>
              rw [hno fun h => by simp [h.download] at hd]
              exact reboot_leads
          | true =>
              have hw : (faults (.create .apply)).elim (w.create .apply) (fun _ => w) = w' := by
                cases hfc : faults (.create .apply) with
                | some e => exact (hfault (by simp) e hfc).symm
                | none =>
                    refine (hyes ⟨hi, hd, by simp [ha], ?_⟩).symm
                    simp [hfi, hfa, hfd, hfc]
              exact hw ▸ request_leads

theorem remove_leads_bind {e : Entry} (a : α) : Leads faults (do d.remove e; return a) w
    ((faults (.remove e)).elim (w.remove e) fun _ => w) := by
  rw [WorkDir.remove, LawfulMonad.bind_assoc]
  refine leads_ask_bind trivial ⟨rfl, rfl⟩ ?_
  cases (faults (.remove e)).elim (w.removal e) .error with
  | ok u => exact leads_pure a
  | error cause =>
      dsimp only
      by_cases hc : cause.isNotFound
      · rw [if_pos hc]
        exact leads_pure a
      · rw [if_neg hc]
        exact leads_throw _

theorem applyRollback_leads (d : WorkDir) (w : Site) :
    Leads faults (applyRollback d) w (w.rolledBack faults) := by
  have hend : Leads faults (do d.remove (.marker .rollback); return ApplyOutcome.successful)
      { w with phase := w.phase.afterApply } (w.rolledBack faults) := remove_leads_bind _
  rw [applyRollback, readPhase, LawfulMonad.bind_assoc]
  refine leads_ask_bind trivial ⟨rfl, rfl⟩ ?_
  change Leads faults (if w.phase.isSwitched then _ else _) w _
  by_cases hp : w.phase.isSwitched
  · rw [if_pos hp, writePhase, LawfulMonad.bind_assoc]
    refine leads_ask_bind trivial ⟨rfl, rfl⟩ ?_
    rw [Phase.afterApply, if_pos hp] at hend
    exact reboot_leads_bind hend
  · rw [if_neg hp]
    rw [Phase.afterApply, if_neg hp] at hend
    exact reboot_leads_bind hend

theorem apply_leads_of_fault {e : OsError} (h : faults (.has .rollback) = some e) :
    Leads faults (apply d) w w := by
  rw [apply_eq]
  refine leads_has_bind (fun _ _ => rfl) fun hf => ?_
  rw [h] at hf
  cases hf

theorem apply_leads_of_holds (hf : faults (.has .rollback) = none) (h : w.holds .rollback) :
    Leads faults (apply d) w (w.rolledBack faults) := by
  rw [apply_eq]
  refine leads_has_bind (fun e he => by rw [hf] at he; cases he) fun _ => ?_
  rw [if_pos h]
  exact applyRollback_leads d w

theorem apply_leads_of_not_holds (h : ¬w.holds .rollback)
    (hw : Leads faults (applyInstalled d) w w') (hf : faults (.has .rollback) = none) :
    Leads faults (apply d) w w' := by
  rw [apply_eq]
  refine leads_has_bind (fun e he => by rw [hf] at he; cases he) fun _ => ?_
  rw [if_neg h]
  exact hw

/-- Without a rollback an activation does nothing the second time: a package for which it asks is
not asked for again. -/
theorem apply_repeats_of_not_holds (hf : faults (.has .rollback) = none) (h : ¬w.holds .rollback) :
    ∃ w', Leads faults (apply d) w w' ∧ Leads faults (apply d) w' w' := by
  by_cases hr : Requests faults w
  · refine ⟨w.create .apply, ?_, ?_⟩
    · exact apply_leads_of_not_holds h (applyInstalled_leads (fun _ => rfl) (absurd hr)) hf
    · refine apply_leads_of_not_holds ?_ (applyInstalled_leads ?_ fun _ => rfl) hf
      · rwa [w.holds_create_of_ne (by decide)]
      · exact fun hr' => absurd (w.holds_create_self _) hr'.apply
  · have hw : Leads faults (apply d) w w :=
      apply_leads_of_not_holds h (applyInstalled_leads (fun hr' => absurd hr' hr) fun _ => rfl) hf
    exact ⟨w, hw, hw⟩

theorem apply_repeats_of_not_turns (h : ¬Turns faults w) :
    ∃ w', Leads faults (apply d) w w' ∧ Leads faults (apply d) w' w' := by
  cases hf : faults (.has .rollback) with
  | some e => exact ⟨w, apply_leads_of_fault hf, apply_leads_of_fault hf⟩
  | none =>
      by_cases hr : w.holds .rollback
      · refine ⟨w.rolledBack faults, apply_leads_of_holds hf hr, ?_⟩
        cases hm : faults (.remove (.marker .rollback)) with
        | some e =>
            have hkept : (w.rolledBack faults).holds .rollback :=
              (w.holds_rolledBack_of_some hm).trans hr
            have hw := apply_leads_of_holds (d := d) hf hkept
            rwa [w.rolledBack_rolledBack hm] at hw
        | none =>
            have hgone : ¬(w.rolledBack faults).holds .rollback := by
              simp [w.holds_rolledBack hm]
            have hrequests : ¬Requests faults (w.rolledBack faults) := by
              rw [requests_rolledBack]
              exact fun hw => h ⟨hr, by simp [hf, hm], hw⟩
            exact apply_leads_of_not_holds hgone
              (applyInstalled_leads (fun hw => absurd hw hrequests) fun _ => rfl) hf
      · exact apply_repeats_of_not_holds hf hr

theorem apply_of_turns (h : Turns faults w) :
    Leads faults (apply d) w (w.rolledBack faults) ∧
      Leads faults (apply d) (w.rolledBack faults) ((w.rolledBack faults).create .apply) := by
  have hf : faults (.has .rollback) = none := h.sound _ (by simp)
  have hm : faults (.remove (.marker .rollback)) = none := h.sound _ (by simp)
  have hgone : ¬(w.rolledBack faults).holds .rollback := by
    simp [w.holds_rolledBack hm]
  have hrequests : Requests faults (w.rolledBack faults) := requests_rolledBack.mpr h.requests
  exact ⟨apply_leads_of_holds hf h.rollback, apply_leads_of_not_holds hgone
    (applyInstalled_leads (fun _ => rfl) (absurd hrequests)) hf⟩

end Staging

/-- A stage that is done again right away changes nothing more. The exception is an activation that
took a rollback out of the way of an installed package from the network: the second one asks to boot
that package, and changes nothing else. -/
theorem stage_repeats (faults : Call → Option OsError) (d : WorkDir) (op : Operation)
    (hop : op = .download ∨ op = .install ∨ op = .apply) (w : Site) :
    ∃ w₁ w₂, Leads faults (op.routine d) w w₁ ∧ Leads faults (op.routine d) w₁ w₂ ∧
      (¬(op = .apply ∧ Turns faults w) → w₂ = w₁) ∧
      (op = .apply → Turns faults w → w₁.holds .apply = false ∧ w₂ = w₁.create .apply) := by
  rcases hop with rfl | rfl | rfl
  · have hasks : Asks (Call.OnlyCreates .download) (Staging.download d).run :=
      Staging.download_asks (fun _ => trivial) rfl
    obtain ⟨w', h₁, h₂⟩ := leads_of_onlyCreates (m := .download) hasks w
    exact ⟨w', w', h₁, h₂, fun _ => rfl, fun h => by cases h⟩
  · have hasks : Asks (Call.OnlyCreates .install) (Staging.install d).run :=
      Staging.install_asks trivial trivial rfl
    obtain ⟨w', h₁, h₂⟩ := leads_of_onlyCreates hasks w
    exact ⟨w', w', h₁, h₂, fun _ => rfl, fun h => by cases h⟩
  · by_cases h : Turns faults w
    · obtain ⟨h₁, h₂⟩ := Staging.apply_of_turns (d := d) h
      refine ⟨_, _, h₁, h₂, fun hn => absurd ⟨rfl, h⟩ hn, fun _ _ => ⟨?_, rfl⟩⟩
      rw [w.holds_rolledBack_of_ne faults (by decide)]
      simpa using h.requests.apply
    · obtain ⟨w', h₁, h₂⟩ := Staging.apply_repeats_of_not_turns (d := d) h
      exact ⟨w', w', h₁, h₂, fun _ => rfl, fun _ hw => absurd hw h⟩

theorem download_repeats :
    ∃ w₁, Leads (fun _ => none) (Staging.download ⟨"/data"⟩)
        ⟨.idle, fun e => if e = .descriptor .location then none else some "1"⟩ w₁ ∧
      Leads (fun _ => none) (Staging.download ⟨"/data"⟩) w₁ w₁ := by
  obtain ⟨w₁, w₂, h₁, h₂, heq, -⟩ := stage_repeats (fun _ => none) ⟨"/data"⟩ .download (.inl rfl)
    ⟨.idle, fun e => if e = .descriptor .location then none else some "1"⟩
  obtain rfl := heq fun h => by cases h.1
  exact ⟨_, h₁, h₂⟩

/-- A rollback is pending, and a package from the network is installed: the second activation asks
to boot the package. -/
theorem apply_requests_when_repeated :
    ¬∀ w w₁ w₂ : Site, Leads (fun _ => none) (Staging.apply ⟨"/data"⟩) w w₁ →
      Leads (fun _ => none) (Staging.apply ⟨"/data"⟩) w₁ w₂ → w₂ = w₁ := by
  intro h
  let w : Site := ⟨.switched .firmware, fun e =>
    if e = .marker .rollback ∨ e = .marker .installed ∨ e = .marker .download then some ""
    else none⟩
  have hw : Turns (fun _ => none) w :=
    ⟨by decide, fun _ _ => rfl, by decide, by decide, by decide, fun _ _ => rfl⟩
  obtain ⟨h₁, h₂⟩ := Staging.apply_of_turns (d := ⟨"/data"⟩) hw
  have hsame := congrArg (Site.holds · .apply) (h _ _ _ h₁ h₂)
  rw [Site.holds_create_self] at hsame
  exact absurd hsame (by decide)

end Dualbank
