import Dualbank.Proofs.Footprint
import Dualbank.Proofs.Plan.Finishes
import Dualbank.Text.Utf8
import Mathlib.Logic.Function.Basic

namespace Dualbank

open Plan Routine Phase

inductive Object
  | file (bytes : Bytes)
  | link (target : String)
  | directory

structure Depot where
  record : Except Error Phase
  objects : String → Option Object

abbrev DepotEvent := Event Call.Answer Depot

variable {k k' : Depot} {d : WorkDir} {e : Entry} {es : List Entry} {m : Marker} {p : Phase}
  {name : String} {α β : Type}

namespace Depot

def without (k : Depot) (es : List Entry) : Depot :=
  { k with objects := fun name => if name ∈ es.map Entry.fileName then none else k.objects name }

def Tells (k : Depot) (m : Marker) (b : Bool) : Prop :=
  (k.objects m.fileName).isSome = b ∨ ∃ target, k.objects m.fileName = some (.link target)

def Removable (k : Depot) (es : List Entry) : Prop :=
  ∀ e ∈ es, k.objects e.fileName ≠ some .directory

@[simp] theorem without_nil (k : Depot) : k.without [] = k := by
  simp [without]

theorem without_cons (k : Depot) (e : Entry) (es : List Entry) :
    (k.without [e]).without es = k.without (e :: es) := by
  refine congrArg (Depot.mk k.record) ?_
  funext name
  by_cases he : name = e.fileName <;> simp [without, he]

theorem without_of_none (h : k.objects e.fileName = none) : k.without [e] = k := by
  refine congrArg (Depot.mk k.record) ?_
  funext name
  by_cases he : name = e.fileName <;> simp [he, h]

theorem objects_without_of_notMem (h : name ∉ es.map Entry.fileName) :
    (k.without es).objects name = k.objects name := if_neg h

theorem Removable.cons (he : k.objects e.fileName ≠ some .directory)
    (hes : (k.without [e]).Removable es) : k.Removable (e :: es) := by
  refine List.forall_mem_cons.mpr ⟨he, fun f hf => ?_⟩
  by_cases hfe : f.fileName = e.fileName
  · rwa [hfe]
  · have hsame : (k.without [e]).objects f.fileName = k.objects f.fileName :=
      objects_without_of_notMem (by simpa using hfe)
    rw [← hsame]
    exact hes f hf

end Depot

namespace Call

/-- A call may fail at any time, and then it has changed nothing. A creation is exclusive, and a
directory is not removed. -/
def inDepot : Rules Answer Depot
  | readPhase, k, x, k' => x = k.record ∧ k' = k
  | writePhase p, k, .ok (), k' => k' = { k with record := .ok p }
  | has m, k, x, k' => k' = k ∧ ∀ b, x = .ok b → k.Tells m b
  | create m, k, .ok (), k' => k.objects m.fileName = none ∧
    k' = { k with objects := Function.update k.objects m.fileName (some (.file [])) }
  | remove e, k, .ok (), k' =>
    (∃ o, k.objects e.fileName = some o ∧ o ≠ .directory) ∧ k' = k.without [e]
  | remove e, k, .error cause, k' => k' = k ∧ (cause.isNotFound → k.objects e.fileName = none)
  | _, k, _, k' => k' = k

theorem exists_inDepot (q : Call) (k : Depot) : ∃ x k', inDepot q k x k' := by
  obtain ⟨x⟩ := q.nonempty_answer
  cases q with
  | readPhase => exact ⟨_, k, rfl, rfl⟩
  | writePhase p => exact ⟨.ok (), _, rfl⟩
  | has m => exact ⟨.ok _, k, rfl, fun b hb => .inl (Except.ok.inj hb)⟩
  | create m => exact ⟨.error .noCommand, k, rfl⟩
  | remove e => exact ⟨.error .noCommand, k, rfl, fun h => by cases h⟩
  | _ => exact ⟨x, k, rfl⟩

end Call

open Call (inDepot)

inductive AfterCommit (k : Depot) : Except Error CommitOutcome → Depot → Prop
  | notNeeded (hp : k.record = .ok idle) : AfterCommit k (.ok .notNeeded) k
  | rebootPending {p : Phase} (hp : k.record = .ok p) (hr : p.awaitsReboot) :
      AfterCommit k (.ok (.rebootPending p.includesFirmware)) k
  | reverted {t : Target} (hp : k.record = .ok (switched t)) :
      AfterCommit k (.ok .committed) { k with record := .ok (reverted t) }
  | cleared {p : Phase} (hp : k.record = .ok p) (hn : p ≠ idle) (ha : p.afterCommit = idle)
      (hr : k.Removable Entry.all) :
      AfterCommit k (.ok .committed) { k.without Entry.all with record := .ok idle }
  /-- The first `n` entries are gone, none if there was nothing to clear. -/
  | failed (e : Error) (n : Nat) (hr : k.Removable (Entry.all.take n))
      (hn : 0 < n → ∃ p, k.record = .ok p ∧ p ≠ idle ∧ p.afterCommit = idle) :
      AfterCommit k (.error e) (k.without (Entry.all.take n))

theorem AfterCommit.unchanged (e : Error) : AfterCommit k (.error e) k := by
  have h := AfterCommit.failed (k := k) e 0 (List.forall_mem_nil _) fun h => absurd h (by simp)
  rwa [List.take_zero, Depot.without_nil] at h

section Calls

variable {rules : Rules Call.Answer Depot} {fail : Error → List DepotEvent → Depot → Prop}
  (hr : ∀ q k x k', rules q k x k' → inDepot q k x k')
include hr

theorem readPhase_finishes {post : Phase → List DepotEvent → Depot → Prop}
    (hok : ∀ p, k.record = .ok p → post p [⟨.readPhase, .ok p, k, k⟩] k)
    (herr : ∀ e, k.record = .error e → fail e [⟨.readPhase, .error e, k, k⟩] k) :
    FinishesOr rules readPhase k post fail := by
  refine finishesOr_ask_bind.mpr fun x v hx => ?_
  obtain ⟨rfl, rfl⟩ := hr _ _ _ _ hx
  rw [finishesOr_ofExcept]
  cases hp : v.record with
  | ok p => exact hok p hp
  | error e => exact herr e hp

theorem writePhase_finishes {post : Unit → List DepotEvent → Depot → Prop}
    (hok : ∀ k', rules (.writePhase p) k (.ok ()) k' → k' = { k with record := .ok p } →
      post () [⟨.writePhase p, .ok (), k, k'⟩] k')
    (herr : ∀ e, rules (.writePhase p) k (.error e) k →
      fail e [⟨.writePhase p, .error e, k, k⟩] k) :
    FinishesOr rules (writePhase p) k post fail := by
  refine finishesOr_ask_bind.mpr fun x v hx => ?_
  have hdepot := hr _ _ _ _ hx
  rw [finishesOr_ofExcept]
  cases x with
  | ok u => exact hok v hx hdepot
  | error e =>
      obtain rfl : v = k := hdepot
      exact herr e hx

theorem remove_finishes : FinishesOr rules (d.remove e) k
    (fun _ evs k' => (∃ x, evs = [⟨.remove e, x, k, k'⟩]) ∧ k' = k.without [e] ∧
      k.objects e.fileName ≠ some .directory)
    fun _ evs k' => (∃ x, evs = [⟨.remove e, x, k, k'⟩]) ∧ k' = k := by
  refine finishesOr_ask_bind.mpr fun x v hx => ?_
  have hdepot := hr _ _ _ _ hx
  cases x with
  | ok u =>
      obtain ⟨⟨o, ho, hdir⟩, rfl⟩ := hdepot
      exact finishesOr_pure.mpr ⟨⟨_, rfl⟩, rfl, by simpa [ho] using hdir⟩
  | error cause =>
      obtain ⟨rfl, habsent⟩ := hdepot
      dsimp only
      by_cases hc : cause.isNotFound
      · rw [if_pos hc]
        have hnone := habsent hc
        exact finishesOr_pure.mpr
          ⟨⟨_, rfl⟩, (Depot.without_of_none hnone).symm, by simp [hnone]⟩
      · rw [if_neg hc]
        exact finishesOr_throw.mpr ⟨⟨_, rfl⟩, rfl⟩

end Calls

theorem isRebooted_finishes :
    FinishesOr inDepot (Update.isRebooted p) k (fun _ _ k' => k' = k) fun _ _ k' => k' = k := by
  refine finishesOr_ask_bind.mpr fun x v hx => ?_
  rw [finishesOr_ofExcept]
  cases x with
  | ok b => exact hx
  | error e => exact hx

theorem forM_remove_finishes (es : List Entry) : FinishesOr inDepot (es.forM d.remove) k
    (fun _ _ k' => k' = k.without es ∧ k.Removable es)
    fun _ _ k' => ∃ n, k' = k.without (es.take n) ∧ k.Removable (es.take n) := by
  induction es generalizing k with
  | nil => exact finishesOr_pure.mpr ⟨k.without_nil.symm, List.forall_mem_nil _⟩
  | cons e es ih =>
      refine finishesOr_bind.mpr ((remove_finishes fun _ _ _ _ h => h).mono ?_ ?_)
      · rintro _ _ _ ⟨-, rfl, hdir⟩
        refine ih.mono ?_ ?_
        · rintro _ _ k' ⟨rfl, hes⟩
          exact ⟨k.without_cons e es, .cons hdir hes⟩
        · rintro _ _ k' ⟨n, rfl, hes⟩
          exact ⟨n + 1, k.without_cons e _, .cons hdir hes⟩
      · rintro _ _ _ ⟨-, rfl⟩
        exact ⟨0, (Depot.without_nil _).symm, List.forall_mem_nil _⟩

namespace Update

theorem confirm_afterCommit (hp : k.record = .ok p) (hn : p ≠ idle) :
    FinishesOr inDepot (confirm d p) k (fun o _ k' => AfterCommit k (.ok o) k')
      fun e _ k' => AfterCommit k (.error e) k' := by
  unfold confirm
  dsimp only
  by_cases ha : p.afterCommit.isIdle
  · rw [if_pos ha]
    have hidle : p.afterCommit = idle := isIdle_iff.mp ha
    refine finishesOr_bind.mpr ((forM_remove_finishes Entry.all).mono ?_ ?_)
    · rintro _ _ _ ⟨rfl, hr⟩
      rw [hidle]
      refine finishesOr_bind.mpr (writePhase_finishes (fun _ _ _ _ h => h) ?_ fun e _ => ?_)
      · rintro _ - rfl
        exact finishesOr_pure.mpr (.cleared hp hn hidle hr)
      · exact .failed e 9 hr fun _ => ⟨p, hp, hn, hidle⟩
    · rintro e _ _ ⟨n, rfl, hr⟩
      exact .failed e n hr fun _ => ⟨p, hp, hn, hidle⟩
  · rw [if_neg ha]
    cases p with
    | switched t =>
        refine finishesOr_bind.mpr (writePhase_finishes (fun _ _ _ _ h => h) ?_ fun e _ => ?_)
        · rintro _ - rfl
          exact finishesOr_pure.mpr (.reverted hp)
        · exact .unchanged e
    | _ => exact absurd rfl ha

theorem commit_afterCommit (d : WorkDir) (k : Depot) :
    FinishesOr inDepot (commit d) k (fun o _ k' => AfterCommit k (.ok o) k')
      fun e _ k' => AfterCommit k (.error e) k' := by
  rw [commit_eq]
  refine finishesOr_bind.mpr (readPhase_finishes (fun _ _ _ _ h => h) (fun p hp => ?_)
    fun e _ => .unchanged e)
  by_cases hidle : p.isIdle
  · rw [if_pos hidle]
    obtain rfl := isIdle_iff.mp hidle
    exact finishesOr_pure.mpr (.notNeeded hp)
  rw [if_neg hidle]
  have hconfirm := confirm_afterCommit (d := d) hp fun h => hidle (isIdle_iff.mpr h)
  by_cases hr : p.awaitsReboot
  · rw [if_pos hr]
    refine finishesOr_bind.mpr (isRebooted_finishes.mono ?_ ?_)
    · rintro b _ _ rfl
      cases b with
      | true => exact hconfirm
      | false => exact finishesOr_pure.mpr (.rebootPending hp hr)
    · rintro e _ _ rfl
      exact .unchanged e
  · rw [if_neg hr]
    exact hconfirm

/-- A commit comes to an end, and each end is one of those above, whatever stands in the directory
and whatever fails. -/
theorem commit_atomic (d : WorkDir) (k : Depot) :
    (∃ x k', Gives inDepot (commit d).run k x k') ∧
      ∀ x k', Gives inDepot (commit d).run k x k' → AfterCommit k x k' := by
  refine ⟨exists_gives Call.exists_inDepot _ k, ?_⟩
  rintro x k' ⟨es, hs⟩
  have h := commit_afterCommit d k es x k' hs
  cases x with
  | ok o => exact h
  | error e => exact h

example : Entry.all.map Entry.fileName =
    ["downloadUpdate", "installUpdate", "applyUpdate", "rollbackUpdate", "updateInstalled",
      "update_type", "update_version", "update_size", "update_location"] := by decide

end Update

end Dualbank
