import Dualbank.Proofs.Phase.Admission
import Dualbank.Proofs.Plan.Bound

namespace Dualbank

open Plan Routine Phase

variable {W α β : Type} {rules : Rules Call.Answer W} {d : WorkDir} {w w' v : W} {p : Phase}
  {e : Error} {es fs : List (Event Call.Answer W)}

namespace Call

def isWrite : Call → Bool
  | writePhase _ => true
  | _ => false

end Call

section Bound

variable {counts : Call → Bool} {m k : Nat}

theorem WorkDir.forM_remove_asksAtMost (d : WorkDir) (h : ∀ e, (counts (.remove e)).toNat ≤ m)
    (entries : List Entry) :
    AsksAtMost counts (entries.forM d.remove).run (entries.length * m) := by
  induction entries with
  | nil => exact trivial
  | cons e entries ih =>
      have hremove : AsksAtMost counts (d.remove e).run (m + 0) := by
        refine asksAtMost_run_ask_bind (h e) fun x => ?_
        cases x with
        | ok u => exact trivial
        | error c =>
            dsimp only
            split <;> exact trivial
      rw [List.length_cons, Nat.succ_mul, Nat.add_comm]
      exact hremove.run_bind fun _ => ih

namespace Update

variable (d : WorkDir) (hm : ∀ q : Call, q.isWrite = false → (counts q).toNat ≤ m)
  (hk : ∀ p, (counts (.writePhase p)).toNat ≤ k)
include hm hk

theorem confirm_asksAtMost (p : Phase) : AsksAtMost counts (confirm d p).run (9 * m + k) := by
  have hwrite : AsksAtMost counts (do writePhase p.afterCommit; return .committed :
      Routine CommitOutcome).run (k + 0 + 0) := by
    refine AsksAtMost.run_bind ?_ fun _ => trivial
    exact asksAtMost_run_ask_bind (hk _) fun _ => asksAtMost_run_ofExcept _
  unfold confirm
  dsimp only
  split
  · have hclear := d.forM_remove_asksAtMost (fun e => hm (.remove e) rfl) Entry.all
    exact hclear.run_bind fun _ => hwrite
  · exact AsksAtMost.mono hwrite (by omega)

theorem commit_asksAtMost : AsksAtMost counts (commit d).run (m + (m + (9 * m + k))) := by
  have hconfirm := confirm_asksAtMost d hm hk
  have hread : AsksAtMost counts readPhase.run (m + 0) :=
    asksAtMost_run_ask_bind (hm _ rfl) fun _ => asksAtMost_run_ofExcept _
  have hlook (f : Bool) : AsksAtMost counts (Routine.isRebooted f).run (m + 0) :=
    asksAtMost_run_ask_bind (hm _ rfl) fun _ => asksAtMost_run_ofExcept _
  rw [commit_eq]
  refine hread.run_bind fun p => ?_
  split
  · exact trivial
  · dsimp only
    split
    · refine (hlook _).run_bind fun b => ?_
      split
      · exact trivial
      · exact hconfirm p
    · exact AsksAtMost.mono (hconfirm p) (by omega)

theorem settle_asksAtMost (n : Nat) :
    AsksAtMost counts (settle d n).run (n * (12 * m + k) + m) := by
  have hread : AsksAtMost counts readPhase.run (m + 0) :=
    asksAtMost_run_ask_bind (hm _ rfl) fun _ => asksAtMost_run_ofExcept _
  induction n with
  | zero =>
      refine AsksAtMost.mono (hread.run_bind (n := 0) fun p => ?_) (by omega)
      split <;> exact trivial
  | succ n ih =>
      have hsum : (n + 1) * (12 * m + k) + m =
          m + 0 + (m + (m + (9 * m + k)) + (n * (12 * m + k) + m)) := by
        rw [Nat.succ_mul]
        omega
      rw [hsum]
      refine hread.run_bind fun p => ?_
      split
      · exact trivial
      · refine (commit_asksAtMost d hm hk).run_bind fun o => ?_
        split
        · exact trivial
        · exact trivial
        · split
          · exact trivial
          · exact ih

end Update

end Bound

def Faultless (d : WorkDir) (es : List (Event Call.Answer W)) : Prop :=
  ∀ ev ∈ es, ev.question.failure? d ev.answer = none

/-- The last call failed, and it was the first that did. -/
def FailsAtLast (d : WorkDir) (e : Error) (es : List (Event Call.Answer W)) : Prop :=
  ∃ pre ev, es = pre ++ [ev] ∧ Faultless d pre ∧ ev.question.failure? d ev.answer = some e

theorem Faultless.append (h : Faultless d es) (h' : Faultless d fs) : Faultless d (es ++ fs) :=
  fun ev hev => (List.mem_append.mp hev).elim (h ev) (h' ev)

theorem FailsAtLast.prepend (h : FailsAtLast d e fs) (hes : Faultless d es) :
    FailsAtLast d e (es ++ fs) := by
  obtain ⟨pre, ev, rfl, hpre, he⟩ := h
  exact ⟨es ++ pre, ev, (List.append_assoc ..).symm, hes.append hpre, he⟩

theorem FailsAtLast.ends {ev : Event Call.Answer W} {e' : Error}
    (h : FailsAtLast d e (es ++ ev :: fs)) (he : ev.question.failure? d ev.answer = some e') :
    fs = [] ∧ e' = e := by
  obtain ⟨pre, last, hes, hpre, hlast⟩ := h
  rcases List.eq_nil_or_concat fs with rfl | ⟨gs, g, rfl⟩
  · obtain ⟨rfl, hev⟩ := List.append_inj' hes rfl
    obtain rfl := List.singleton_inj.mp hev
    exact ⟨rfl, Option.some.inj (he.symm.trans hlast)⟩
  · have hmem : ev ∈ pre := by
      rw [List.concat_eq_append, ← List.cons_append, ← List.append_assoc] at hes
      obtain ⟨rfl, -⟩ := List.append_inj' hes rfl
      simp
    rw [hpre ev hmem] at he
    cases he

/-- A routine that ends in the first error it meets, and in no other. -/
def PassesOn (rules : Rules Call.Answer W) (d : WorkDir) (r : Routine α) (w : W) : Prop :=
  FinishesOr rules r w (fun _ es _ => Faultless d es) fun e es _ => FailsAtLast d e es

namespace PassesOn

theorem pure {a : α} : PassesOn rules d (pure a : Routine α) w :=
  finishesOr_pure.mpr (List.forall_mem_nil _)

theorem bind {r : Routine α} {f : α → Routine β} (h : PassesOn rules d r w)
    (hf : ∀ a v, PassesOn rules d (f a) v) : PassesOn rules d (r >>= f) w := by
  refine finishesOr_bind.mpr (FinishesOr.mono h ?_ fun _ _ _ h => h)
  intro a es v hes
  exact FinishesOr.mono (hf a v) (fun _ _ _ hfs => hes.append hfs) fun _ _ _ hfs => hfs.prepend hes

theorem ask {q : Call} {f : q.Answer → Routine α}
    (h : ∀ x, q.failure? d x = none ∧ (∃ a, f x = Pure.pure a) ∨
      ∃ e, q.failure? d x = some e ∧ f x = throw e) :
    PassesOn rules d (Routine.ask q >>= f) w := by
  refine finishesOr_ask_bind.mpr fun x v _ => ?_
  rcases h x with ⟨hx, a, hf⟩ | ⟨e, hx, hf⟩
  · rw [hf]
    exact finishesOr_pure.mpr (List.forall_mem_singleton.mpr hx)
  · rw [hf]
    exact finishesOr_throw.mpr ⟨[], _, rfl, List.forall_mem_nil _, hx⟩

theorem readPhase : PassesOn rules d readPhase w := by
  refine ask fun x => ?_
  cases x with
  | ok p => exact .inl ⟨rfl, p, rfl⟩
  | error e => exact .inr ⟨e, rfl, rfl⟩

theorem writePhase : PassesOn rules d (writePhase p) w := by
  refine ask fun x => ?_
  cases x with
  | ok u => exact .inl ⟨rfl, u, rfl⟩
  | error e => exact .inr ⟨e, rfl, rfl⟩

theorem isRebooted : PassesOn rules d (Update.isRebooted p) w := by
  refine ask fun x => ?_
  cases x with
  | ok b => exact .inl ⟨rfl, b, rfl⟩
  | error e => exact .inr ⟨e, rfl, rfl⟩

theorem remove {entry : Entry} : PassesOn rules d (d.remove entry) w := by
  refine ask fun x => ?_
  cases x with
  | ok u => exact .inl ⟨rfl, (), rfl⟩
  | error c =>
      cases hc : c.isNotFound with
      | true => exact .inl ⟨by simp [Call.failure?, hc], (), by simp [hc]⟩
      | false =>
          exact .inr ⟨.io (.removing (d.pathOf entry)) c, by simp [Call.failure?, hc], by simp [hc]⟩

theorem forM_remove {entries : List Entry} : PassesOn rules d (entries.forM d.remove) w := by
  induction entries generalizing w with
  | nil => exact pure
  | cons entry entries ih => exact remove.bind fun _ _ => ih

theorem confirm : PassesOn rules d (Update.confirm d p) w := by
  have hwrite (v : W) : PassesOn rules d
      (do Routine.writePhase p.afterCommit; return CommitOutcome.committed) v :=
    writePhase.bind fun _ _ => pure
  unfold Update.confirm
  dsimp only
  split
  · exact forM_remove.bind fun _ => hwrite
  · exact hwrite w

theorem commit : PassesOn rules d (Update.commit d) w := by
  rw [Update.commit_eq]
  refine readPhase.bind fun p v => ?_
  split
  · exact pure
  · dsimp only
    split
    · refine isRebooted.bind fun b u => ?_
      split
      · exact pure
      · exact confirm
    · exact confirm

end PassesOn

end Dualbank
