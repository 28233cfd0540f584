import Dualbank.Proofs.Phase.Obedience
import Dualbank.Proofs.Plan.Finishes
import Mathlib.Logic.Function.Iterate

namespace Dualbank

open Plan Routine Phase
open Call (recorded)

variable {d : WorkDir} {p p' : Phase} {s s' : Option Phase}
  {es fs : List RecordEvent}

namespace Phase

def commitsLeft : Phase → Nat
  | idle => 0
  | switched _ => 2
  | _ => 1

theorem commitsLeft_le (p : Phase) : p.commitsLeft ≤ 2 := by
  cases p <;> simp [commitsLeft]

theorem commitsLeft_afterCommit (h : p ≠ idle) :
    p.afterCommit.commitsLeft + 1 = p.commitsLeft := by
  cases p with
  | idle => exact absurd rfl h
  | _ => rfl

theorem commitsLeft_eq_zero : p.commitsLeft = 0 ↔ p = idle := by
  cases p <;> simp [commitsLeft]

theorem awaitsReboot_afterCommit (p : Phase) : p.afterCommit.awaitsReboot = false := by
  cases p <;> rfl

theorem afterCommit_ne_failed (p : Phase) (i : Image) : p.afterCommit ≠ failed i := by
  cases p <;> simp [afterCommit]

theorem afterCommit_ne_bootFailed (p : Phase) : p.afterCommit ≠ bootFailed := by
  cases p <;> simp [afterCommit]

end Phase

namespace Call

/-- The error that a failed call comes to. To remove what is not there is no failure. -/
def failure? (d : WorkDir) : (q : Call) → q.Answer → Option Error
  | readPhase, .error e => some e
  | writePhase _, .error e => some e
  | isRebooted _, .error e => some e
  | remove e, .error c => if c.isNotFound then none else some (.io (.removing (d.pathOf e)) c)
  | _, _ => none

def ReadsRecord : Call → Prop
  | readPhase | isRebooted _ => True
  | _ => False

end Call

def FailsWith (d : WorkDir) (e : Error) (es : List RecordEvent) : Prop :=
  ∃ ev ∈ es, ev.question.failure? d ev.answer = some e

def isAcceptedWrite : RecordEvent → Bool
  | ⟨.writePhase _, .ok (), _, _⟩ => true
  | _ => false

def acceptedWrites (es : List RecordEvent) : Nat := es.countP isAcceptedWrite

/-- What an admission says about the phase at first, the events and the record at last. -/
inductive Admits (p : Phase) : Admission → List RecordEvent → Option Phase → Prop
  | allowed (es : List RecordEvent) : Admits p .allowed es (some idle)
  | formerFailure {i : Image} (h : p = failed i) (es : List RecordEvent) :
      Admits p (.formerFailure i) es (some idle)
  | formerBootFailure (h : p = bootFailed) (es : List RecordEvent) :
      Admits p .formerBootFailure es (some idle)
  | rebootPending {es : List RecordEvent} (h : p.awaitsReboot)
      (hd : ⟨.isRebooted p.includesFirmware, .ok false, some p, some p⟩ ∈ es)
      (hl : ∀ e ∈ es, e.question.ReadsRecord) :
      Admits p (.rebootPending p.includesFirmware) es (some p)

theorem FailsWith.append_right {e : Error} (h : FailsWith d e fs) : FailsWith d e (es ++ fs) := by
  obtain ⟨ev, hev, he⟩ := h
  exact ⟨ev, List.mem_append_right _ hev, he⟩

theorem FailsWith.cons {e : Error} {ev : RecordEvent}
    (h : FailsWith d e es) : FailsWith d e (ev :: es) := by
  obtain ⟨ev', hev', he⟩ := h
  exact ⟨ev', List.mem_cons_of_mem _ hev', he⟩

theorem FailsWith.head {e : Error} {q : Call} {x : q.Answer} (h : q.failure? d x = some e) :
    FailsWith d e (⟨q, x, s, s'⟩ :: es) := ⟨_, List.mem_cons_self, h⟩

theorem Admits.of_afterCommit {g : Admission} (h : Admits p.afterCommit g fs s') :
    Admits p g es s' := by
  cases h with
  | allowed => exact .allowed es
  | formerFailure h => exact absurd h (p.afterCommit_ne_failed _)
  | formerBootFailure h => exact absurd h p.afterCommit_ne_bootFailed
  | rebootPending h =>
      rw [p.awaitsReboot_afterCommit] at h
      cases h

theorem Edge.eq_afterCommit {op : Operation} (h : Edge op p p') (hop : op.Commits) :
    p ≠ idle ∧ p' = p.afterCommit := by
  rcases hop with rfl | rfl
  all_goals
    cases h with
    | written h | partlyWritten h | refused h => cases h
    | confirmed | reverted | settled | forgiven | bootForgiven => exact ⟨Phase.noConfusion, rfl⟩

/-- An accepted write is one commit further on, and nothing else moves the record. -/
theorem Follows.advances {op : Operation} {e : RecordEvent}
    (h : Follows (Edge op) e) (hop : op.Commits)
    (hx : recorded e.question e.before e.answer e.after) (hb : e.before = some p) :
    (isAcceptedWrite e = false ∧ e.after = some p) ∨
      (isAcceptedWrite e = true ∧ p ≠ idle ∧ e.after = some p.afterCommit) := by
  obtain ⟨q, x, s, s'⟩ := e
  cases q with
  | writePhase p' =>
      cases x with
      | ok u =>
          obtain ⟨p₀, hp₀, ha, hE⟩ := h
          obtain rfl := Option.some.inj (hp₀.symm.trans hb)
          obtain ⟨hidle, rfl⟩ := hE.eq_afterCommit hop
          exact .inr ⟨rfl, hidle, ha⟩
      | error e => exact .inl ⟨rfl, Eq.trans hx hb⟩
  | readPhase => exact .inl ⟨rfl, hx.1.trans hb⟩
  | _ => exact .inl ⟨rfl, Eq.trans hx hb⟩

theorem advances_of_follows {α : Type} {op : Operation} {r q : Plan Call.Answer α}
    (hop : op.Commits) (hs : Steps recorded r (some p) es q s')
    (hes : ∀ e ∈ es, Follows (Edge op) e) :
    s' = some (afterCommit^[acceptedWrites es] p) ∧ acceptedWrites es ≤ p.commitsLeft := by
  generalize hw : some p = s at hs
  -- The phase that is recorded moves along, so the claim is about the run from any phase.
  induction hs generalizing p with
  | refl r w => exact ⟨hw.symm, Nat.zero_le _⟩
  | @ask q next x w w' w'' es r hx hs ih =>
      obtain ⟨he, hes⟩ := List.forall_mem_cons.mp hes
      rcases he.advances hop hx hw.symm with ⟨hno, ha⟩ | ⟨hyes, hidle, ha⟩
      · have hcount : acceptedWrites (⟨q, x, w, w'⟩ :: es) = acceptedWrites es :=
          List.countP_cons_of_neg (by simp [hno])
        rw [hcount]
        exact ih hes ha.symm
      · have hcount : acceptedWrites (⟨q, x, w, w'⟩ :: es) = acceptedWrites es + 1 :=
          List.countP_cons_of_pos hyes
        obtain ⟨hend, hle⟩ := ih hes ha.symm
        rw [hcount, Function.iterate_succ_apply, ← commitsLeft_afterCommit hidle]
        exact ⟨hend, Nat.succ_le_succ hle⟩

theorem finishesOr_readPhase_bind {α : Type} {f : Phase → Routine α}
    {post : α → List RecordEvent → Option Phase → Prop}
    {fail : Error → List RecordEvent → Option Phase → Prop}
    (hf : FinishesOr recorded (f p) (some p)
      (fun a es s' => post a (⟨.readPhase, .ok p, some p, some p⟩ :: es) s')
      fun e es s' => fail e (⟨.readPhase, .ok p, some p, some p⟩ :: es) s')
    (hfail : ∀ e, fail e [⟨.readPhase, .error e, some p, some p⟩] (some p)) :
    FinishesOr recorded (readPhase >>= f) (some p) post fail := by
  rw [readPhase, LawfulMonad.bind_assoc]
  apply finishesOr_ask_bind.mpr
  rintro x _ ⟨rfl, hx⟩
  cases x with
  | ok p' =>
      obtain rfl := Option.some.inj (hx p' rfl)
      exact hf
  | error e => exact finishesOr_throw.mpr (hfail e)

theorem finishesOr_isRebooted_bind {α : Type} {f : Bool → Routine α}
    {post : α → List RecordEvent → Option Phase → Prop}
    {fail : Error → List RecordEvent → Option Phase → Prop}
    (hf : ∀ b, FinishesOr recorded (f b) s
      (fun a es s' => post a (⟨.isRebooted p.includesFirmware, .ok b, s, s⟩ :: es) s')
      fun e es s' => fail e (⟨.isRebooted p.includesFirmware, .ok b, s, s⟩ :: es) s')
    (hfail : ∀ e, fail e [⟨.isRebooted p.includesFirmware, .error e, s, s⟩] s) :
    FinishesOr recorded (Update.isRebooted p >>= f) s post fail := by
  rw [Update.isRebooted, Routine.isRebooted, LawfulMonad.bind_assoc]
  apply finishesOr_ask_bind.mpr
  rintro x _ rfl
  cases x with
  | ok b => exact hf b
  | error e => exact finishesOr_throw.mpr (hfail e)

theorem WorkDir.remove_finishes (d : WorkDir) (e : Entry) :
    FinishesOr recorded (d.remove e) s (fun _ _ s' => s' = s)
      fun err es _ => FailsWith d err es := by
  apply finishesOr_ask_bind.mpr
  rintro x _ rfl
  cases x with
  | ok u => exact finishesOr_pure.mpr rfl
  | error c =>
      dsimp only
      split
      case isTrue => exact finishesOr_pure.mpr rfl
      case isFalse hc => exact finishesOr_throw.mpr (.head (if_neg hc))

theorem WorkDir.forM_remove_finishes (d : WorkDir) (entries : List Entry) :
    FinishesOr recorded (entries.forM d.remove) s (fun _ _ s' => s' = s)
      fun err es _ => FailsWith d err es := by
  induction entries with
  | nil => exact finishesOr_pure.mpr rfl
  | cons e entries ih =>
      refine finishesOr_bind.mpr ((d.remove_finishes e).mono ?_ fun _ _ _ h => h)
      rintro u es _ rfl
      exact ih.mono (fun _ _ _ h => h) fun _ _ _ h => h.append_right

theorem Routine.writePhase_finishes (d : WorkDir) (p' : Phase) :
    FinishesOr recorded (writePhase p') s (fun _ _ s' => s' = some p')
      fun err es _ => FailsWith d err es := by
  apply finishesOr_ask_bind.mpr
  intro x s' hx
  cases x with
  | ok u => exact finishesOr_pure.mpr hx
  | error e => exact finishesOr_throw.mpr (.head rfl)

namespace Update

theorem confirm_finishes (d : WorkDir) (p : Phase) :
    FinishesOr recorded (confirm d p) s (fun o _ s' => o = .committed ∧ s' = some p.afterCommit)
      fun err es _ => FailsWith d err es := by
  have hwrite : FinishesOr recorded (do writePhase p.afterCommit; return CommitOutcome.committed) s
      (fun o _ s' => o = .committed ∧ s' = some p.afterCommit)
      fun err es _ => FailsWith d err es := by
    refine finishesOr_bind.mpr ((writePhase_finishes d _).mono ?_ fun _ _ _ h => h)
    rintro u es _ rfl
    exact finishesOr_pure.mpr ⟨rfl, rfl⟩
  unfold confirm
  dsimp only
  split
  · refine finishesOr_bind.mpr ((d.forM_remove_finishes Entry.all).mono ?_ fun _ _ _ h => h)
    rintro u es _ rfl
    exact hwrite.mono (fun _ _ _ h => h) fun _ _ _ h => h.append_right
  · exact hwrite

inductive Commits (p : Phase) : CommitOutcome → List RecordEvent → Option Phase → Prop
  | committed (es : List RecordEvent) : Commits p .committed es (some p.afterCommit)
  | rebootPending {es : List RecordEvent} (h : p.awaitsReboot)
      (hd : ⟨.isRebooted p.includesFirmware, .ok false, some p, some p⟩ ∈ es)
      (hl : ∀ e ∈ es, e.question.ReadsRecord) :
      Commits p (.rebootPending p.includesFirmware) es (some p)

theorem commit_finishes (d : WorkDir) (hp : p ≠ idle) :
    FinishesOr recorded (commit d) (some p) (Commits p) fun err es _ => FailsWith d err es := by
  have hconfirm (fs : List RecordEvent) :
      FinishesOr recorded (confirm d p) (some p) (fun o es s' => Commits p o (fs ++ es) s')
        fun err es _ => FailsWith d err (fs ++ es) := by
    refine (confirm_finishes d p).mono ?_ fun _ _ _ h => h.append_right
    rintro o es s' ⟨rfl, rfl⟩
    exact .committed _
  rw [commit_eq]
  refine finishesOr_readPhase_bind ?_ fun e => .head rfl
  rw [if_neg fun h => hp (isIdle_iff.mp h)]
  dsimp only
  split
  case isFalse => exact hconfirm [_]
  case isTrue hreboot =>
    refine finishesOr_isRebooted_bind ?_ fun e => (FailsWith.head rfl).cons
    intro b
    cases b with
    | true => exact hconfirm [_, _]
    | false =>
        refine finishesOr_pure.mpr (.rebootPending hreboot (by simp) ?_)
        simp [Call.ReadsRecord]

/-- Whatever budget covers the way to idle is enough. -/
theorem settle_finishes (d : WorkDir) (n : Nat) (hn : p.commitsLeft ≤ n) :
    FinishesOr recorded (settle d n) (some p) (Admits p) fun err es _ => FailsWith d err es := by
  induction n generalizing p with
  | zero =>
      obtain rfl := commitsLeft_eq_zero.mp (Nat.le_zero.mp hn)
      refine finishesOr_readPhase_bind ?_ fun e => .head rfl
      exact finishesOr_pure.mpr (.allowed _)
  | succ n ih =>
      refine finishesOr_readPhase_bind ?_ fun e => .head rfl
      split
      case isTrue hidle =>
        obtain rfl := isIdle_iff.mp hidle
        exact finishesOr_pure.mpr (.allowed _)
      case isFalse hidle =>
        have hp : p ≠ idle := fun h => hidle (isIdle_iff.mpr h)
        refine finishesOr_bind.mpr ((commit_finishes d hp).mono ?_ fun _ _ _ h => h.cons)
        intro o es s' ho
        cases ho with
        | rebootPending hreboot hd hl =>
            refine finishesOr_pure.mpr (.rebootPending hreboot (by simp [hd]) ?_)
            simpa [Call.ReadsRecord] using hl
        | committed es =>
            have hbudget : p.afterCommit.commitsLeft ≤ n := by
              have := commitsLeft_afterCommit hp
              omega
            let read : RecordEvent := ⟨.readPhase, .ok p, some p, some p⟩
            have hrest : FinishesOr recorded (settle d n) (some p.afterCommit)
                (fun g fs s' => Admits p g (read :: (es ++ fs)) s')
                fun err fs _ => FailsWith d err (read :: (es ++ fs)) :=
              (ih hbudget).mono (fun _ _ _ h => h.of_afterCommit)
                fun _ _ _ h => h.append_right.cons
            -- A failure is reported after its commit; any other phase goes round again.
            cases p with
            | idle => exact absurd rfl hp
            | failed i => exact finishesOr_pure.mpr (.formerFailure rfl _)
            | bootFailed => exact finishesOr_pure.mpr (.formerBootFailure rfl _)
            | written | switched | reverted => exact hrest

/-- Every run of an admission, wherever it is cut, goes on to its end, and has taken the record one
commit further with each accepted write, of which there are two at most. An admission that comes to
its end is one that the phase at first, the events and the record at last give reason for; or some
call failed, and it fails with that call. -/
theorem admission_resolves_or_blocks (d : WorkDir) (p : Phase) :
    (∀ es q s', Steps recorded (allowAutomatic d).run (some p) es q s' →
      s' = some (afterCommit^[acceptedWrites es] p) ∧ acceptedWrites es ≤ 2 ∧
        ∃ x s'', Gives recorded q s' x s'') ∧
    ∀ es x s', Steps recorded (allowAutomatic d).run (some p) es (.done x) s' →
      (∀ g, x = .ok g → Admits p g es s') ∧
      (∀ e, x = .error e → FailsWith d e es) ∧
      ((∀ ev ∈ es, ev.question.failure? d ev.answer = none) → ∃ g, x = .ok g) ∧
      ((∀ ev ∈ es, ∀ f, ev.question.failure? d ev.answer ≠ some (.contractViolation f)) →
        ∀ f, x ≠ .error (.contractViolation f)) := by
  constructor
  · intro es q s' hs
    have hfollows : ∀ e ∈ es, Follows (Edge .allowAutomatic) e := Operation.follows hs
    obtain ⟨hend, hle⟩ := advances_of_follows (.inr rfl) hs hfollows
    exact ⟨hend, Nat.le_trans hle p.commitsLeft_le, exists_gives Call.exists_recorded q s'⟩
  · intro es x s' hs
    have hbudget : p.commitsLeft ≤ maxForcedCommits := Nat.le_trans p.commitsLeft_le (by decide)
    have hx := settle_finishes d maxForcedCommits hbudget es x s' hs
    have hok : ∀ g, x = .ok g → Admits p g es s' := by
      rintro g rfl
      exact hx
    have herror : ∀ e, x = .error e → FailsWith d e es := by
      rintro e rfl
      exact hx
    refine ⟨hok, herror, fun hnone => ?_, fun hnone f hf => ?_⟩
    · cases x with
      | ok g => exact ⟨g, rfl⟩
      | error e =>
          obtain ⟨ev, hev, he⟩ := herror e rfl
          rw [hnone ev hev] at he
          cases he
    · obtain ⟨ev, hev, he⟩ := herror _ hf
      exact hnone ev hev f he

end Update

end Dualbank
