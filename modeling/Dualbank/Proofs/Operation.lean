import Dualbank.Proofs.Plan.Sure
import Dualbank.Staging

namespace Dualbank

open Plan

inductive Operation
  | update (o : Offer)
  | updateIfNewer (o : Offer)
  | allowAutomatic
  | commit
  | rollback (t : Target)
  | switchSlot (t : Target)
  | download
  | progress (attempts : Nat)
  | install
  | apply
  deriving DecidableEq, Repr

namespace Operation

abbrev Outcome : Operation → Type
  | update _ | rollback _ | switchSlot _ => Unit
  | updateIfNewer _ => AutomaticOutcome
  | allowAutomatic => Admission
  | commit => CommitOutcome
  | download => DownloadOutcome
  | progress _ => ProgressOutcome
  | install => InstallOutcome
  | apply => ApplyOutcome

def routine (d : WorkDir) : (op : Operation) → Routine op.Outcome
  | update o => Update.update o
  | updateIfNewer o => Update.updateIfNewer o
  | allowAutomatic => Update.allowAutomatic d
  | commit => Update.commit d
  | rollback t => Update.rollback t
  | switchSlot t => Update.switchSlot t
  | download => Staging.download d
  | progress n => Staging.progress d n
  | install => Staging.install d
  | apply => Staging.apply d

end Operation

variable {W : Type}

/-- One operation after the other, each with its events. An operation that is cut short leaves the
world to the next one as it is. -/
inductive Run (rules : Rules Call.Answer W) (d : WorkDir) :
    W → List (Operation × List (Event Call.Answer W)) → W → Prop
  | nil (w : W) : Run rules d w [] w
  | cons {op : Operation} {es : List (Event Call.Answer W)} {w w' w'' : W}
      {p : Plan Call.Answer (Except Error op.Outcome)}
      {log : List (Operation × List (Event Call.Answer W))}
      (h : Steps rules (op.routine d).run w es p w') (hr : Run rules d w' log w'') :
      Run rules d w ((op, es) :: log) w''

/-- As `Run`, with each operation carried to its end. -/
inductive WholeRun (rules : Rules Call.Answer W) (d : WorkDir) :
    W → List (Operation × List (Event Call.Answer W)) → W → Prop
  | nil (w : W) : WholeRun rules d w [] w
  | cons {op : Operation} {es : List (Event Call.Answer W)} {w w' w'' : W}
      {x : Except Error op.Outcome} {log : List (Operation × List (Event Call.Answer W))}
      (h : Steps rules (op.routine d).run w es (.done x) w') (hr : WholeRun rules d w' log w'') :
      WholeRun rules d w ((op, es) :: log) w''

theorem WholeRun.of_append {rules : Rules Call.Answer W} {d : WorkDir} {w w'' : W}
    {log log' : List (Operation × List (Event Call.Answer W))}
    (h : WholeRun rules d w (log ++ log') w'') :
    ∃ w', WholeRun rules d w log w' ∧ WholeRun rules d w' log' w'' := by
  induction log generalizing w with
  | nil => exact ⟨w, .nil w, h⟩
  | cons x log ih =>
      cases h with
      | cons hs hr =>
          obtain ⟨w', hlog, hlog'⟩ := ih hr
          exact ⟨w', .cons hs hlog, hlog'⟩

/-- What each operation of a run keeps, wherever it is cut, holds at its end and wherever one of
them starts. -/
theorem Run.invariant {rules : Rules Call.Answer W} {d : WorkDir} {w w' : W} {I : W → Prop}
    {log : List (Operation × List (Event Call.Answer W))} (h : Run rules d w log w')
    (hop : ∀ x ∈ log, ∀ v p v', I v → Steps rules (x.1.routine d).run v x.2 p v' → I v')
    (hw : I w) :
    I w' ∧ ∀ x ∈ log, ∃ v p v', I v ∧ Steps rules (x.1.routine d).run v x.2 p v' := by
  induction h with
  | nil => exact ⟨hw, by simp⟩
  | cons h _ ih =>
      obtain ⟨hhead, hrest⟩ := List.forall_mem_cons.mp hop
      obtain ⟨hend, hall⟩ := ih hrest (hhead _ _ _ hw h)
      exact ⟨hend, List.forall_mem_cons.mpr ⟨⟨_, _, _, hw, h⟩, hall⟩⟩

theorem Run.exists_steps {rules : Rules Call.Answer W} {d : WorkDir} {w w' : W}
    {log : List (Operation × List (Event Call.Answer W))} (h : Run rules d w log w') :
    ∀ x ∈ log, ∃ v p v', Steps rules (x.1.routine d).run v x.2 p v' := by
  intro x hx
  obtain ⟨v, p, v', -, hs⟩ :=
    (h.invariant (I := fun _ => True) (fun _ _ _ _ _ _ _ => trivial) trivial).2 x hx
  exact ⟨v, p, v', hs⟩

theorem Run.forall_events {rules : Rules Call.Answer W} {d : WorkDir} {w w' : W}
    {log : List (Operation × List (Event Call.Answer W))}
    {ok : Operation → Event Call.Answer W → Prop}
    (hok : ∀ op w, Sure rules (ok op) (op.routine d).run w fun _ _ => True)
    (h : Run rules d w log w') : ∀ x ∈ log, ∀ e ∈ x.2, ok x.1 e := by
  intro x hx
  obtain ⟨v, p, v', hs⟩ := h.exists_steps x hx
  exact ((hok x.1 v).steps hs).1

end Dualbank
