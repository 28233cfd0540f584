import Dualbank.Proofs.Plan.Sure

namespace Dualbank.Plan

variable {Q : Type} {Answer : Q → Type} {W α β ε : Type}
  {answer answer' : (q : Q) → StateM W (Answer q)}

def outcome (answer : (q : Q) → StateM W (Answer q)) (p : Plan Answer α) (w : W) : α :=
  (p.run answer w).1

def Always (answer : (q : Q) → StateM W (Answer q)) (q : Q) (x : Answer q) : Prop :=
  ∀ w, (answer q w).1 = x

def Yields (answer : (q : Q) → StateM W (Answer q)) (p : Plan Answer α) (a : α) : Prop :=
  ∀ w, outcome answer p w = a

theorem outcome_ask {q : Q} {next : Answer q → Plan Answer α} {w : W} :
    outcome answer (ask q next) w = outcome answer (next (answer q w).1) (answer q w).2 := rfl

theorem outcome_bind {p : Plan Answer α} {f : α → Plan Answer β} {w : W} :
    outcome answer (p >>= f) w = outcome answer (f (outcome answer p w)) (p.run answer w).2 := by
  rw [outcome, run_bind]
  rfl

theorem yields_done (a : α) : Yields answer (done a) a := fun _ => rfl

theorem Yields.ask {q : Q} {x : Answer q} {next : Answer q → Plan Answer α} {a : α}
    (hx : Always answer q x) (h : Yields answer (next x) a) : Yields answer (ask q next) a := by
  intro w
  rw [outcome_ask, hx w]
  exact h _

theorem Yields.bind {p : Plan Answer α} {f : α → Plan Answer β} {a : α} {b : β}
    (hp : Yields answer p a) (hf : Yields answer (f a) b) : Yields answer (p >>= f) b := by
  intro w
  rw [outcome_bind, hp w]
  exact hf _

/-- Answers to questions that a plan does not ask do not matter to it. -/
theorem Asks.run_congr {sort : Q → Prop} {p : Plan Answer α} (h : Asks sort p)
    (hs : ∀ q, sort q → answer q = answer' q) (w : W) : p.run answer w = p.run answer' w := by
  induction p generalizing w with
  | done a => rfl
  | ask q next ih =>
      obtain ⟨hq, hnext⟩ := h
      change (next (answer q w).1).run answer (answer q w).2 =
        (next (answer' q w).1).run answer' (answer' q w).2
      rw [← hs q hq]
      exact ih _ (hnext _) _

theorem Asks.run_snd {sort : Q → Prop} {p : Plan Answer α} (h : Asks sort p)
    (hs : ∀ q w, sort q → (answer q w).2 = w) (w : W) : (p.run answer w).2 = w := by
  induction p generalizing w with
  | done a => rfl
  | ask q next ih =>
      have hnext := ih (answer q w).1 (h.2 _) (answer q w).2
      exact hnext.trans (hs q w h.1)

theorem run_run {Q' : Type} {Answer' : Q' → Type} (inner : (q : Q) → Plan Answer' (Answer q))
    (answer : (q : Q') → StateM W (Answer' q)) (p : Plan Answer α) :
    (p.run inner).run answer = p.run fun q => (inner q).run answer := by
  induction p with
  | done a => rfl
  | ask q next ih =>
      rw [run, run_bind, run]
      exact congrArg _ (funext ih)

theorem Sure.outcome {rules : Rules Answer W} {ok : Event Answer W → Prop} {p : Plan Answer α}
    {w : W} {post : α → W → Prop} (h : Sure rules ok p w post)
    (answer : (q : Q) → StateM W (Answer q))
    (hr : ∀ q w, rules q w (answer q w).1 (answer q w).2) :
    post (outcome answer p w) (p.run answer w).2 := by
  induction p generalizing w with
  | done a => exact h
  | ask q next ih => exact ih _ (h _ _ (hr q w)).2

/-- Where a plan may end is all that matters to what follows it. -/
theorem Sure.bind_congr {ok : Event Answer W → Prop} {p : Plan Answer α} {w : W}
    {f g : α → Plan Answer β} (h : Sure (fun _ _ _ _ => True) ok p w fun a _ => f a = g a) :
    p >>= f = p >>= g := by
  induction p generalizing w with
  | done a => exact h
  | ask q next ih =>
      rw [ask_bind, ask_bind]
      exact congrArg _ (funext fun x => ih x (h x w trivial).2)

section Errors

variable {r : ExceptT ε (Plan Answer) α} {f : α → ExceptT ε (Plan Answer) β}

theorem outcome_run_bind {w : W} : outcome answer (r >>= f).run w = outcome answer r.run w >>=
    fun a => outcome answer (f a).run (r.run.run answer w).2 := by
  refine outcome_bind.trans ?_
  change outcome answer (ExceptT.bindCont f (outcome answer r.run w)) (r.run.run answer w).2 = _
  cases outcome answer r.run w with
  | ok a => rfl
  | error e => rfl

theorem outcome_run_ask_bind {q : Q} {f : Answer q → ExceptT ε (Plan Answer) β} {w : W} :
    outcome answer (ExceptT.lift (call q) >>= f).run w =
      outcome answer (f (answer q w).1).run (answer q w).2 := rfl

@[simp] theorem outcome_run_ofExcept (x : Except ε α) (w : W) :
    outcome answer (MonadExcept.ofExcept x : ExceptT ε (Plan Answer) α).run w = x := by
  cases x with
  | ok a => rfl
  | error e => rfl

theorem Yields.ask_bind {q : Q} {x : Answer q} {f : Answer q → ExceptT ε (Plan Answer) β}
    {y : Except ε β} (hx : Always answer q x) (h : Yields answer (f x).run y) :
    Yields answer (ExceptT.lift (call q) >>= f).run y :=
  Yields.ask hx h

theorem Yields.bind_ok {a : α} {y : Except ε β} (hr : Yields answer r.run (.ok a))
    (hf : Yields answer (f a).run y) : Yields answer (r >>= f).run y :=
  Yields.bind hr hf

theorem Yields.bind_error {e : ε} (hr : Yields answer r.run (.error e)) :
    Yields answer (r >>= f).run (.error e) :=
  Yields.bind hr (yields_done _)

end Errors

end Dualbank.Plan
