namespace Dualbank

/-- A plan asks one question after the other and goes on with each answer. Who answers, and what
happens between two questions, is left open. -/
inductive Plan {Q : Type} (Answer : Q → Type) (α : Type) : Type
  | done (a : α)
  | ask (q : Q) (next : Answer q → Plan Answer α)

namespace Plan

variable {Q : Type} {Answer : Q → Type} {α β γ : Type}

def bind : Plan Answer α → (α → Plan Answer β) → Plan Answer β
  | done a, f => f a
  | ask q next, f => ask q fun x => (next x).bind f

instance : Monad (Plan Answer) where
  pure := done
  bind := bind

def call (q : Q) : Plan Answer (Answer q) := ask q done

def run {m : Type → Type} [Monad m] (answer : (q : Q) → m (Answer q)) : Plan Answer α → m α
  | done a => pure a
  | ask q next => do (next (← answer q)).run answer

@[simp] theorem pure_eq_done (a : α) : (pure a : Plan Answer α) = done a := rfl

@[simp] theorem done_bind (a : α) (f : α → Plan Answer β) : done a >>= f = f a := rfl

@[simp] theorem ask_bind (q : Q) (next : Answer q → Plan Answer α) (f : α → Plan Answer β) :
    ask q next >>= f = ask q fun x => next x >>= f := rfl

theorem bind_done (p : Plan Answer α) : p >>= done = p := by
  induction p with
  | done a => rfl
  | ask q next ih => rw [ask_bind]; exact congrArg _ (funext ih)

theorem bind_assoc (p : Plan Answer α) (f : α → Plan Answer β) (g : β → Plan Answer γ) :
    p >>= f >>= g = p >>= fun a => f a >>= g := by
  induction p with
  | done a => rfl
  | ask q next ih => simp only [ask_bind]; exact congrArg _ (funext ih)

instance : LawfulMonad (Plan Answer) :=
  LawfulMonad.mk' _ bind_done (fun _ _ => rfl) bind_assoc

theorem run_bind {m : Type → Type} [Monad m] [LawfulMonad m] (answer : (q : Q) → m (Answer q))
    (p : Plan Answer α) (f : α → Plan Answer β) :
    (p >>= f).run answer = p.run answer >>= fun a => (f a).run answer := by
  induction p with
  | done a => simp [run]
  | ask q next ih => simp [run, ih]

end Plan

end Dualbank
