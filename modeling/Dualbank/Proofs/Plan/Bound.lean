import Dualbank.Proofs.Plan.Sure

namespace Dualbank.Plan

variable {Q : Type} {Answer : Q → Type} {W α β ε : Type} {counts : Q → Bool} {m n : Nat}

/-- Whatever is answered, at most `n` of the questions that count are asked. -/
def AsksAtMost (counts : Q → Bool) : Plan Answer α → Nat → Prop
  | done _, _ => True
  | ask q next, n => (counts q).toNat ≤ n ∧
      ∀ x, AsksAtMost counts (next x) (n - (counts q).toNat)

theorem AsksAtMost.mono {p : Plan Answer α} (h : AsksAtMost counts p m) (hn : m ≤ n) :
    AsksAtMost counts p n := by
  induction p generalizing m n with
  | done a => exact trivial
  | ask q next ih =>
      obtain ⟨hq, hnext⟩ := h
      exact ⟨by omega, fun x => ih x (hnext x) (by omega)⟩

theorem AsksAtMost.bind {p : Plan Answer α} {f : α → Plan Answer β} (h : AsksAtMost counts p m)
    (hf : ∀ a, AsksAtMost counts (f a) n) : AsksAtMost counts (p >>= f) (m + n) := by
  induction p generalizing m with
  | done a => exact (hf a).mono (by omega)
  | ask q next ih =>
      obtain ⟨hq, hnext⟩ := h
      refine ⟨by omega, fun x => ?_⟩
      have hrest : m - (counts q).toNat + n = m + n - (counts q).toNat := by omega
      rw [← hrest]
      exact ih x (hnext x)

theorem AsksAtMost.countP_le {p r : Plan Answer α} {rules : Rules Answer W} {w w' : W}
    {es : List (Event Answer W)} (h : AsksAtMost counts p n) (hs : Steps rules p w es r w') :
    es.countP (fun e => counts e.question) ≤ n := by
  induction hs generalizing n with
  | refl => simp
  | @ask q next x w w' w'' es p hx hs ih =>
      obtain ⟨hq, hnext⟩ := h
      have := ih (hnext _)
      have hhead : (if counts q = true then 1 else 0) = (counts q).toNat := by
        cases counts q <;> rfl
      rw [List.countP_cons, hhead]
      omega

section Errors

variable {r : ExceptT ε (Plan Answer) α} {f : α → ExceptT ε (Plan Answer) β}

theorem asksAtMost_run_ofExcept (x : Except ε α) :
    AsksAtMost counts (MonadExcept.ofExcept x : ExceptT ε (Plan Answer) α).run n := by
  cases x with
  | ok a => exact trivial
  | error e => exact trivial

theorem AsksAtMost.run_bind (h : AsksAtMost counts r.run m)
    (hf : ∀ a, AsksAtMost counts (f a).run n) : AsksAtMost counts (r >>= f).run (m + n) := by
  refine AsksAtMost.bind h fun x => ?_
  cases x with
  | ok a => exact hf a
  | error e => exact trivial

theorem asksAtMost_run_ask_bind {q : Q} {f : Answer q → ExceptT ε (Plan Answer) β}
    (hq : (counts q).toNat ≤ m) (hf : ∀ x, AsksAtMost counts (f x).run n) :
    AsksAtMost counts (ExceptT.lift (call q) >>= f).run (m + n) :=
  ⟨by omega, fun x => AsksAtMost.mono (hf x) (by omega)⟩

end Errors

end Dualbank.Plan
