import Dualbank.Proofs.Plan.Gives

namespace Dualbank.Plan

variable {Q Q' : Type} {Answer : Q → Type} {Answer' : Q' → Type} {W α β ε : Type}
  {rules : Rules Answer W} {w w' : W} {q : Q} {sort : Q → Prop}

def Reaches (rules : Rules Answer W) (p : Plan Answer α) (w : W) (q : Q) (w' : W) : Prop :=
  ∃ es next, Steps rules p w es (ask q next) w'

theorem not_reaches_done {a : α} : ¬Reaches rules (done a) w q w' := by
  rintro ⟨es, next, h⟩
  cases h

theorem reaches_ask {r : Q} {next : Answer r → Plan Answer α} : Reaches rules (ask r next) w q w' ↔
    r = q ∧ w' = w ∨ ∃ x v, rules r w x v ∧ Reaches rules (next x) v q w' := by
  constructor
  · rintro ⟨es, next', h⟩
    cases h with
    | refl => exact .inl ⟨rfl, rfl⟩
    | ask hx h => exact .inr ⟨_, _, hx, _, _, h⟩
  · rintro (⟨rfl, rfl⟩ | ⟨x, v, hx, es, next', h⟩)
    · exact ⟨[], next, .refl _ _⟩
    · exact ⟨_, next', .ask hx h⟩

theorem reaches_bind {p : Plan Answer α} {f : α → Plan Answer β} : Reaches rules (p >>= f) w q w' ↔
    Reaches rules p w q w' ∨ ∃ a v, Gives rules p w a v ∧ Reaches rules (f a) v q w' := by
  induction p generalizing w with
  | done a =>
      rw [done_bind, or_iff_right not_reaches_done]
      constructor
      · intro h
        exact ⟨a, w, gives_done.mpr ⟨rfl, rfl⟩, h⟩
      · rintro ⟨b, v, hb, h⟩
        obtain ⟨rfl, rfl⟩ := gives_done.mp hb
        exact h
  | ask r next ih =>
      rw [ask_bind, reaches_ask, reaches_ask, or_assoc]
      refine or_congr_right ?_
      simp only [ih, gives_ask, and_or_left, exists_or]
      refine or_congr_right ?_
      constructor
      · rintro ⟨x, v, hx, a, u, hp, hf⟩
        exact ⟨a, u, ⟨x, v, hx, hp⟩, hf⟩
      · rintro ⟨a, u, ⟨x, v, hx, hp⟩, hf⟩
        exact ⟨x, v, hx, a, u, hp, hf⟩

theorem Asks.not_reaches {p : Plan Answer α} (h : Asks sort p) (hq : ¬sort q) :
    ¬Reaches rules p w q w' := by
  induction p generalizing w with
  | done a => exact not_reaches_done
  | ask r next ih =>
      rw [reaches_ask]
      rintro (⟨rfl, -⟩ | ⟨x, v, -, hr⟩)
      · exact hq h.1
      · exact ih x (h.2 x) hr

theorem Asks.reaches_bind_iff {p : Plan Answer α} {f : α → Plan Answer β} (h : Asks sort p)
    (hq : ¬sort q) : Reaches rules (p >>= f) w q w' ↔
      ∃ a v, Gives rules p w a v ∧ Reaches rules (f a) v q w' :=
  reaches_bind.trans (or_iff_right (h.not_reaches hq))

theorem Asks.reaches_run_bind_iff {r : ExceptT ε (Plan Answer) α}
    {f : α → ExceptT ε (Plan Answer) β} (h : Asks sort r.run) (hq : ¬sort q) :
    Reaches rules (r >>= f).run w q w' ↔
      ∃ a v, Gives rules r.run w (.ok a) v ∧ Reaches rules (f a).run v q w' := by
  refine (h.reaches_bind_iff hq).trans ⟨?_, ?_⟩
  · rintro ⟨x, v, hx, hr⟩
    cases x with
    | ok a => exact ⟨a, v, hx, hr⟩
    | error e => exact (not_reaches_done hr).elim
  · rintro ⟨a, v, ha, hr⟩
    exact ⟨.ok a, v, ha, hr⟩

theorem asks_run {answer : (q : Q') → Plan Answer (Answer' q)} (h : ∀ q, Asks sort (answer q))
    (p : Plan Answer' α) : Asks sort (p.run answer) := by
  induction p with
  | done a => exact trivial
  | ask q next ih => exact asks_bind (h q) ih

end Dualbank.Plan
