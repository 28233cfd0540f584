import Dualbank.Proofs.Plan.Sure
import Mathlib.Logic.Function.Basic

namespace Dualbank.Plan

variable {Q : Type} {Answer : Q → Type} {W ι α β : Type}

inductive Move (Answer : Q → Type) (W ι : Type)
  | call (i : ι) (e : Event Answer W)
  | other (before after : W)

/-- From a pool of plans and a world, some moves are made; the plans that are left and another world
remain. -/
inductive Race [DecidableEq ι] (rules : Rules Answer W) :
    (ι → Plan Answer α) → W → List (Move Answer W ι) → (ι → Plan Answer α) → W → Prop
  | refl (pool : ι → Plan Answer α) (w : W) : Race rules pool w [] pool w
  | call {pool pool' : ι → Plan Answer α} {i : ι} {q : Q} {next : Answer q → Plan Answer α}
      {x : Answer q} {w w' w'' : W} {ms : List (Move Answer W ι)} (hi : pool i = ask q next)
      (hx : rules q w x w') (h : Race rules (Function.update pool i (next x)) w' ms pool' w'') :
      Race rules pool w (.call i ⟨q, x, w, w'⟩ :: ms) pool' w''
  | other {pool pool' : ι → Plan Answer α} {w w' w'' : W} {ms : List (Move Answer W ι)}
      (h : Race rules pool w' ms pool' w'') : Race rules pool w (.other w w' :: ms) pool' w''

theorem exists_order {ms : List (Move Answer W ι)} {m n : Move Answer W ι} (hm : m ∈ ms)
    (hn : n ∈ ms) (h : m ≠ n) : (∃ xs ys zs, ms = xs ++ m :: (ys ++ n :: zs)) ∨
      ∃ xs ys zs, ms = xs ++ n :: (ys ++ m :: zs) := by
  obtain ⟨xs, zs, rfl⟩ := List.append_of_mem hm
  rcases List.mem_append.mp hn with hn | hn
  · obtain ⟨us, vs, rfl⟩ := List.append_of_mem hn
    exact .inr ⟨us, vs, zs, by simp⟩
  · rcases List.mem_cons.mp hn with rfl | hn
    · exact absurd rfl h
    · obtain ⟨us, vs, rfl⟩ := List.append_of_mem hn
      exact .inl ⟨xs, us, vs, rfl⟩

def free : Rules Answer Unit := fun _ _ _ _ => True

def Event.bare (e : Event Answer W) : Event Answer Unit := ⟨e.question, e.answer, (), ()⟩

def asked [DecidableEq ι] (i : ι) : List (Move Answer W ι) → List (Event Answer Unit)
  | [] => []
  | .call j e :: ms => if j = i then e.bare :: asked i ms else asked i ms
  | .other _ _ :: ms => asked i ms

variable [DecidableEq ι] {rules : Rules Answer W} {w w' w'' : W} {i j : ι} {e : Event Answer W}
  {pool pool' pool'' : ι → Plan Answer α} {ms ns : List (Move Answer W ι)}

theorem mem_asked {b : Event Answer Unit} :
    b ∈ asked i ms ↔ ∃ e, .call i e ∈ ms ∧ e.bare = b := by
  induction ms with
  | nil => simp [asked]
  | cons m ms ih =>
      cases m with
      | other w w' => simp [asked, ih]
      | call j e =>
          by_cases h : j = i
          · subst h
            simp [asked, ih, or_and_right, exists_or, eq_comm]
          · simp [asked, h, Ne.symm h, ih]

namespace Race

theorem of_append (h : Race rules pool w (ms ++ ns) pool' w') :
    ∃ mid v, Race rules pool w ms mid v ∧ Race rules mid v ns pool' w' := by
  induction ms generalizing pool w with
  | nil => exact ⟨pool, w, .refl pool w, h⟩
  | cons m ms ih =>
      cases h with
      | call hi hx h =>
          obtain ⟨mid, v, hms, hns⟩ := ih h
          exact ⟨mid, v, .call hi hx hms, hns⟩
      | other h =>
          obtain ⟨mid, v, hms, hns⟩ := ih h
          exact ⟨mid, v, .other hms, hns⟩

theorem trans (h : Race rules pool w ms pool' w') (h' : Race rules pool' w' ns pool'' w'') :
    Race rules pool w (ms ++ ns) pool'' w'' := by
  induction h with
  | refl => exact h'
  | call hi hx _ ih => exact .call hi hx (ih h')
  | other _ ih => exact .other (ih h')

theorem of_steps {p : Plan Answer α} {es : List (Event Answer W)}
    (h : Steps rules (pool i) w es p w') :
    Race rules pool w (es.map (.call i)) (Function.update pool i p) w' := by
  generalize hp : pool i = p₀ at h
  -- After each answer the pool holds the rest of the plan in the same place.
  induction h generalizing pool with
  | refl p w =>
      rw [← hp, Function.update_eq_self]
      exact .refl pool w
  | ask hx _ ih =>
      have h := ih (Function.update_self i _ pool)
      rw [Function.update_idem] at h
      exact .call hp hx h

theorem steps_asked (h : Race rules pool w ms pool' w') (i : ι) :
    Steps free (pool i) () (asked i ms) (pool' i) () := by
  induction h with
  | refl pool w => exact .refl _ _
  | @call pool pool' j q next x w w' w'' ms hj hx h ih =>
      by_cases hij : j = i
      · subst hij
        rw [Function.update_self] at ih
        rw [asked, if_pos rfl, hj]
        exact .ask trivial ih
      · rw [Function.update_of_ne (Ne.symm hij)] at ih
        rw [asked, if_neg hij]
        exact ih
  | other h ih => exact ih

theorem rules_of_mem (h : Race rules pool w ms pool' w') (he : .call i e ∈ ms) :
    rules e.question e.before e.answer e.after := by
  induction h with
  | refl => cases he
  | call hi hx h ih =>
      rcases List.mem_cons.mp he with heq | he
      · cases heq
        exact hx
      · exact ih he
  | other h ih =>
      rcases List.mem_cons.mp he with heq | he
      · cases heq
      · exact ih he

end Race

theorem Steps.bind_cases {p : Plan Answer α} {f : α → Plan Answer β} {q : Plan Answer β}
    {es : List (Event Answer W)} (h : Steps rules (p >>= f) w es q w') :
    (∃ p', q = p' >>= f ∧ Steps rules p w es p' w') ∨
      ∃ a v fs gs, es = fs ++ gs ∧ Steps rules p w fs (done a) v ∧ Steps rules (f a) v gs q w' := by
  induction p generalizing w es with
  | done a => exact .inr ⟨a, w, [], es, rfl, .refl _ _, h⟩
  | ask q next ih =>
      cases h with
      | refl => exact .inl ⟨_, rfl, .refl _ _⟩
      | ask hx h =>
          rcases ih _ h with ⟨p', rfl, hs⟩ | ⟨a, v, fs, gs, rfl, hp, hf⟩
          · exact .inl ⟨p', rfl, .ask hx hs⟩
          · exact .inr ⟨a, v, _, gs, rfl, .ask hx hp, hf⟩

end Dualbank.Plan
