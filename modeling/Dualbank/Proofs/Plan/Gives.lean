import Dualbank.Proofs.Plan.Sure

namespace Dualbank.Plan

variable {Q : Type} {Answer : Q → Type} {W α β ε : Type}

/-- Some run of the plan ends with `a`, in the world `w'`. -/
def Gives (rules : Rules Answer W) (p : Plan Answer α) (w : W) (a : α) (w' : W) : Prop :=
  ∃ es, Steps rules p w es (done a) w'

variable {rules : Rules Answer W} {ok : Event Answer W → Prop} {w w' : W} {a b : α}

theorem gives_done : Gives rules (done b) w a w' ↔ a = b ∧ w' = w := by
  constructor
  · rintro ⟨es, h⟩
    cases h with
    | refl => exact ⟨rfl, rfl⟩
  · rintro ⟨rfl, rfl⟩
    exact ⟨[], .refl (done a) w'⟩

theorem gives_ask {q : Q} {next : Answer q → Plan Answer α} :
    Gives rules (ask q next) w a w' ↔ ∃ x v, rules q w x v ∧ Gives rules (next x) v a w' := by
  constructor
  · rintro ⟨es, h⟩
    cases h with
    | ask hx h => exact ⟨_, _, hx, _, h⟩
  · rintro ⟨x, v, hx, es, h⟩
    exact ⟨_, .ask hx h⟩

theorem gives_call {q : Q} {x : Answer q} : Gives rules (call q) w x w' ↔ rules q w x w' := by
  rw [call, gives_ask]
  constructor
  · rintro ⟨y, v, hy, h⟩
    obtain ⟨rfl, rfl⟩ := gives_done.mp h
    exact hy
  · intro h
    exact ⟨x, w', h, gives_done.mpr ⟨rfl, rfl⟩⟩

theorem gives_bind {p : Plan Answer α} {f : α → Plan Answer β} {c : β} :
    Gives rules (p >>= f) w c w' ↔ ∃ a v, Gives rules p w a v ∧ Gives rules (f a) v c w' := by
  induction p generalizing w with
  | done b =>
      simp only [done_bind, gives_done]
      constructor
      · intro h
        exact ⟨b, w, ⟨rfl, rfl⟩, h⟩
      · rintro ⟨_, _, ⟨rfl, rfl⟩, h⟩
        exact h
  | ask q next ih =>
      simp only [Plan.ask_bind, gives_ask, ih]
      constructor
      · rintro ⟨x, v, hx, a, u, hp, hf⟩
        exact ⟨a, u, ⟨x, v, hx, hp⟩, hf⟩
      · rintro ⟨a, u, ⟨x, v, hx, hp⟩, hf⟩
        exact ⟨x, v, hx, a, u, hp, hf⟩

theorem Gives.mono {rules' : Rules Answer W} (hr : ∀ q w x w', rules q w x w' → rules' q w x w')
    {p : Plan Answer α} (h : Gives rules p w a w') : Gives rules' p w a w' := by
  obtain ⟨es, hs⟩ := h
  exact ⟨es, hs.mono hr⟩

theorem Sure.gives {p : Plan Answer α} {post : α → W → Prop} (h : Sure rules ok p w post)
    (hg : Gives rules p w a w') : post a w' := by
  obtain ⟨es, hs⟩ := hg
  exact (h.steps hs).2

theorem SureOr.gives_ok {r : ExceptT ε (Plan Answer) α} {post : α → W → Prop}
    {fail : ε → W → Prop} (h : SureOr rules ok r w post fail) (hg : Gives rules r.run w (.ok a) w') :
    post a w' := by
  obtain ⟨es, hs⟩ := hg
  exact (Sure.steps h hs).2

theorem SureOr.gives_error {r : ExceptT ε (Plan Answer) α} {post : α → W → Prop}
    {fail : ε → W → Prop} {e : ε} (h : SureOr rules ok r w post fail)
    (hg : Gives rules r.run w (.error e) w') : fail e w' := by
  obtain ⟨es, hs⟩ := hg
  exact (Sure.steps h hs).2

theorem exists_gives (h : ∀ q w, ∃ x w', rules q w x w') (p : Plan Answer α) (w : W) :
    ∃ a w', Gives rules p w a w' := by
  induction p generalizing w with
  | done a => exact ⟨a, w, gives_done.mpr ⟨rfl, rfl⟩⟩
  | ask q next ih =>
      obtain ⟨x, v, hx⟩ := h q w
      obtain ⟨a, w', hg⟩ := ih x v
      exact ⟨a, w', gives_ask.mpr ⟨x, v, hx, hg⟩⟩

theorem Asks.gives_unique {sort : Q → Prop} {p : Plan Answer α} {w'' : W} (h : Asks sort p)
    (hu : ∀ q w x v y u, sort q → rules q w x v → rules q w y u → x = y ∧ v = u)
    (ha : Gives rules p w a w') (hb : Gives rules p w b w'') : a = b ∧ w' = w'' := by
  induction p generalizing w with
  | done c =>
      obtain ⟨rfl, rfl⟩ := gives_done.mp ha
      obtain ⟨rfl, rfl⟩ := gives_done.mp hb
      exact ⟨rfl, rfl⟩
  | ask q next ih =>
      obtain ⟨x, v, hx, ha⟩ := gives_ask.mp ha
      obtain ⟨y, u, hy, hb⟩ := gives_ask.mp hb
      obtain ⟨rfl, rfl⟩ := hu q w x v y u h.1 hx hy
      exact ih x (h.2 x) ha hb

theorem gives_iff_of_unique {p : Plan Answer α} {b : α} {v : W}
    (h : ∀ q w, ∃ x w', rules q w x w') (hu : ∀ a w', Gives rules p w a w' → a = b ∧ w' = v) :
    Gives rules p w a w' ↔ a = b ∧ w' = v := by
  refine ⟨hu a w', ?_⟩
  rintro ⟨rfl, rfl⟩
  obtain ⟨c, u, hg⟩ := exists_gives h p w
  obtain ⟨rfl, rfl⟩ := hu c u hg
  exact hg

theorem SureOr.gives_iff {r : ExceptT ε (Plan Answer) α} {x y : Except ε α} {v : W}
    (h : ∀ q w, ∃ x w', rules q w x w')
    (hs : SureOr rules (fun _ => True) r w (fun a w' => .ok a = y ∧ w' = v)
      fun e w' => .error e = y ∧ w' = v) :
    Gives rules r.run w x w' ↔ x = y ∧ w' = v := by
  refine gives_iff_of_unique h ?_
  intro x w' hx
  cases x with
  | ok a => exact hs.gives_ok hx
  | error e => exact hs.gives_error hx

theorem gives_run {Q' : Type} {Answer' : Q' → Type} {rules : Rules Answer' W}
    (answer : (q : Q) → Plan Answer' (Answer q)) {p : Plan Answer α} :
    Gives rules (p.run answer) w a w' ↔ Gives (fun q => Gives rules (answer q)) p w a w' := by
  induction p generalizing w with
  | done b => exact gives_done.trans gives_done.symm
  | ask q next ih =>
      rw [run, gives_bind, gives_ask]
      exact exists_congr fun x => exists_congr fun v => and_congr_right fun _ => ih x

theorem gives_stateM (answer : (q : Q) → StateM W (Answer q))
    (h : ∀ q w, rules q w (answer q w).1 (answer q w).2) (p : Plan Answer α) (w : W) :
    Gives rules p w (p.run answer w).1 (p.run answer w).2 := by
  induction p generalizing w with
  | done a => exact gives_done.mpr ⟨rfl, rfl⟩
  | ask q next ih => exact gives_ask.mpr ⟨_, _, h q w, ih _ _⟩

def cut (answer : (q : Q) → StateM W (Answer q)) :
    Nat → Plan Answer α → W → Plan Answer α × W
  | n + 1, ask q next, w => cut answer n (next (answer q w).1) (answer q w).2
  | _, p, w => (p, w)

theorem exists_steps_cut {answer : (q : Q) → StateM W (Answer q)}
    (h : ∀ q w, rules q w (answer q w).1 (answer q w).2) (n : Nat) (p : Plan Answer α) (w : W) :
    ∃ es, Steps rules p w es (cut answer n p w).1 (cut answer n p w).2 := by
  induction n generalizing p w with
  | zero => exact ⟨[], .refl p w⟩
  | succ n ih =>
      cases p with
      | done a => exact ⟨[], .refl _ w⟩
      | ask q next =>
          obtain ⟨es, hs⟩ := ih (next (answer q w).1) (answer q w).2
          exact ⟨_, .ask (h q w) hs⟩

end Dualbank.Plan
