import Dualbank.Proofs.Plan.Gives

namespace Dualbank.Plan

variable {Q : Type} {Answer : Q → Type} {W α β ε : Type}

def Finishes (rules : Rules Answer W) (p : Plan Answer α) (w : W)
    (post : α → List (Event Answer W) → W → Prop) : Prop :=
  ∀ es a w', Steps rules p w es (done a) w' → post a es w'

def FinishesOr (rules : Rules Answer W) (r : ExceptT ε (Plan Answer) α) (w : W)
    (post : α → List (Event Answer W) → W → Prop) (fail : ε → List (Event Answer W) → W → Prop) :
    Prop :=
  Finishes rules r.run w fun x es w' =>
    match x with
    | .ok a => post a es w'
    | .error e => fail e es w'

variable {rules : Rules Answer W} {w : W}

theorem Finishes.mono {p : Plan Answer α} {post post' : α → List (Event Answer W) → W → Prop}
    (h : Finishes rules p w post) (hp : ∀ a es w', post a es w' → post' a es w') :
    Finishes rules p w post' := fun es a w' hs => hp a es w' (h es a w' hs)

theorem finishes_done {a : α} {post : α → List (Event Answer W) → W → Prop} :
    Finishes rules (done a) w post ↔ post a [] w := by
  constructor
  · intro h
    exact h [] a w (.refl _ _)
  · intro h es b w' hs
    cases hs with
    | refl => exact h

theorem finishes_ask {q : Q} {next : Answer q → Plan Answer α}
    {post : α → List (Event Answer W) → W → Prop} :
    Finishes rules (ask q next) w post ↔ ∀ x v, rules q w x v →
      Finishes rules (next x) v fun a es w' => post a (⟨q, x, w, v⟩ :: es) w' := by
  constructor
  · intro h x v hx es a w' hs
    exact h _ a w' (.ask hx hs)
  · intro h es a w' hs
    obtain ⟨x, v, fs, rfl, hx, hs⟩ := Steps.ask_done hs
    exact h x v hx fs a w' hs

theorem finishes_bind {p : Plan Answer α} {f : α → Plan Answer β}
    {post : β → List (Event Answer W) → W → Prop} :
    Finishes rules (p >>= f) w post ↔ Finishes rules p w fun a es v =>
      Finishes rules (f a) v fun b fs w' => post b (es ++ fs) w' := by
  constructor
  · intro h es a v hp fs b w' hf
    exact h _ b w' ((hp.bind f).trans hf)
  · intro h es b w' hs
    obtain ⟨a, v, fs, gs, rfl, hp, hf⟩ := Steps.bind_done hs
    exact h fs a v hp gs b w' hf

theorem sure_iff_finishes {p : Plan Answer α} {post : α → W → Prop} :
    Sure rules (fun _ => True) p w post ↔ Finishes rules p w fun a _ w' => post a w' := by
  induction p generalizing w with
  | done a => exact ⟨fun h => finishes_done.mpr h, fun h => finishes_done.mp h⟩
  | ask q next ih =>
      refine Iff.trans ?_ finishes_ask.symm
      exact forall_congr' fun x => forall_congr' fun v => imp_congr_right fun _ =>
        (and_iff_right trivial).trans (ih x)

/-- Where a run to the end stops is seen from its events. -/
theorem Steps.done_unique {p : Plan Answer α} {es es' fs fs' : List (Event Answer W)} {a a' : α}
    {w' w'' : W} (h : Steps rules p w es (done a) w') (h' : Steps rules p w es' (done a') w'')
    (hes : es ++ fs = es' ++ fs') : es = es' ∧ a = a' ∧ w' = w'' := by
  induction p generalizing w es es' with
  | done b =>
      cases h
      cases h'
      exact ⟨rfl, rfl, rfl⟩
  | ask q next ih =>
      obtain ⟨x, v, gs, rfl, -, h⟩ := Steps.ask_done h
      obtain ⟨x', v', gs', rfl, -, h'⟩ := Steps.ask_done h'
      obtain ⟨he, htail⟩ := List.cons.inj hes
      cases he
      obtain ⟨rfl, ha, hw⟩ := ih x h h' htail
      exact ⟨rfl, ha, hw⟩

section Errors

variable {r : ExceptT ε (Plan Answer) α} {f : α → ExceptT ε (Plan Answer) β}
  {es : List (Event Answer W)} {w' : W}
  {post : α → List (Event Answer W) → W → Prop} {fail : ε → List (Event Answer W) → W → Prop}

theorem FinishesOr.mono {post' : α → List (Event Answer W) → W → Prop}
    {fail' : ε → List (Event Answer W) → W → Prop} (h : FinishesOr rules r w post fail)
    (hp : ∀ a es w', post a es w' → post' a es w')
    (hf : ∀ e es w', fail e es w' → fail' e es w') : FinishesOr rules r w post' fail' := by
  intro es x w' hs
  have hx := h es x w' hs
  cases x with
  | ok a => exact hp a es w' hx
  | error e => exact hf e es w' hx

theorem finishesOr_pure {a : α} :
    FinishesOr rules (pure a : ExceptT ε (Plan Answer) α) w post fail ↔ post a [] w :=
  finishes_done

theorem finishesOr_throw {e : ε} :
    FinishesOr rules (throw e : ExceptT ε (Plan Answer) α) w post fail ↔ fail e [] w :=
  finishes_done

theorem finishesOr_ofExcept (x : Except ε α) :
    FinishesOr rules (MonadExcept.ofExcept x : ExceptT ε (Plan Answer) α) w post fail ↔
      match x with
      | .ok a => post a [] w
      | .error e => fail e [] w := by
  cases x with
  | ok a => exact finishesOr_pure
  | error e => exact finishesOr_throw

theorem finishesOr_bind {post : β → List (Event Answer W) → W → Prop} :
    FinishesOr rules (r >>= f) w post fail ↔ FinishesOr rules r w
      (fun a es v => FinishesOr rules (f a) v (fun b fs w' => post b (es ++ fs) w')
        fun e fs w' => fail e (es ++ fs) w') fail := by
  refine finishes_bind.trans (iff_of_eq (congrArg _ ?_))
  funext x es v
  cases x with
  | ok a => rfl
  | error e => exact (propext finishes_done).trans (by rw [List.append_nil])

theorem finishesOr_ask_bind {q : Q} {f : Answer q → ExceptT ε (Plan Answer) β}
    {post : β → List (Event Answer W) → W → Prop} :
    FinishesOr rules (ExceptT.lift (call q) >>= f) w post fail ↔ ∀ x v, rules q w x v →
      FinishesOr rules (f x) v (fun b es w' => post b (⟨q, x, w, v⟩ :: es) w')
        fun e es w' => fail e (⟨q, x, w, v⟩ :: es) w' := by
  refine finishes_ask.trans ?_
  refine forall_congr' fun x => forall_congr' fun v => imp_congr_right fun _ => ?_
  refine iff_of_eq (congrArg _ ?_)
  funext y es w'
  cases y with
  | ok b => rfl
  | error e => rfl

theorem finishesOr_adapt {ε' : Type} {g : ε → ε'} {fail : ε' → List (Event Answer W) → W → Prop} :
    FinishesOr rules (r.adapt g) w post fail ↔ FinishesOr rules r w post fun e => fail (g e) := by
  refine finishes_bind.trans (iff_of_eq (congrArg _ ?_))
  funext x es v
  refine (propext finishes_done).trans ?_
  rw [List.append_nil]
  cases x with
  | ok a => rfl
  | error e => rfl

theorem steps_ask_bind_iff {q : Q} {f : Answer q → ExceptT ε (Plan Answer) β} {y : Except ε β} :
    Steps rules (ExceptT.lift (call q) >>= f).run w es (done y) w' ↔
      ∃ x v fs, es = ⟨q, x, w, v⟩ :: fs ∧ rules q w x v ∧
        Steps rules (f x).run v fs (done y) w' := by
  constructor
  · exact Steps.ask_done
  · rintro ⟨x, v, fs, rfl, hx, hs⟩
    exact .ask hx hs

theorem steps_pure_iff {a : α} {y : Except ε α} :
    Steps rules (pure a : ExceptT ε (Plan Answer) α).run w es (done y) w' ↔
      es = [] ∧ y = .ok a ∧ w' = w := by
  constructor
  · intro h
    cases h
    exact ⟨rfl, rfl, rfl⟩
  · rintro ⟨rfl, rfl, rfl⟩
    exact .refl _ _

theorem steps_ofExcept_iff {x y : Except ε α} :
    Steps rules (MonadExcept.ofExcept x : ExceptT ε (Plan Answer) α).run w es (done y) w' ↔
      es = [] ∧ y = x ∧ w' = w := by
  cases x with
  | ok a => exact steps_pure_iff
  | error e =>
      constructor
      · intro h
        cases h
        exact ⟨rfl, rfl, rfl⟩
      · rintro ⟨rfl, rfl, rfl⟩
        exact .refl _ _

theorem steps_map_iff {g : α → β} {y : Except ε β} :
    Steps rules (r >>= fun a => pure (g a)).run w es (done y) w' ↔
      ∃ x, Steps rules r.run w es (done x) w' ∧ y = x.map g := by
  constructor
  · intro h
    obtain ⟨x, v, fs, gs, rfl, hr, hs⟩ := Steps.bind_done h
    refine ⟨x, ?_⟩
    cases x with
    | ok a =>
        cases hs
        rw [List.append_nil]
        exact ⟨hr, rfl⟩
    | error e =>
        cases hs
        rw [List.append_nil]
        exact ⟨hr, rfl⟩
  · rintro ⟨x, hr, rfl⟩
    have hs := hr.bind (ExceptT.bindCont fun a => pure (g a))
    cases x with
    | ok a => exact hs
    | error e => exact hs

theorem steps_run_bind_iff {y : Except ε β} :
    Steps rules (r >>= f).run w es (done y) w' ↔
      (∃ a v fs gs, es = fs ++ gs ∧ Steps rules r.run w fs (done (.ok a)) v ∧
        Steps rules (f a).run v gs (done y) w') ∨
      ∃ e, Steps rules r.run w es (done (.error e)) w' ∧ y = .error e := by
  constructor
  · intro h
    obtain ⟨x, v, fs, gs, rfl, hr, hs⟩ := Steps.bind_done h
    cases x with
    | ok a => exact .inl ⟨a, v, fs, gs, rfl, hr, hs⟩
    | error e =>
        cases hs
        rw [List.append_nil]
        exact .inr ⟨e, hr, rfl⟩
  · rintro (⟨a, v, fs, gs, rfl, hr, hs⟩ | ⟨e, hr, rfl⟩)
    · exact hr.bind_ok hs
    · exact hr.bind (ExceptT.bindCont f)

end Errors

end Dualbank.Plan
