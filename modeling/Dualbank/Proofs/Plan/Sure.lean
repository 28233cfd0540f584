import Dualbank.Plan

namespace Dualbank.Plan

variable {Q : Type} {Answer : Q → Type} {W α β ε : Type}

/-- What a world may answer to a question, and the world after it. -/
abbrev Rules (Answer : Q → Type) (W : Type) := (q : Q) → W → Answer q → W → Prop

structure Event (Answer : Q → Type) (W : Type) where
  question : Q
  answer : Answer question
  before : W
  after : W

/-- From a plan and a world, some questions are answered; another plan and world are left. -/
inductive Steps (rules : Rules Answer W) :
    Plan Answer α → W → List (Event Answer W) → Plan Answer α → W → Prop
  | refl (p : Plan Answer α) (w : W) : Steps rules p w [] p w
  | ask {q : Q} {next : Answer q → Plan Answer α} {x : Answer q} {w w' w'' : W}
      {es : List (Event Answer W)} {p : Plan Answer α} (hx : rules q w x w')
      (h : Steps rules (next x) w' es p w'') :
      Steps rules (ask q next) w (⟨q, x, w, w'⟩ :: es) p w''

/-- Whatever is answered, each event keeps to `ok` and the end meets `post`. -/
def Sure (rules : Rules Answer W) (ok : Event Answer W → Prop) :
    Plan Answer α → W → (α → W → Prop) → Prop
  | done a, w, post => post a w
  | ask q next, w, post =>
    ∀ x w', rules q w x w' → ok ⟨q, x, w, w'⟩ ∧ Sure rules ok (next x) w' post

def SureOr (rules : Rules Answer W) (ok : Event Answer W → Prop) (r : ExceptT ε (Plan Answer) α)
    (w : W) (post : α → W → Prop) (fail : ε → W → Prop) : Prop :=
  Sure rules ok r.run w fun x w' =>
    match x with
    | .ok a => post a w'
    | .error e => fail e w'

def Asks (sort : Q → Prop) : Plan Answer α → Prop
  | done _ => True
  | ask q next => sort q ∧ ∀ x, Asks sort (next x)

/-- The first question of a plan is `q`; answered `x`, it goes on as `p'`. -/
def GoesOn (p : Plan Answer α) (q : Q) (x : Answer q) (p' : Plan Answer α) : Prop :=
  ∃ next, p = ask q next ∧ next x = p'

theorem GoesOn.bind {p p' : Plan Answer α} {q : Q} {x : Answer q} (h : GoesOn p q x p')
    (f : α → Plan Answer β) : GoesOn (p >>= f) q x (p' >>= f) := by
  obtain ⟨next, rfl, rfl⟩ := h
  exact ⟨fun y => next y >>= f, rfl, rfl⟩

variable {rules : Rules Answer W} {ok : Event Answer W → Prop} {w w' w'' : W}

namespace Steps

theorem trans {p q r : Plan Answer α} {es fs : List (Event Answer W)}
    (h : Steps rules p w es q w') (h' : Steps rules q w' fs r w'') :
    Steps rules p w (es ++ fs) r w'' := by
  induction h with
  | refl => exact h'
  | ask hx _ ih => exact .ask hx (ih h')

theorem bind {p q : Plan Answer α} {es : List (Event Answer W)} (f : α → Plan Answer β)
    (h : Steps rules p w es q w') : Steps rules (p >>= f) w es (q >>= f) w' := by
  induction h with
  | refl p w => exact .refl (p >>= f) w
  | ask hx _ ih => exact .ask hx ih

theorem mono {rules' : Rules Answer W} (hr : ∀ q w x w', rules q w x w' → rules' q w x w')
    {p q : Plan Answer α} {es : List (Event Answer W)} (h : Steps rules p w es q w') :
    Steps rules' p w es q w' := by
  induction h with
  | refl p w => exact .refl p w
  | ask hx _ ih => exact .ask (hr _ _ _ _ hx) ih

theorem rules_of_mem {p q : Plan Answer α} {es : List (Event Answer W)}
    (h : Steps rules p w es q w') : ∀ e ∈ es, rules e.question e.before e.answer e.after := by
  induction h with
  | refl => simp
  | ask hx _ ih => exact List.forall_mem_cons.mpr ⟨hx, ih⟩

/-- A run whose events are all of one sort is a run in a world that has no others. -/
theorem restrict {p q : Plan Answer α} {es : List (Event Answer W)} {sort : Event Answer W → Prop}
    (h : Steps rules p w es q w') (hes : ∀ e ∈ es, sort e) :
    Steps (fun q w x w' => rules q w x w' ∧ sort ⟨q, x, w, w'⟩) p w es q w' := by
  induction h with
  | refl p w => exact .refl p w
  | ask hx _ ih =>
      obtain ⟨he, hes⟩ := List.forall_mem_cons.mp hes
      exact .ask ⟨hx, he⟩ (ih hes)

theorem of_append {p q : Plan Answer α} {es fs : List (Event Answer W)}
    (h : Steps rules p w (es ++ fs) q w'') :
    ∃ r w', Steps rules p w es r w' ∧ Steps rules r w' fs q w'' := by
  induction es generalizing p w with
  | nil => exact ⟨p, w, .refl p w, h⟩
  | cons e es ih =>
      cases h with
      | ask hx h =>
          obtain ⟨r, w', hes, hfs⟩ := ih h
          exact ⟨r, w', .ask hx hes, hfs⟩

theorem ask_done {q : Q} {next : Answer q → Plan Answer α} {es : List (Event Answer W)} {a : α}
    (h : Steps rules (Plan.ask q next) w es (done a) w'') :
    ∃ x w' fs, es = ⟨q, x, w, w'⟩ :: fs ∧ rules q w x w' ∧
      Steps rules (next x) w' fs (done a) w'' := by
  cases h with
  | ask hx h => exact ⟨_, _, _, rfl, hx, h⟩

theorem bind_done {p : Plan Answer α} {f : α → Plan Answer β} {es : List (Event Answer W)} {b : β}
    (h : Steps rules (p >>= f) w es (done b) w'') :
    ∃ a w' fs gs, es = fs ++ gs ∧ Steps rules p w fs (done a) w' ∧
      Steps rules (f a) w' gs (done b) w'' := by
  induction p generalizing w es with
  | done a => exact ⟨a, w, [], es, rfl, .refl _ _, h⟩
  | ask q next ih =>
      cases h with
      | ask hx h =>
          obtain ⟨a, w', fs, gs, rfl, hp, hf⟩ := ih _ h
          exact ⟨a, w', _ :: fs, gs, rfl, .ask hx hp, hf⟩

/-- What holds at first and is kept by each event holds all along, wherever a run is cut. -/
theorem invariant {p q : Plan Answer α} {es : List (Event Answer W)} {I : W → Prop}
    (h : Steps rules p w es q w') (hes : ∀ e ∈ es, I e.before → I e.after) (hw : I w) :
    I w' ∧ ∀ e ∈ es, I e.before ∧ I e.after := by
  induction h with
  | refl => exact ⟨hw, by simp⟩
  | ask _ _ ih =>
      obtain ⟨he, hes⟩ := List.forall_mem_cons.mp hes
      obtain ⟨hend, hall⟩ := ih hes (he hw)
      exact ⟨hend, List.forall_mem_cons.mpr ⟨⟨hw, he hw⟩, hall⟩⟩

theorem world {p q : Plan Answer α} {es : List (Event Answer W)} {I : W → Prop}
    (h : Steps rules p w es q w') (hes : ∀ e ∈ es, I e.after) (hw : I w) : I w' :=
  (h.invariant (fun e he _ => hes e he) hw).1

theorem bind_ok {r : ExceptT ε (Plan Answer) α} {f : α → ExceptT ε (Plan Answer) β} {a : α}
    {es fs : List (Event Answer W)} {q : Plan Answer (Except ε β)}
    (h : Steps rules r.run w es (done (.ok a)) w') (h' : Steps rules (f a).run w' fs q w'') :
    Steps rules (r >>= f).run w (es ++ fs) q w'' :=
  (h.bind (ExceptT.bindCont f)).trans h'

end Steps

theorem Sure.mono {p : Plan Answer α} {post post' : α → W → Prop}
    (h : Sure rules ok p w post) (hp : ∀ a w, post a w → post' a w) :
    Sure rules ok p w post' := by
  induction p generalizing w with
  | done a => exact hp a w h
  | ask q next ih =>
      intro x w' hx
      obtain ⟨he, hn⟩ := h x w' hx
      exact ⟨he, ih x hn⟩

theorem Sure.mono_events {ok' : Event Answer W → Prop} {p : Plan Answer α} {post : α → W → Prop}
    (h : Sure rules ok p w post) (hok : ∀ e, ok e → ok' e) : Sure rules ok' p w post := by
  induction p generalizing w with
  | done a => exact h
  | ask q next ih =>
      intro x w' hx
      obtain ⟨he, hn⟩ := h x w' hx
      exact ⟨hok _ he, ih x hn⟩

/-- Sure of a plan means true of its runs, cut anywhere. -/
theorem Sure.steps {p q : Plan Answer α} {es : List (Event Answer W)} {post : α → W → Prop}
    (h : Sure rules ok p w post) (hs : Steps rules p w es q w') :
    (∀ e ∈ es, ok e) ∧ Sure rules ok q w' post := by
  induction hs with
  | refl => exact ⟨by simp, h⟩
  | ask hx _ ih =>
      obtain ⟨he, hn⟩ := h _ _ hx
      obtain ⟨hes, hq⟩ := ih hn
      exact ⟨List.forall_mem_cons.mpr ⟨he, hes⟩, hq⟩

theorem Sure.world {p q : Plan Answer α} {es : List (Event Answer W)} {post : α → W → Prop}
    {I : W → Prop} (h : Sure rules (fun e => I e.after) p w post)
    (hs : Steps rules p w es q w') (hw : I w) : I w' :=
  hs.world (h.steps hs).1 hw

theorem sure_bind {p : Plan Answer α} {f : α → Plan Answer β} {post : β → W → Prop} :
    Sure rules ok (p >>= f) w post ↔
      Sure rules ok p w fun a w' => Sure rules ok (f a) w' post := by
  induction p generalizing w with
  | done a => exact Iff.rfl
  | ask q next ih =>
      exact forall_congr' fun x => forall_congr' fun w' => imp_congr_right fun _ =>
        and_congr_right fun _ => ih x

/-- What questions of one sort keep of the world is kept by a plan that asks no others. -/
theorem Asks.sure {sort : Q → Prop} {I : W → Prop} {p : Plan Answer α} (h : Asks sort p)
    (hs : ∀ q v x v', sort q → I v → rules q v x v' → ok ⟨q, x, v, v'⟩ ∧ I v') (hw : I w) :
    Sure rules ok p w fun _ w' => I w' := by
  induction p generalizing w with
  | done a => exact hw
  | ask q next ih =>
      intro x w' hx
      obtain ⟨he, hw'⟩ := hs q w x w' h.1 hw hx
      exact ⟨he, ih x (h.2 x) hw'⟩

theorem Asks.of_mem {sort : Q → Prop} {p q : Plan Answer α} {es : List (Event Answer W)}
    (h : Asks sort p) (hs : Steps rules p w es q w') : ∀ e ∈ es, sort e.question := by
  induction hs with
  | refl => simp
  | ask _ _ ih => exact List.forall_mem_cons.mpr ⟨h.1, ih (h.2 _)⟩

theorem asks_bind {sort : Q → Prop} {p : Plan Answer α} {f : α → Plan Answer β}
    (h : Asks sort p) (hf : ∀ a, Asks sort (f a)) : Asks sort (p >>= f) := by
  induction p with
  | done a => exact hf a
  | ask q next ih => exact ⟨h.1, fun x => ih x (h.2 x)⟩

section Errors

variable {r : ExceptT ε (Plan Answer) α} {f : α → ExceptT ε (Plan Answer) β}
  {post : α → W → Prop} {fail : ε → W → Prop} {sort : Q → Prop}

theorem SureOr.mono {post' : α → W → Prop} {fail' : ε → W → Prop}
    (h : SureOr rules ok r w post fail) (hp : ∀ a w, post a w → post' a w)
    (hf : ∀ e w, fail e w → fail' e w) : SureOr rules ok r w post' fail' := by
  apply Sure.mono h
  intro x w hx
  cases x with
  | ok a => exact hp a w hx
  | error e => exact hf e w hx

theorem sureOr_bind {post : β → W → Prop} :
    SureOr rules ok (r >>= f) w post fail ↔
      SureOr rules ok r w (fun a w' => SureOr rules ok (f a) w' post fail) fail := by
  refine sure_bind.trans (iff_of_eq (congrArg _ ?_))
  funext x w'
  cases x with
  | ok a => rfl
  | error e => rfl

theorem sureOr_map {g : α → β} {post : β → W → Prop} :
    SureOr rules ok (g <$> r) w post fail ↔ SureOr rules ok r w (fun a => post (g a)) fail := by
  rw [map_eq_pure_bind]
  exact sureOr_bind

@[simp] theorem sureOr_ask (q : Q) {post : Answer q → W → Prop} :
    SureOr rules ok (ExceptT.lift (call q) : ExceptT ε (Plan Answer) (Answer q)) w post fail ↔
      ∀ x w', rules q w x w' → ok ⟨q, x, w, w'⟩ ∧ post x w' := Iff.rfl

theorem sureOr_ask_bind {q : Q} {f : Answer q → ExceptT ε (Plan Answer) β} {post : β → W → Prop} :
    SureOr rules ok (ExceptT.lift (call q) >>= f) w post fail ↔
      ∀ x w', rules q w x w' → ok ⟨q, x, w, w'⟩ ∧ SureOr rules ok (f x) w' post fail :=
  sureOr_bind.trans (sureOr_ask q)

theorem sureOr_ofExcept (x : Except ε α) :
    SureOr rules ok (MonadExcept.ofExcept x : ExceptT ε (Plan Answer) α) w post fail ↔
      match x with
      | .ok a => post a w
      | .error e => fail e w := by
  cases x with
  | ok a => exact Iff.rfl
  | error e => exact Iff.rfl

theorem sureOr_adapt {ε' : Type} {g : ε → ε'} {fail : ε' → W → Prop} :
    SureOr rules ok (r.adapt g) w post fail ↔ SureOr rules ok r w post fun e => fail (g e) := by
  refine sure_bind.trans (iff_of_eq (congrArg _ ?_))
  funext x w'
  cases x with
  | ok a => rfl
  | error e => rfl

theorem sureOr_lift {p : Plan Answer α} :
    SureOr rules ok (ExceptT.lift p : ExceptT ε (Plan Answer) α) w post fail ↔
      Sure rules ok p w post := sure_bind

theorem SureOr.bind {middle : α → W → Prop} {post : β → W → Prop}
    (h : SureOr rules ok r w middle fail)
    (hf : ∀ a w', middle a w' → SureOr rules ok (f a) w' post fail) :
    SureOr rules ok (r >>= f) w post fail :=
  sureOr_bind.mpr (h.mono hf fun _ _ he => he)

@[simp] theorem asks_run_pure (a : α) :
    Asks sort (pure a : ExceptT ε (Plan Answer) α).run := trivial

@[simp] theorem asks_run_ofExcept (x : Except ε α) :
    Asks sort (MonadExcept.ofExcept x : ExceptT ε (Plan Answer) α).run := by
  cases x with
  | ok a => exact trivial
  | error e => exact trivial

@[simp] theorem asks_run_ask (q : Q) :
    Asks sort (ExceptT.lift (call q) : ExceptT ε (Plan Answer) (Answer q)).run ↔ sort q :=
  and_iff_left fun _ => trivial

theorem asks_run_bind (h : Asks sort r.run) (hf : ∀ a, Asks sort (f a).run) :
    Asks sort (r >>= f).run := by
  apply asks_bind h
  intro x
  cases x with
  | ok a => exact hf a
  | error e => exact trivial

theorem Asks.mono {sort' : Q → Prop} {p : Plan Answer α} (h : Asks sort p)
    (hs : ∀ q, sort q → sort' q) : Asks sort' p := by
  induction p with
  | done a => exact trivial
  | ask q next ih => exact ⟨hs q h.1, fun x => ih x (h.2 x)⟩

theorem Asks.sureOr {I : W → Prop} (h : Asks sort r.run)
    (hs : ∀ q v x v', sort q → I v → rules q v x v' → ok ⟨q, x, v, v'⟩ ∧ I v') (hw : I w) :
    SureOr rules ok r w (fun _ w' => I w') fun _ w' => I w' := by
  refine (h.sure hs hw).mono ?_
  intro x w' hw'
  cases x with
  | ok a => exact hw'
  | error e => exact hw'

end Errors

end Dualbank.Plan
