import Dualbank.Proofs.Plan.Finishes

namespace Dualbank.Plan

variable {Q : Type} {Answer : Q → Type} {W α ε : Type}

def Answered (es : List (Event Answer W)) (q : Q) (x : Answer q) : Prop :=
  ∃ w w', ⟨q, x, w, w'⟩ ∈ es

/-- What may be asked can depend on what was answered before, which the world itself need not show.
With all that happened in it so far it is a world again, so that the laws of sureness follow both.
-/
def remember (rules : Rules Answer W) : Rules Answer (W × List (Event Answer W)) :=
  fun q w x w' => ∃ v, rules q w.1 x v ∧ w' = (v, w.2 ++ [⟨q, x, w.1, v⟩])

/-- Whatever is answered, each event keeps to `ok`, which sees the past of the event, too. -/
def SureInTurn (rules : Rules Answer W) (ok : List (Event Answer W) → Event Answer W → Prop)
    (r : ExceptT ε (Plan Answer) α) (w : W) (past : List (Event Answer W))
    (post : α → W → List (Event Answer W) → Prop) : Prop :=
  SureOr (remember rules) (fun e => ok e.before.2 ⟨e.question, e.answer, e.before.1, e.after.1⟩) r
    (w, past) (fun a v => post a v.1 v.2) fun _ _ => True

variable {rules : Rules Answer W} {ok : List (Event Answer W) → Event Answer W → Prop} {w w' : W}
  {es fs past : List (Event Answer W)} {q : Q} {x : Answer q}

theorem Answered.mono (h : Answered es q x) (hs : es ⊆ fs) : Answered fs q x := by
  obtain ⟨v, v', hv⟩ := h
  exact ⟨v, v', hs hv⟩

theorem Answered.append_right (h : Answered es q x) : Answered (es ++ fs) q x :=
  h.mono (List.subset_append_left es fs)

@[simp] theorem answered_concat : Answered (es ++ [⟨q, x, w, w'⟩]) q x := ⟨w, w', by simp⟩

theorem not_answered (h : ∀ e ∈ es, e.question ≠ q) : ¬Answered es q x := by
  rintro ⟨v, v', hv⟩
  exact h _ hv rfl

theorem answered_append : Answered (es ++ fs) q x ↔ Answered es q x ∨ Answered fs q x := by
  simp only [Answered, List.mem_append, exists_or]

theorem answered_cons_of_ne {q' : Q} {y : Answer q'} (h : q' ≠ q) :
    Answered (⟨q', y, w, w'⟩ :: es) q x ↔ Answered es q x := by
  refine exists_congr fun v => exists_congr fun v' => ?_
  rw [List.mem_cons]
  exact or_iff_right fun he => h (congrArg Event.question he).symm

theorem Sure.in_turn {p r : Plan Answer α}
    {post : α → W × List (Event Answer W) → Prop}
    (h : Sure (remember rules)
      (fun e => ok e.before.2 ⟨e.question, e.answer, e.before.1, e.after.1⟩) p (w, past) post)
    (hs : Steps rules p w es r w') {pre rest : List (Event Answer W)} {e : Event Answer W}
    (he : es = pre ++ e :: rest) : ok (past ++ pre) e := by
  induction hs generalizing past pre with
  | refl => simp at he
  | @ask q next x w w' w'' es p hx hs ih =>
      obtain ⟨hok, hnext⟩ := h x (w', past ++ [⟨q, x, w, w'⟩]) ⟨w', hx, rfl⟩
      cases pre with
      | nil =>
          obtain ⟨rfl, rfl⟩ := List.cons.inj he
          simpa using hok
      | cons e' pre =>
          obtain ⟨rfl, rfl⟩ := List.cons.inj he
          simpa using ih hnext rfl

section Errors

variable {β : Type} {r : ExceptT ε (Plan Answer) α} {f : α → ExceptT ε (Plan Answer) β}
  {post : α → W → List (Event Answer W) → Prop} {post' : β → W → List (Event Answer W) → Prop}

theorem SureInTurn.events (h : SureInTurn rules ok r w [] post)
    {p : Plan Answer (Except ε α)} (hs : Steps rules r.run w es p w')
    {pre rest : List (Event Answer W)} {e : Event Answer W} (he : es = pre ++ e :: rest) :
    ok pre e := Sure.in_turn h hs he

theorem sureInTurn_pure {a : α} :
    SureInTurn rules ok (pure a : ExceptT ε (Plan Answer) α) w past post ↔ post a w past := Iff.rfl

theorem sureInTurn_throw {e : ε} :
    SureInTurn rules ok (throw e : ExceptT ε (Plan Answer) α) w past post := trivial

theorem SureInTurn.bind (h : SureInTurn rules ok r w past post)
    (hf : ∀ a v past, post a v past → SureInTurn rules ok (f a) v past post') :
    SureInTurn rules ok (r >>= f) w past post' :=
  SureOr.bind h fun a v hv => hf a v.1 v.2 hv

theorem SureInTurn.ask_bind {g : Answer q → ExceptT ε (Plan Answer) β}
    (h : ∀ x v, rules q w x v → ok past ⟨q, x, w, v⟩ ∧
      SureInTurn rules ok (g x) v (past ++ [⟨q, x, w, v⟩]) post') :
    SureInTurn rules ok (ExceptT.lift (call q) >>= g) w past post' := by
  apply sureOr_ask_bind.mpr
  rintro x _ ⟨v, hx, rfl⟩
  exact h x v hx

theorem SureInTurn.ofExcept_bind {y : Except ε α} (h : ∀ a, y = .ok a →
    SureInTurn rules ok (f a) w past post') :
    SureInTurn rules ok (MonadExcept.ofExcept y >>= f) w past post' := by
  cases y with
  | ok a => exact h a rfl
  | error e => exact trivial

/-- What questions of one sort keep of the world and of its past is kept by a routine that asks no
others. -/
theorem Asks.inTurn {sort : Q → Prop} {I : W → List (Event Answer W) → Prop}
    (h : Asks sort r.run)
    (hs : ∀ q v x v' past, sort q → I v past → rules q v x v' →
      ok past ⟨q, x, v, v'⟩ ∧ I v' (past ++ [⟨q, x, v, v'⟩])) (hw : I w past) :
    SureInTurn rules ok r w past fun _ => I := by
  refine SureOr.mono (h.sureOr (I := fun v => I v.1 v.2) ?_ hw) (fun _ _ hv => hv)
    fun _ _ _ => trivial
  rintro q v x _ hq hv ⟨v', hx, rfl⟩
  exact hs q v.1 x v' v.2 hq hv hx

end Errors

end Dualbank.Plan
