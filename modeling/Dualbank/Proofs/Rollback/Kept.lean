import Dualbank.Proofs.Phase.Recorded

namespace Dualbank

open Plan Routine Phase

structure Kept where
  phase : Option Phase
  marker : Bool
  deriving DecidableEq

def Phase.Resolving (p : Phase) : Prop := ∃ t, p = switched t ∨ p = reverted t

namespace Kept

def Resolving (k : Kept) : Prop := ∃ p, k.phase = some p ∧ p.Resolving

/-- The marker is there only while a rollback or a switch of banks is under way. -/
def Sound (k : Kept) : Prop := k.marker = true → k.Resolving

end Kept

namespace Call

def kept : Rules Answer Kept
  | readPhase, k, x, k' => k' = k ∧ ∀ p, x = .ok p → k.phase = some p
  | writePhase p, k, x, k' => k' = { k with phase := some p } ∨ k' = k ∧ ∃ e, x = .error e
  | has .rollback, k, x, k' => k' = k ∧ ∀ b, x = .ok b → k.marker = b
  | create .rollback, k, x, k' => k' = { k with marker := true } ∨ k' = k ∧ ∃ e, x = .error e
  -- That there is nothing to remove is never said of a marker that is there.
  | remove (.marker .rollback), k, x, k' =>
    k' = { k with marker := false } ∨ k' = k ∧ ∃ e, x = .error e ∧ ¬e.isNotFound
  | _, k, _, k' => k' = k

def KeepsSound : Call → Prop
  | writePhase _ | create .rollback => False
  | _ => True

def KeepsResolving : Call → Prop
  | writePhase p => p.Resolving
  | _ => True

variable {q : Call} {k k' : Kept} {x : q.Answer}

theorem kept_readPhase {p : Phase} (hp : k.phase = some p) : kept readPhase k (.ok p) k := by
  refine ⟨rfl, fun p' h => ?_⟩
  obtain rfl := Except.ok.inj h
  exact hp

theorem kept_has : kept (has .rollback) k (.ok k.marker) k := ⟨rfl, fun _ => Except.ok.inj⟩

theorem kept_cases (h : kept q k x k') :
    k' = k ∨ (∃ p, q = writePhase p ∧ k' = { k with phase := some p }) ∨
      (q = create .rollback ∧ k' = { k with marker := true }) ∨
      (q = remove (.marker .rollback) ∧ k' = { k with marker := false }) := by
  cases q with
  | readPhase => exact .inl h.1
  | writePhase p =>
      rcases h with h | h
      · exact .inr (.inl ⟨p, rfl, h⟩)
      · exact .inl h.1
  | has m =>
      cases m with
      | rollback => exact .inl h.1
      | _ => exact .inl h
  | create m =>
      cases m with
      | rollback =>
          rcases h with h | h
          · exact .inr (.inr (.inl ⟨rfl, h⟩))
          · exact .inl h.1
      | _ => exact .inl h
  | remove e =>
      rcases e with (_ | _ | _ | _ | _) | _
      case marker.rollback =>
        rcases h with h | h
        · exact .inr (.inr (.inr ⟨rfl, h⟩))
        · exact .inl h.1
      all_goals exact .inl h
  | _ => exact .inl h

theorem kept_unmarked (h : kept q k x k') (hq : q ≠ create .rollback) (hk : k.marker = false) :
    k'.marker = false := by
  rcases kept_cases h with rfl | ⟨p, -, rfl⟩ | ⟨rfl, -⟩ | ⟨-, rfl⟩
  · exact hk
  · exact hk
  · exact absurd rfl hq
  · rfl

theorem kept_resolving (h : kept q k x k') (hq : q.KeepsResolving) (hk : k.Resolving) :
    k'.Resolving := by
  rcases kept_cases h with rfl | ⟨p, rfl, rfl⟩ | ⟨-, rfl⟩ | ⟨-, rfl⟩
  · exact hk
  · exact ⟨p, rfl, hq⟩
  · exact hk
  · exact hk

theorem kept_sound (h : kept q k x k') (hq : q.KeepsSound) (hk : k.Sound) : k'.Sound := by
  rcases kept_cases h with rfl | ⟨p, rfl, -⟩ | ⟨rfl, -⟩ | ⟨-, rfl⟩
  · exact hk
  · exact hq.elim
  · exact hq.elim
  · exact nofun

end Call

namespace Kept

variable {k : Kept} {p : Phase}

theorem Sound.of_unmarked (h : k.marker = false) : k.Sound := by
  intro hm
  rw [h] at hm
  cases hm

theorem Resolving.sound (h : k.Resolving) : k.Sound := fun _ => h

theorem Sound.unmarked_of_phase (h : k.Sound) (hp : k.phase = some p) (hr : ¬p.Resolving) :
    k.marker = false := by
  cases hm : k.marker with
  | false => rfl
  | true =>
      obtain ⟨p', hp', hr'⟩ := h hm
      obtain rfl := Option.some.inj (hp.symm.trans hp')
      exact absurd hr' hr

end Kept

def Throughout {α : Type} (I : Kept → Prop) (r : Routine α) (k : Kept) : Prop :=
  SureOr Call.kept (fun e => I e.before ∧ I e.after) r k (fun _ => I) fun _ => I

namespace Throughout

variable {α β : Type} {I J : Kept → Prop} {r : Routine α} {f : α → Routine β} {k : Kept}

theorem bind (h : Throughout I r k) (hf : ∀ a k', I k' → Throughout I (f a) k') :
    Throughout I (r >>= f) k := SureOr.bind h hf

theorem mono (h : Throughout I r k) (hIJ : ∀ k, I k → J k) : Throughout J r k := by
  have hevents : SureOr Call.kept (fun e => J e.before ∧ J e.after) r k (fun _ => I) fun _ => I :=
    Sure.mono_events h fun e he => ⟨hIJ _ he.1, hIJ _ he.2⟩
  exact SureOr.mono hevents (fun _ => hIJ) fun _ => hIJ

theorem of_asks {sort : Call → Prop} (h : Asks sort r.run)
    (hs : ∀ q v x v', sort q → I v → Call.kept q v x v' → I v') (hk : I k) :
    Throughout I r k := by
  refine h.sureOr ?_ hk
  intro q v x v' hq hv hx
  have hv' := hs q v x v' hq hv hx
  exact ⟨⟨hv, hv'⟩, hv'⟩

theorem unmarked (h : Asks (· ≠ .create .rollback) r.run) (hk : k.marker = false) :
    Throughout (·.marker = false) r k :=
  of_asks h (fun _ _ _ _ hq hv hx => Call.kept_unmarked hx hq hv) hk

theorem sound (h : Asks Call.KeepsSound r.run) (hk : k.Sound) : Throughout Kept.Sound r k :=
  of_asks h (fun _ _ _ _ hq hv hx => Call.kept_sound hx hq hv) hk

theorem resolving (h : Asks Call.KeepsResolving r.run) (hk : k.Resolving) :
    Throughout Kept.Resolving r k :=
  of_asks h (fun _ _ _ _ hq hv hx => Call.kept_resolving hx hq hv) hk

theorem readPhase_bind {f : Phase → Routine β} (hk : I k)
    (hf : ∀ p, k.phase = some p → Throughout I (f p) k) : Throughout I (readPhase >>= f) k :=
  sureOr_readPhase_bind (fun _ _ h => h) (fun _ => ⟨hk, hk⟩) hf fun _ => hk

theorem events {es : List (Event Call.Answer Kept)} {q : Plan Call.Answer (Except Error α)}
    {k' : Kept} (h : Throughout I r k) (hs : Steps Call.kept r.run k es q k') :
    ∀ e ∈ es, I e.before ∧ I e.after := (Sure.steps h hs).1

theorem world {es : List (Event Call.Answer Kept)} {q : Plan Call.Answer (Except Error α)}
    {k' : Kept} (h : Throughout I r k) (hs : Steps Call.kept r.run k es q k') (hk : I k) : I k' :=
  hs.world (fun e he => (h.events hs e he).2) hk

end Throughout

end Dualbank
