import Dualbank.Proofs.Footprint

namespace Dualbank

open Plan Routine

abbrev RecordEvent := Event Call.Answer (Option Phase)

namespace Call

/-- The recorded phase is the whole world; it is `none` as long as it cannot be read. -/
def recorded : Rules Answer (Option Phase)
  | readPhase, s, x, s' => s' = s ∧ ∀ p, x = .ok p → s = some p
  | writePhase p, _, .ok (), s' => s' = some p
  | writePhase _, s, .error _, s' => s' = s
  | _, s, _, s' => s' = s

def Spares : Call → Prop
  | writePhase _ => False
  | _ => True

theorem AboutFiles.spares {q : Call} (h : q.AboutFiles) : q.Spares := by
  cases q with
  | writePhase p => exact h
  | _ => exact trivial

theorem Spares.recorded_eq {q : Call} (h : q.Spares) {s s' : Option Phase} {x : q.Answer}
    (hx : recorded q s x s') : s' = s := by
  cases q with
  | readPhase => exact hx.1
  | writePhase p => exact h.elim
  | _ => exact hx

theorem recorded_readPhase (p : Phase) : recorded readPhase (some p) (.ok p) (some p) :=
  ⟨rfl, fun _ h => congrArg some (Except.ok.inj h)⟩

theorem exists_recorded (q : Call) (s : Option Phase) : ∃ x s', recorded q s x s' := by
  obtain ⟨x⟩ := q.nonempty_answer
  cases q with
  | readPhase => exact ⟨.error (.notAllowed .idle), s, rfl, fun p h => by cases h⟩
  | writePhase p => exact ⟨.ok (), some p, rfl⟩
  | _ => exact ⟨x, s, rfl⟩

def recordedIf (sort : Event Answer (Option Phase) → Prop) : Rules Answer (Option Phase) :=
  fun q s x s' => recorded q s x s' ∧ sort ⟨q, x, s, s'⟩

end Call

theorem WorkDir.steps_forM_remove (d : WorkDir) (s : Option Phase) (es : List Entry) :
    Steps Call.recorded (es.forM d.remove).run s (es.map fun e => ⟨.remove e, .ok (), s, s⟩)
      (.done (.ok ())) s := by
  induction es with
  | nil => exact .refl _ _
  | cons e es ih =>
      have hremove : Call.recorded (.remove e) s (.ok ()) s := rfl
      exact .ask hremove ih

/-- What never writes to the record leaves it as it is, in any world that keeps it. -/
theorem sureOr_of_spares {α : Type} {rules : Rules Call.Answer (Option Phase)} {r : Routine α}
    {ok : Event Call.Answer (Option Phase) → Prop} {s : Option Phase} (h : Asks Call.Spares r.run)
    (hr : ∀ q s x s', rules q s x s' → Call.recorded q s x s')
    (hok : ∀ q x, q.Spares → ok ⟨q, x, s, s⟩) :
    SureOr rules ok r s (fun _ s' => s' = s) fun _ s' => s' = s := by
  refine h.sureOr (I := (· = s)) ?_ rfl
  rintro q v x v' hq rfl hx
  obtain rfl := hq.recorded_eq (hr _ _ _ _ hx)
  exact ⟨hok q x hq, rfl⟩

theorem sureOr_readPhase_bind {W α : Type} {rules : Rules Call.Answer W}
    {ok : Event Call.Answer W → Prop} {w : W} {P : Phase → Prop} {f : Phase → Routine α}
    {post : α → W → Prop} {fail : Error → W → Prop}
    (hread : ∀ x w', rules .readPhase w x w' → w' = w ∧ ∀ p, x = .ok p → P p)
    (hok : ∀ x, ok ⟨.readPhase, x, w, w⟩) (hf : ∀ p, P p → SureOr rules ok (f p) w post fail)
    (hfail : ∀ e, fail e w) : SureOr rules ok (readPhase >>= f) w post fail := by
  apply sureOr_bind.mpr
  apply sureOr_bind.mpr
  intro x w' hx
  obtain ⟨rfl, hp⟩ := hread x w' hx
  refine ⟨hok x, ?_⟩
  cases x with
  | ok p => exact hf p (hp p rfl)
  | error e => exact hfail e

end Dualbank
