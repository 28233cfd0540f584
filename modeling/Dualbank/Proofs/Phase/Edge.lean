import Dualbank.Proofs.Phase.Recorded

namespace Dualbank

open Plan Routine
open Call (recorded Spares AboutFiles)

namespace Operation

def updated? : Operation → Option Target
  | update o | updateIfNewer o => o.target?
  | _ => none

def Commits (op : Operation) : Prop := op = commit ∨ op = allowAutomatic

end Operation

open Phase

inductive Edge : Operation → Phase → Phase → Prop
  | written {op : Operation} {t : Target} (h : op.updated? = some t) : Edge op idle (written t)
  | partlyWritten {op : Operation} (h : op.updated? = some .both) :
      Edge op idle (written .firmware)
  | refused {op : Operation} {t : Target} {i : Image} (h : op.updated? = some t)
      (hi : i ∈ t.images) : Edge op idle (failed i)
  | slotSwitched (t : Target) : Edge (.switchSlot t) idle (switched t)
  | slotPartlySwitched : Edge (.switchSlot .both) idle (switched .firmware)
  | rolledBack (t : Target) : Edge (.rollback t) (written t) (switched t)
  | partlyRolledBack : Edge (.rollback .both) (written .both) (switched .firmware)
  | confirmed {op : Operation} (h : op.Commits) (t : Target) : Edge op (written t) idle
  | reverted {op : Operation} (h : op.Commits) (t : Target) : Edge op (switched t) (reverted t)
  | settled {op : Operation} (h : op.Commits) (t : Target) : Edge op (reverted t) idle
  | forgiven {op : Operation} (h : op.Commits) (i : Image) : Edge op (failed i) idle
  | bootForgiven {op : Operation} (h : op.Commits) : Edge op bootFailed idle
  | applied (t : Target) : Edge .apply (switched t) (reverted t)
  /-- The reboot failed, and the switch is pending as before. -/
  | restored (t : Target) : Edge .apply (reverted t) (switched t)

/-- An accepted write moves the record along `E`; other events are not looked at. -/
def Follows (E : Phase → Phase → Prop) : Event Call.Answer (Option Phase) → Prop
  | ⟨.writePhase p', .ok (), s, s'⟩ => ∃ p, s = some p ∧ s' = some p' ∧ E p p'
  | _ => True

theorem Follows.cases {E : Phase → Phase → Prop} {e : Event Call.Answer (Option Phase)}
    (h : Follows E e) (hx : recorded e.question e.before e.answer e.after) :
    e.after = e.before ∨ ∃ p p', E p p' ∧ e = ⟨.writePhase p', .ok (), some p, some p'⟩ := by
  obtain ⟨q, x, s, s'⟩ := e
  cases q with
  | writePhase p' =>
      cases x with
      | ok u =>
          obtain ⟨p, rfl, rfl, hE⟩ := h
          exact .inr ⟨p, p', hE, rfl⟩
      | error e => exact .inl hx
  | readPhase => exact .inl hx.1
  | _ => exact .inl hx

theorem Follows.keeps {α : Type} {E : Phase → Phase → Prop} {p : Phase} {s' : Option Phase}
    {r q : Plan Call.Answer α} {es : List (Event Call.Answer (Option Phase))}
    (hes : ∀ e ∈ es, Follows E e) (hp : ∀ p', ¬E p p') (hs : Steps recorded r (some p) es q s') :
    s' = some p ∧ ∀ e ∈ es, e.before = some p ∧ e.after = some p := by
  refine hs.invariant (I := (· = some p)) ?_ rfl
  intro e he hb
  rcases (hes e he).cases (hs.rules_of_mem e he) with ha | ⟨p₀, p', hE, rfl⟩
  · exact ha.trans hb
  · obtain rfl := Option.some.inj hb
    exact absurd hE (hp p')

def Obeys {α : Type} (E : Phase → Phase → Prop) (r : Routine α) (s : Option Phase) : Prop :=
  SureOr recorded (Follows E) r s (fun _ _ => True) fun _ _ => True

variable {E : Phase → Phase → Prop} {s : Option Phase} {p p' : Phase} {α β : Type}

theorem Call.Spares.follows {q : Call} (h : q.Spares) {x : q.Answer} {s' : Option Phase} :
    Follows E ⟨q, x, s, s'⟩ := by
  cases q with
  | writePhase p => exact h.elim
  | _ => exact trivial

namespace Obeys

variable {r : Routine α} {f : α → Routine β}

theorem of_sureOr {post : α → Option Phase → Prop} {fail : Error → Option Phase → Prop}
    (h : SureOr recorded (Follows E) r s post fail) : Obeys E r s :=
  h.mono (fun _ _ _ => trivial) fun _ _ _ => trivial

theorem sureOr_bind {post : α → Option Phase → Prop} {fail : Error → Option Phase → Prop}
    (h : SureOr recorded (Follows E) r s post fail) (hf : ∀ a s', post a s' → Obeys E (f a) s') :
    Obeys E (r >>= f) s :=
  (h.mono (fun _ _ hp => hp) fun _ _ _ => trivial).bind hf

theorem bind (h : Obeys E r s) (hf : ∀ a s', Obeys E (f a) s') : Obeys E (r >>= f) s :=
  sureOr_bind h fun a s' _ => hf a s'

theorem of_spares (h : Asks Spares r.run) : Obeys E r s :=
  of_sureOr (sureOr_of_spares h (fun _ _ _ _ hx => hx) fun _ _ hq => hq.follows)

theorem spares_bind (h : Asks Spares r.run) (hf : ∀ a, Obeys E (f a) s) :
    Obeys E (r >>= f) s := by
  refine sureOr_bind (sureOr_of_spares h (fun _ _ _ _ hx => hx) fun _ _ hq => hq.follows) ?_
  rintro a _ rfl
  exact hf a

theorem files_bind (h : Asks AboutFiles r.run) (hf : ∀ a, Obeys E (f a) s) :
    Obeys E (r >>= f) s :=
  spares_bind (h.mono fun _ => AboutFiles.spares) hf

theorem readPhase_bind {f : Phase → Routine β} (hf : ∀ p, s = some p → Obeys E (f p) s) :
    Obeys E (readPhase >>= f) s :=
  sureOr_readPhase_bind (fun _ _ h => h) (fun _ => trivial) hf fun _ => trivial

theorem ask_writePhase_bind {f : Except Error Unit → Routine β} (h : E p p')
    (hok : Obeys E (f (.ok ())) (some p')) (herror : ∀ e, Obeys E (f (.error e)) (some p)) :
    Obeys E (ask (.writePhase p') >>= f) (some p) := by
  apply Plan.sureOr_bind.mpr
  intro x s' hx
  cases x with
  | ok u =>
      obtain rfl : s' = some p' := hx
      exact ⟨⟨p, rfl, rfl, h⟩, hok⟩
  | error e =>
      obtain rfl : s' = some p := hx
      exact ⟨trivial, herror e⟩

theorem writePhase_bind {f : Unit → Routine β} (h : E p p') (hf : Obeys E (f ()) (some p')) :
    Obeys E (writePhase p' >>= f) (some p) := by
  rw [writePhase, LawfulMonad.bind_assoc]
  exact ask_writePhase_bind h hf fun _ => trivial

theorem writePhase (h : E p p') : Obeys E (Routine.writePhase p') (some p) :=
  ask_writePhase_bind h trivial fun _ => trivial

end Obeys

end Dualbank
