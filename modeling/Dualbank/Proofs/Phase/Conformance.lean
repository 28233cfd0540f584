import Dualbank.Proofs.Phase.Obedience

namespace Dualbank

open Plan Routine Phase
open Call (recorded)

def Takes (d : WorkDir) (op : Operation) (p p' : Phase) : Prop :=
  ∃ s log s', Run recorded d s log s' ∧
    ∃ es, (op, es) ∈ log ∧ ⟨.writePhase p', .ok (), some p, some p'⟩ ∈ es

variable {s s' : Option Phase} {p p' : Phase} {α β : Type}

def May (r : Routine α) (s : Option Phase) (p p' : Phase) : Prop :=
  ∃ es q s', Steps recorded r.run s es q s' ∧ ⟨.writePhase p', .ok (), some p, some p'⟩ ∈ es

def Ends (r : Routine α) (s : Option Phase) (a : α) (s' : Option Phase) : Prop :=
  ∃ es, Steps recorded r.run s es (.done (.ok a)) s'

theorem May.takes {d : WorkDir} {op : Operation} (h : May (op.routine d) s p p') :
    Takes d op p p' := by
  obtain ⟨es, q, s', hs, hmem⟩ := h
  exact ⟨s, [(op, es)], s', .cons hs (.nil s'), es, List.mem_singleton_self _, hmem⟩

namespace Ends

theorem pure (a : α) : Ends (pure a) s a s := ⟨[], .refl _ _⟩

theorem bind {r : Routine α} {f : α → Routine β} {a : α} {b : β} {s'' : Option Phase}
    (h : Ends r s a s') (hf : Ends (f a) s' b s'') : Ends (r >>= f) s b s'' := by
  obtain ⟨es, hs⟩ := h
  obtain ⟨fs, hs'⟩ := hf
  exact ⟨es ++ fs, hs.bind_ok hs'⟩

theorem ask {q : Call} {x : q.Answer} (h : recorded q s x s') : Ends (ask q) s x s' :=
  ⟨_, .ask h (.refl _ _)⟩

theorem readPhase (p : Phase) : Ends readPhase (some p) p (some p) :=
  bind (ask (Call.recorded_readPhase p)) (pure p)

theorem writePhase (p : Phase) : Ends (writePhase p) s () (some p) :=
  bind (ask (q := .writePhase p) (x := .ok ()) rfl) (pure ())

theorem forM_remove (d : WorkDir) (es : List Entry) : Ends (es.forM d.remove) s () s :=
  ⟨_, d.steps_forM_remove s es⟩

end Ends

namespace May

variable {r : Routine α} {f : α → Routine β}

theorem bind_left (h : May r s p p') : May (r >>= f) s p p' := by
  obtain ⟨es, q, s', hs, hmem⟩ := h
  exact ⟨es, _, s', hs.bind _, hmem⟩

theorem bind {a : α} (h : Ends r s a s') (hf : May (f a) s' p p') : May (r >>= f) s p p' := by
  obtain ⟨es, hs⟩ := h
  obtain ⟨fs, q, s'', hs', hmem⟩ := hf
  exact ⟨es ++ fs, q, s'', hs.bind_ok hs', List.mem_append_right _ hmem⟩

theorem ask_writePhase : May (ask (.writePhase p')) (some p) p p' := by
  have h : recorded (.writePhase p') (some p) (.ok ()) (some p') := rfl
  exact ⟨_, _, _, .ask h (.refl _ _), List.mem_singleton_self _⟩

theorem writePhase : May (writePhase p') (some p) p p' := ask_writePhase.bind_left

end May

namespace Update

theorem giveUp_may {i : Image} {before : Option Image} {e : EngineError}
    (h : Phase.afterFailure? i before e = some p') : May (giveUp i before e) (some p) p p' := by
  unfold giveUp
  rw [h]
  exact May.ask_writePhase.bind_left

theorem writeParts_ends (parts : List (Image × Package)) (before : Option Image) :
    Ends (writeParts before parts) s () s := by
  induction parts generalizing before with
  | nil => exact Ends.pure ()
  | cons part rest ih =>
      exact (Ends.ask (q := .install part.1 part.2) (x := .ok ()) rfl).bind (ih (some part.1))

theorem writeParts_may_refuse {parts : List (Image × Package)} {x : Image × Package}
    (hx : x ∈ parts) (before : Option Image) :
    May (writeParts before parts) (some p) p (failed x.1) := by
  induction parts generalizing before with
  | nil => cases hx
  | cons part rest ih =>
      rcases List.mem_cons.mp hx with rfl | hx
      · exact .bind (.ask (q := .install x.1 x.2) (x := .error (.rejected (.only x.1) 1 "")) rfl)
          (giveUp_may rfl)
      · exact .bind (.ask (q := .install part.1 part.2) (x := .ok ()) rfl)
          (ih hx (some part.1))

/-- An image that was written while another was still to come may be all that was written. -/
theorem writeParts_may_stop {parts : List (Image × Package)} {before : Option Image} {w : Image}
    (hw : w ∈ (before.toList ++ parts.map Prod.fst).dropLast) :
    May (writeParts before parts) (some p) p (written (.only w)) := by
  induction parts generalizing before with
  | nil => cases before <;> simp at hw
  | cons part rest ih =>
      rw [List.map_cons, List.dropLast_append_of_ne_nil (List.cons_ne_nil _ _)] at hw
      rcases List.mem_append.mp hw with hb | hr
      · obtain rfl := Option.mem_toList.mp hb
        exact .bind (.ask (q := .install part.1 part.2) (x := .error .busy) rfl) (giveUp_may rfl)
      · exact .bind (.ask (q := .install part.1 part.2) (x := .ok ()) rfl)
          (@ih (some part.1) hr)

theorem update_may {o : Offer} {t : Target} (h : o.target? = some t)
    (hm : May (writeParts none o.parts) (some idle) idle p') :
    May (update o) (some idle) idle p' := by
  unfold update
  rw [h]
  exact .bind (.readPhase idle) hm.bind_left

theorem update_may_write {o : Offer} {t : Target} (h : o.target? = some t) :
    May (update o) (some idle) idle (written t) := by
  unfold update
  rw [h]
  apply May.bind (.readPhase idle)
  exact .bind (writeParts_ends o.parts none) .writePhase

theorem switchImages_ends (is : List Image) (before : Option Image) :
    Ends (switchImages before is) s () s := by
  induction is generalizing before with
  | nil => exact Ends.pure ()
  | cons i rest ih => exact (Ends.ask (q := .switch i) (x := .ok ()) rfl).bind (ih (some i))

theorem recordSwitch_may (t : Target) : May (recordSwitch t) (some p) p (switched t) :=
  May.writePhase.bind_left

theorem switchImages_may_stop {is : List Image} {before : Option Image} {w : Image}
    (hw : w ∈ (before.toList ++ is).dropLast) :
    May (switchImages before is) (some p) p (switched (.only w)) := by
  induction is generalizing before with
  | nil => cases before <;> simp at hw
  | cons i rest ih =>
      rw [List.dropLast_append_of_ne_nil (List.cons_ne_nil _ _)] at hw
      rcases List.mem_append.mp hw with hb | hr
      · obtain rfl := Option.mem_toList.mp hb
        exact .bind (.ask (q := .switch i) (x := .error .busy) rfl) (recordSwitch_may _).bind_left
      · exact .bind (.ask (q := .switch i) (x := .ok ()) rfl) (@ih (some i) hr)

theorem switchTarget_may (t : Target) : May (switchTarget t) (some p) p (switched t) :=
  .bind (switchImages_ends t.images none) (recordSwitch_may t)

theorem switchTarget_may_stop : May (switchTarget .both) (some p) p (switched .firmware) :=
  (switchImages_may_stop (List.mem_singleton_self _)).bind_left

theorem rollback_may {t : Target} (hm : May (switchTarget t) (some (written t)) (written t) p') :
    May (rollback t) (some (written t)) (written t) p' := by
  apply May.bind (.readPhase (written t))
  rw [if_pos rfl]
  exact hm

theorem commit_may (d : WorkDir) (hp : p ≠ idle) :
    May (commit d) (some p) p p.afterCommit := by
  have hwrite : May (do writePhase p.afterCommit; return CommitOutcome.committed)
      (some p) p p.afterCommit := May.writePhase.bind_left
  have hend : May
      (do
        if p.afterCommit.isIdle then d.clear
        writePhase p.afterCommit
        return CommitOutcome.committed) (some p) p p.afterCommit := by
    dsimp only
    split
    · exact .bind (.forM_remove d Entry.all) hwrite
    · exact hwrite
  apply May.bind (.readPhase p)
  rw [if_neg fun h => hp (isIdle_iff.mp h)]
  dsimp only
  split
  · exact .bind (.bind (.ask (q := .isRebooted _) (x := .ok true) rfl) (.pure true)) hend
  · exact hend

end Update

namespace Staging

theorem applyRollback_may_apply (d : WorkDir) (t : Target) :
    May (applyRollback d) (some (switched t)) (switched t) (reverted t) :=
  .bind (.readPhase (switched t)) May.writePhase.bind_left

theorem applyRollback_may_restore (d : WorkDir) (t : Target) :
    May (applyRollback d) (some (switched t)) (reverted t) (switched t) := by
  have hreboot : Ends reboot (some (reverted t)) (.rebootFailed Errno.inputOutput)
      (some (reverted t)) :=
    .bind (.ask (q := .reboot) (x := .error .noCommand) rfl) (.pure _)
  have hrestore : May (discard (ask (.writePhase (switched t)))) (some (reverted t))
      (reverted t) (switched t) := by
    have h : recorded (.writePhase (switched t)) (some (reverted t)) (.ok ())
      (some (switched t)) := rfl
    exact ⟨_, _, _, .ask h (.refl _ _), List.mem_singleton_self _⟩
  apply May.bind (.readPhase (switched t))
  apply May.bind (.writePhase (reverted t))
  exact .bind hreboot hrestore.bind_left

theorem apply_may (d : WorkDir) (hm : May (applyRollback d) s p p') : May (apply d) s p p' :=
  .bind (.bind (.ask (q := .has .rollback) (x := .ok true) rfl) (.pure true)) hm

end Staging

theorem Operation.exists_offer {op : Operation} {t : Target} (h : op.updated? = some t) :
    ∃ o : Offer, o.target? = some t := by
  cases op with
  | update o | updateIfNewer o => exact ⟨o, h⟩
  | _ => cases h

/-- Every edge is taken, if not by the operation at hand then by another that has it. -/
theorem Edge.taken {op : Operation} (d : WorkDir) (h : Edge op p p') :
    ∃ op', Edge op' p p' ∧ Takes d op' p p' := by
  have hcommit {p : Phase} (hp : p ≠ idle) :
      ∃ op', Edge op' p p.afterCommit ∧ Takes d op' p p.afterCommit :=
    ⟨.commit, Update.afterCommit_edge (.inl rfl) hp, May.takes (Update.commit_may d hp)⟩
  cases h with
  | written h =>
      obtain ⟨o, ho⟩ := Operation.exists_offer h
      exact ⟨.update o, .written ho, May.takes (Update.update_may_write ho)⟩
  | partlyWritten h =>
      obtain ⟨o, ho⟩ := Operation.exists_offer h
      have hw : Image.firmware ∈
          ((none : Option Image).toList ++ o.parts.map Prod.fst).dropLast := by
        rw [Offer.map_fst_parts ho]
        exact List.mem_singleton_self _
      exact ⟨.update o, .partlyWritten ho,
        May.takes (Update.update_may ho (Update.writeParts_may_stop hw))⟩
  | refused h hi =>
      obtain ⟨o, ho⟩ := Operation.exists_offer h
      have hmem := hi
      rw [← Offer.map_fst_parts ho] at hmem
      obtain ⟨x, hx, rfl⟩ := List.mem_map.mp hmem
      exact ⟨.update o, .refused ho hi,
        May.takes (Update.update_may ho (Update.writeParts_may_refuse hx none))⟩
  | slotSwitched t =>
      exact ⟨_, .slotSwitched t, May.takes (.bind (.readPhase idle) (Update.switchTarget_may t))⟩
  | slotPartlySwitched =>
      exact ⟨_, .slotPartlySwitched,
        May.takes (.bind (.readPhase idle) Update.switchTarget_may_stop)⟩
  | rolledBack t =>
      exact ⟨_, .rolledBack t, May.takes (Update.rollback_may (Update.switchTarget_may t))⟩
  | partlyRolledBack =>
      exact ⟨_, .partlyRolledBack, May.takes (Update.rollback_may Update.switchTarget_may_stop)⟩
  | confirmed _ t => exact hcommit (p := Phase.written t) Phase.noConfusion
  | reverted _ t => exact hcommit (p := switched t) Phase.noConfusion
  | settled _ t => exact hcommit (p := Phase.reverted t) Phase.noConfusion
  | forgiven _ i => exact hcommit (p := failed i) Phase.noConfusion
  | bootForgiven => exact hcommit (p := bootFailed) Phase.noConfusion
  | applied t =>
      exact ⟨_, .applied t,
        May.takes (Staging.apply_may d (Staging.applyRollback_may_apply d t))⟩
  | restored t =>
      exact ⟨_, .restored t,
        May.takes (Staging.apply_may d (Staging.applyRollback_may_restore d t))⟩

/-- In every run, whatever the operations are given and answered, and wherever they are cut, each
accepted write moves the record along an edge of its operation. The edges are no more than that:
each is taken in some run. -/
theorem accepted_writes_take_edges (d : WorkDir) :
    (∀ s log s', Run recorded d s log s' → ∀ op es, (op, es) ∈ log →
      ∀ p' b a, ⟨.writePhase p', .ok (), b, a⟩ ∈ es →
        ∃ p, b = some p ∧ a = some p' ∧ Edge op p p') ∧
    ∀ op p p', Edge op p p' → ∃ op', Edge op' p p' ∧ Takes d op' p p' := by
  refine ⟨?_, fun op p p' h => h.taken d⟩
  intro s log s' hrun op es hop p' b a he
  have hsure (op : Operation) (s : Option Phase) :
      Sure recorded (Follows (Edge op)) (op.routine d).run s fun _ _ => True :=
    Sure.mono (op.obeys d) fun _ _ _ => trivial
  exact hrun.forall_events hsure (op, es) hop _ he

end Dualbank
