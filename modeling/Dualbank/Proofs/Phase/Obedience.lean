import Dualbank.Proofs.Phase.Edge

namespace Dualbank

open Plan Routine Phase
open Call (recorded Spares AboutFiles)

variable {E : Phase → Phase → Prop} {s : Option Phase} {p : Phase}

namespace Target

theorem mem_dropLast_images {t : Target} {i : Image} (h : i ∈ t.images.dropLast) :
    t = .both ∧ i = .firmware := by
  cases t with
  | only j => simp [images] at h
  | both => exact ⟨rfl, by simpa [images] using h⟩

end Target

namespace Update

theorem giveUp_follows {i : Image} {before : Option Image} {e : EngineError}
    (hf : E p (failed i)) (hw : ∀ w, before = some w → E p (written (.only w))) :
    SureOr recorded (Follows E) (giveUp i before e) (some p) (fun _ _ => False)
      fun _ _ => True := by
  unfold giveUp
  dsimp only
  split
  · rename_i p' hp'
    have hE : E p p' := by
      cases e with
      | rejected => cases hp'; exact hf
      | busy | system =>
          obtain ⟨w, hb, rfl⟩ := Option.map_eq_some_iff.mp hp'
          exact hw w hb
    apply sureOr_bind.mpr
    intro x s' hx
    cases x with
    | ok u => exact ⟨⟨p, rfl, hx, hE⟩, trivial⟩
    | error e => exact ⟨trivial, fun _ _ _ => ⟨trivial, fun _ _ _ => ⟨trivial, trivial⟩⟩⟩
  · exact trivial

theorem writeParts_follows {parts : List (Image × Package)} {before : Option Image}
    (hf : ∀ x ∈ parts, E p (failed x.1))
    (hw : ∀ w ∈ (before.toList ++ parts.map Prod.fst).dropLast, E p (written (.only w))) :
    SureOr recorded (Follows E) (writeParts before parts) (some p) (fun _ s' => s' = some p)
      fun _ _ => True := by
  induction parts generalizing before with
  | nil => exact rfl
  | cons part rest ih =>
      obtain ⟨i, package⟩ := part
      have hne : List.map Prod.fst ((i, package) :: rest) ≠ [] := by simp
      rw [List.dropLast_append_of_ne_nil hne] at hw
      rw [writeParts]
      apply sureOr_bind.mpr
      intro x s' hx
      obtain rfl : s' = some p := hx
      refine ⟨trivial, ?_⟩
      cases x with
      | ok u =>
          apply ih (fun y hy => hf y (List.mem_cons_of_mem _ hy))
          intro w hmem
          exact hw w (List.mem_append_right _ hmem)
      | error e =>
          refine (giveUp_follows (hf (i, package) List.mem_cons_self) ?_).mono
            (fun _ _ h => h.elim) fun _ _ h => h
          rintro w rfl
          exact hw w (List.mem_append_left _ (by simp))

theorem update_obeys {op : Operation} {o : Offer} (h : op.updated? = o.target?) :
    Obeys (Edge op) (update o) s := by
  unfold update
  split
  · exact trivial
  · rename_i t ht
    rw [ht] at h
    apply Obeys.readPhase_bind
    rintro p rfl
    split
    · rename_i hidle
      obtain rfl := isIdle_iff.mp hidle
      have hparts := Offer.map_fst_parts ht
      have hf : ∀ x ∈ o.parts, Edge op idle (failed x.1) := by
        intro x hx
        exact .refused h (hparts ▸ List.mem_map_of_mem hx)
      have hw : ∀ w ∈ ((none : Option Image).toList ++ o.parts.map Prod.fst).dropLast,
          Edge op idle (written (.only w)) := by
        intro w hw
        rw [Option.toList_none, List.nil_append, hparts] at hw
        obtain ⟨rfl, rfl⟩ := Target.mem_dropLast_images hw
        exact .partlyWritten h
      apply Obeys.sureOr_bind (writeParts_follows hf hw)
      rintro u _ rfl
      exact Obeys.writePhase (.written h)
    · exact trivial

theorem updateIfNewer_obeys (o : Offer) :
    Obeys (Edge (.updateIfNewer o)) (updateIfNewer o) s := by
  apply Obeys.spares_bind (offersNewer_asks fun _ _ => trivial)
  intro newer
  split
  · exact (update_obeys rfl).bind fun _ _ => trivial
  · exact trivial

theorem afterCommit_edge {op : Operation} (h : op.Commits) (hp : p ≠ idle) :
    Edge op p p.afterCommit := by
  cases p with
  | idle => exact absurd rfl hp
  | written t => exact .confirmed h t
  | failed i => exact .forgiven h i
  | bootFailed => exact .bootForgiven h
  | switched t => exact .reverted h t
  | reverted t => exact .settled h t

theorem commit_obeys {op : Operation} (h : op.Commits) (d : WorkDir) :
    Obeys (Edge op) (commit d) s := by
  apply Obeys.readPhase_bind
  rintro p rfl
  split
  · exact trivial
  · rename_i hidle
    have hE : Edge op p p.afterCommit := afterCommit_edge h fun hp => hidle (isIdle_iff.mpr hp)
    have hwrite : Obeys (Edge op)
        (do writePhase p.afterCommit; return CommitOutcome.committed) (some p) :=
      Obeys.writePhase_bind hE trivial
    have hend : Obeys (Edge op)
        (do
          if p.afterCommit.isIdle then d.clear
          writePhase p.afterCommit
          return CommitOutcome.committed) (some p) := by
      split
      · exact Obeys.files_bind (WorkDir.clear_asks fun _ => trivial) fun _ => hwrite
      · exact hwrite
    dsimp only
    split
    · apply Obeys.spares_bind (isRebooted_asks fun _ => trivial)
      intro b
      split
      · exact trivial
      · exact hend
    · exact hend

/-- Each forced commit reads the record anew, so the induction asks nothing of it. -/
theorem settle_obeys {op : Operation} (h : op.Commits) (d : WorkDir) (n : Nat) :
    Obeys (Edge op) (settle d n) s := by
  induction n generalizing s with
  | zero =>
      apply Obeys.readPhase_bind
      intro p _
      split <;> exact trivial
  | succ n ih =>
      apply Obeys.readPhase_bind
      intro p _
      split
      · exact trivial
      · apply (commit_obeys h d).bind
        intro outcome s'
        split
        · exact trivial
        · exact trivial
        · split
          · exact trivial
          · exact ih

theorem recordSwitch_obeys {t : Target} (h : E p (switched t)) :
    Obeys E (recordSwitch t) (some p) := by
  apply Obeys.writePhase_bind h
  apply Obeys.files_bind (WorkDir.create_asks trivial)
  intro x
  split <;> exact trivial

theorem switchImages_follows {is : List Image} {before : Option Image}
    (hw : ∀ w ∈ (before.toList ++ is).dropLast, E p (switched (.only w))) :
    SureOr recorded (Follows E) (switchImages before is) (some p) (fun _ s' => s' = some p)
      fun _ _ => True := by
  induction is generalizing before with
  | nil => exact rfl
  | cons i rest ih =>
      rw [List.dropLast_append_of_ne_nil (List.cons_ne_nil i rest)] at hw
      rw [switchImages]
      apply sureOr_bind.mpr
      intro x s' hx
      obtain rfl : s' = some p := hx
      refine ⟨trivial, ?_⟩
      cases x with
      | ok u =>
          apply ih
          intro w hmem
          exact hw w (List.mem_append_right _ hmem)
      | error e =>
          cases before with
          | none => exact trivial
          | some w =>
              have h : Obeys E (recordSwitch (.only w)) (some p) :=
                recordSwitch_obeys (hw w (List.mem_append_left _ (by simp)))
              exact SureOr.bind h fun _ _ _ => trivial

theorem switchTarget_obeys {t : Target} (h : E p (switched t))
    (hboth : t = .both → E p (switched .firmware)) : Obeys E (switchTarget t) (some p) := by
  have hw : ∀ w ∈ ((none : Option Image).toList ++ t.images).dropLast,
      E p (switched (.only w)) := by
    intro w hw
    rw [Option.toList_none, List.nil_append] at hw
    obtain ⟨ht, rfl⟩ := Target.mem_dropLast_images hw
    exact hboth ht
  apply Obeys.sureOr_bind (switchImages_follows hw)
  rintro u _ rfl
  exact recordSwitch_obeys h

theorem rollback_obeys (t : Target) : Obeys (Edge (.rollback t)) (rollback t) s := by
  apply Obeys.readPhase_bind
  rintro p rfl
  split
  · rename_i hp
    subst hp
    apply switchTarget_obeys (.rolledBack t)
    rintro rfl
    exact .partlyRolledBack
  · exact trivial

theorem switchSlot_obeys (t : Target) : Obeys (Edge (.switchSlot t)) (switchSlot t) s := by
  apply Obeys.readPhase_bind
  rintro p rfl
  split
  · rename_i hidle
    obtain rfl := isIdle_iff.mp hidle
    apply switchTarget_obeys (.slotSwitched t)
    rintro rfl
    exact .slotPartlySwitched
  · exact trivial

end Update

namespace Staging

/-- The phase is taken back from where the demotion left it. -/
theorem applyRollback_obeys (d : WorkDir) : Obeys (Edge .apply) (applyRollback d) s := by
  have hremove (outcome : ApplyOutcome) (s : Option Phase) :
      Obeys (Edge .apply) (do d.remove (.marker .rollback); return outcome) s :=
    Obeys.files_bind (WorkDir.remove_asks trivial) fun _ => trivial
  apply Obeys.readPhase_bind
  rintro p rfl
  cases p with
  | switched t =>
      apply Obeys.writePhase_bind (.applied t)
      apply Obeys.spares_bind (reboot_asks trivial)
      intro outcome
      split
      · have hrestore : Obeys (Edge .apply) (discard (ask (.writePhase (switched t))))
            (some (.reverted t)) := by
          intro x s' hx
          cases x with
          | ok u => exact ⟨⟨_, rfl, hx, .restored t⟩, trivial⟩
          | error e => exact ⟨trivial, trivial⟩
        exact hrestore.bind fun _ _ => trivial
      · exact hremove _ _
  | idle | written | failed | bootFailed | reverted =>
      apply Obeys.spares_bind (reboot_asks trivial)
      intro outcome
      split
      · exact trivial
      · exact hremove _ _

theorem apply_obeys (d : WorkDir) : Obeys (Edge .apply) (apply d) s := by
  have hrequest : Obeys (Edge .apply) apply.request s := by
    apply Obeys.files_bind (WorkDir.create_asks trivial)
    intro x
    split <;> exact trivial
  apply Obeys.files_bind (WorkDir.has_asks trivial)
  intro rollback
  split
  · exact applyRollback_obeys d
  · apply Obeys.files_bind (WorkDir.has_asks trivial)
    intro installed
    split
    · exact trivial
    · apply Obeys.files_bind (WorkDir.has_asks trivial)
      intro requested
      split
      · exact hrequest
      · apply Obeys.files_bind (WorkDir.has_asks trivial)
        intro downloaded
        split
        · exact hrequest
        · exact Obeys.of_spares (reboot_asks trivial)

end Staging

theorem Operation.obeys (op : Operation) (d : WorkDir) : Obeys (Edge op) (op.routine d) s := by
  cases op with
  | update o => exact Update.update_obeys rfl
  | updateIfNewer o => exact Update.updateIfNewer_obeys o
  | allowAutomatic => exact Update.settle_obeys (.inr rfl) d _
  | commit => exact Update.commit_obeys (.inl rfl) d
  | rollback t => exact Update.rollback_obeys t
  | switchSlot t => exact Update.switchSlot_obeys t
  | download => exact Obeys.of_spares (Staging.download_asks (fun _ => trivial) trivial)
  | progress n =>
      exact Obeys.of_spares (Staging.progress_asks trivial (fun _ => trivial) trivial
        fun _ => trivial)
  | install => exact Obeys.of_spares (Staging.install_asks trivial trivial trivial)
  | apply => exact Staging.apply_obeys d

theorem Operation.follows {op : Operation} {d : WorkDir} {s' : Option Phase}
    {es : List (Event Call.Answer (Option Phase))}
    {q : Plan Call.Answer (Except Error op.Outcome)}
    (hs : Steps recorded (op.routine d).run s es q s') : ∀ e ∈ es, Follows (Edge op) e :=
  (Sure.steps (op.obeys d) hs).1

end Dualbank
