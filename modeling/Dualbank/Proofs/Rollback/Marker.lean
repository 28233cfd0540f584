import Dualbank.Proofs.Rollback.Kept

namespace Dualbank

open Plan Routine Phase
open Call (kept)

variable {k k' : Kept} {p : Phase} {d : WorkDir}

theorem Phase.not_resolving_idle : ¬idle.Resolving := by
  rintro ⟨t, h | h⟩
  · cases h
  · cases h

namespace Routine

theorem writePhase_resolving (hk : k.Sound) (hp : p.Resolving) :
    SureOr kept (fun e => e.before.Sound ∧ e.after.Sound) (writePhase p) k
      (fun _ => Kept.Resolving) fun _ => Kept.Sound := by
  apply sureOr_bind.mpr
  intro x k' hx
  rcases hx with rfl | ⟨rfl, e, rfl⟩
  · have hr : Kept.Resolving { k with phase := some p } := ⟨p, rfl, hp⟩
    refine ⟨⟨hk, hr.sound⟩, ?_⟩
    cases x with
    | ok u => exact hr
    | error e => exact hr.sound
  · exact ⟨⟨hk, hk⟩, hk⟩

end Routine

namespace WorkDir

theorem remove_unmarks {e : Entry} (hk : k.Sound) :
    SureOr kept (fun e => e.before.Sound ∧ e.after.Sound) (d.remove e) k
      (fun _ k' => k'.Sound ∧ (k.marker = false ∨ e = .marker .rollback → k'.marker = false))
      fun _ => Kept.Sound := by
  apply sureOr_ask_bind.mpr
  intro x k' hx
  have hk' : k'.Sound := Call.kept_sound hx trivial hk
  have hunmarked (h : k.marker = false) : k'.marker = false := Call.kept_unmarked hx nofun h
  refine ⟨⟨hk, hk'⟩, ?_⟩
  have hgone (h : ∀ c, x = .error c → c.isNotFound) :
      k.marker = false ∨ e = .marker .rollback → k'.marker = false := by
    rintro (hm | rfl)
    · exact hunmarked hm
    · rcases hx with rfl | ⟨-, c, rfl, hc⟩
      · rfl
      · exact absurd (h c rfl) hc
  cases x with
  | ok u => exact ⟨hk', hgone nofun⟩
  | error c =>
      dsimp only
      split
      case isTrue hc =>
          refine ⟨hk', hgone fun c' hc' => ?_⟩
          obtain rfl := Except.error.inj hc'
          exact hc
      case isFalse => exact hk'

theorem forM_remove_unmarks {es : List Entry} (hk : k.Sound)
    (h : k.marker = false ∨ .marker .rollback ∈ es) :
    SureOr kept (fun e => e.before.Sound ∧ e.after.Sound) (es.forM d.remove) k
      (fun _ k' => k'.marker = false) fun _ => Kept.Sound := by
  -- The marker is gone or its turn is still to come.
  induction es generalizing k with
  | nil => exact h.resolve_right List.not_mem_nil
  | cons e es ih =>
      refine SureOr.bind (remove_unmarks hk) ?_
      rintro u k' ⟨hk', hgone⟩
      refine ih hk' ?_
      rcases h with h | h
      · exact .inl (hgone (.inl h))
      · rcases List.mem_cons.mp h with rfl | h
        · exact .inl (hgone (.inr rfl))
        · exact .inr h

end WorkDir

namespace Update

theorem update_sound {o : Offer} (hk : k.Sound) : Throughout Kept.Sound (update o) k := by
  unfold update
  split
  · exact hk
  · apply Throughout.readPhase_bind hk
    intro p hp
    split
    case isTrue hidle =>
        rw [isIdle_iff.mp hidle] at hp
        have hm : k.marker = false := hk.unmarked_of_phase hp not_resolving_idle
        refine (Throughout.unmarked ?_ hm).mono fun _ => .of_unmarked
        exact asks_run_bind (writeParts_asks nofun nofun nofun) fun _ => writePhase_asks nofun
    case isFalse => exact hk

theorem updateIfNewer_sound {o : Offer} (hk : k.Sound) :
    Throughout Kept.Sound (updateIfNewer o) k := by
  apply (Throughout.sound (offersNewer_asks fun _ _ => trivial) hk).bind
  intro newer k' hk'
  split
  · exact (update_sound hk').bind fun _ _ h => h
  · exact hk'

theorem confirm_sound (hk : k.Sound) : Throughout Kept.Sound (confirm d p) k := by
  unfold confirm
  dsimp only
  split
  -- The record becomes idle, and by then the marker is gone with the other files.
  case isTrue hidle =>
      refine SureOr.bind (WorkDir.forM_remove_unmarks hk (.inr (by decide))) ?_
      intro u k' hm
      refine (Throughout.unmarked ?_ hm).mono fun _ => .of_unmarked
      exact asks_run_bind (writePhase_asks nofun) fun _ => trivial
  case isFalse hidle =>
      have hr : p.afterCommit.Resolving := by
        cases p with
        | switched t => exact ⟨t, .inr rfl⟩
        | _ => exact absurd rfl hidle
      exact SureOr.bind (writePhase_resolving hk hr) fun _ _ h => h.sound

theorem commit_sound (hk : k.Sound) : Throughout Kept.Sound (commit d) k := by
  rw [commit_eq]
  apply Throughout.readPhase_bind hk
  intro p _
  split
  · exact hk
  · dsimp only
    split
    · apply (Throughout.sound (isRebooted_asks fun _ => trivial) hk).bind
      intro b k' hk'
      split
      · exact hk'
      · exact confirm_sound hk'
    · exact confirm_sound hk

theorem settle_sound (hk : k.Sound) (n : Nat) : Throughout Kept.Sound (settle d n) k := by
  -- Each commit reads the record anew, so the induction asks for no more than the invariant.
  induction n generalizing k with
  | zero =>
      apply Throughout.readPhase_bind hk
      intro p _
      split <;> exact hk
  | succ n ih =>
      apply Throughout.readPhase_bind hk
      intro p _
      split
      · exact hk
      · apply (commit_sound hk).bind
        intro outcome k' hk'
        split
        · exact hk'
        · exact hk'
        · split
          · exact hk'
          · exact ih hk'

theorem recordSwitch_sound {t : Target} (hk : k.Sound) :
    Throughout Kept.Sound (recordSwitch t) k := by
  refine SureOr.bind (writePhase_resolving hk ⟨t, .inl rfl⟩) ?_
  intro u k' hk'
  -- Once the switch is on record, the marker may come up or not.
  refine (Throughout.resolving ?_ hk').mono fun _ => Kept.Resolving.sound
  apply asks_run_bind (WorkDir.create_asks trivial)
  intro x
  split <;> exact trivial

theorem switchImages_sound {is : List Image} {before : Option Image} (hk : k.Sound) :
    Throughout Kept.Sound (switchImages before is) k := by
  induction is generalizing before k with
  | nil => exact hk
  | cons i rest ih =>
      rw [switchImages]
      apply sureOr_bind.mpr
      intro x k' hx
      have hk' : k'.Sound := Call.kept_sound hx trivial hk
      refine ⟨⟨hk, hk'⟩, ?_⟩
      cases x with
      | ok u => exact ih hk'
      | error e =>
          cases before with
          | none => exact hk'
          | some w => exact SureOr.bind (recordSwitch_sound hk') fun _ _ h => h

theorem switchTarget_sound {t : Target} (hk : k.Sound) :
    Throughout Kept.Sound (switchTarget t) k :=
  (switchImages_sound hk).bind fun _ _ => recordSwitch_sound

theorem exists_steps_switchSlot (t : Target) (marker : Bool) :
    ∃ es, Steps kept (switchSlot t).run ⟨some idle, marker⟩ es (.done (.ok ()))
      ⟨some (switched t), true⟩ := by
  have hswitch (i : Image) : kept (.switch i) ⟨some idle, marker⟩ (.ok ()) ⟨some idle, marker⟩ :=
    rfl
  have hwrite : kept (.writePhase (switched t)) ⟨some idle, marker⟩ (.ok ())
      ⟨some (switched t), marker⟩ := .inl rfl
  have hcreate : kept (.create .rollback) ⟨some (switched t), marker⟩ (.ok ())
      ⟨some (switched t), true⟩ := .inl rfl
  cases t with
  | only i =>
      exact ⟨_, .ask (Call.kept_readPhase rfl) (.ask (hswitch i) (.ask hwrite
        (.ask hcreate (.refl _ _))))⟩
  | both =>
      exact ⟨_, .ask (Call.kept_readPhase rfl) (.ask (hswitch .firmware)
        (.ask (hswitch .application) (.ask hwrite (.ask hcreate (.refl _ _)))))⟩

end Update

namespace Staging

theorem applyRollback_resolving (hk : k.Resolving) :
    Throughout Kept.Resolving (applyRollback d) k := by
  have hremove (outcome : ApplyOutcome) : Asks Call.KeepsResolving
      (do d.remove (.marker .rollback); return outcome : Routine ApplyOutcome).run :=
    asks_run_bind (WorkDir.remove_asks trivial) fun _ => trivial
  apply Throughout.readPhase_bind hk
  intro p hp
  obtain ⟨p', hp', t, ht⟩ := hk
  obtain rfl := Option.some.inj (hp.symm.trans hp')
  refine Throughout.resolving ?_ ⟨p, hp, t, ht⟩
  rcases ht with rfl | rfl
  -- Taken to its next phase, and back if the reboot fails: both are phases of the rollback.
  · have hdemote : Asks Call.KeepsResolving (writePhase (.reverted t)).run :=
      writePhase_asks ⟨t, .inr rfl⟩
    refine asks_run_bind hdemote fun _ => asks_run_bind (reboot_asks trivial) fun outcome => ?_
    split
    · exact ⟨⟨t, .inl rfl⟩, fun _ => trivial⟩
    · exact hremove _
  · refine asks_run_bind (reboot_asks trivial) fun outcome => ?_
    split
    · exact trivial
    · exact hremove _

theorem apply_resolving (hk : k.Resolving) : Throughout Kept.Resolving (apply d) k := by
  rw [apply_eq]
  apply (Throughout.resolving (WorkDir.has_asks trivial) hk).bind
  intro rollback k' hk'
  split
  · exact applyRollback_resolving hk'
  · exact .resolving (applyInstalled_asks (fun _ => trivial) trivial trivial) hk'

theorem apply_unmarked (hk : k.marker = false) : Throughout (·.marker = false) (apply d) k :=
  .unmarked (apply_asks nofun nofun nofun nofun nofun nofun) hk

theorem apply_sound (hk : k.Sound) : Throughout Kept.Sound (apply d) k := by
  cases hm : k.marker with
  | false => exact (apply_unmarked hm).mono fun _ => .of_unmarked
  | true => exact (apply_resolving (hk hm)).mono fun _ => Kept.Resolving.sound

theorem resolving_of_marked {es : List (Event Call.Answer Kept)} {b a : Kept}
    {q : Plan Call.Answer (Except Error ApplyOutcome)} (hk : k.Sound)
    (hs : Steps kept (apply d).run k es q k') (h : ⟨.has .rollback, .ok true, b, a⟩ ∈ es) :
    k.Resolving := by
  cases hm : k.marker with
  | false =>
      have hb : b.marker = false := ((apply_unmarked hm).events hs _ h).1
      have hx : kept (.has .rollback) b (.ok true) a := hs.rules_of_mem _ h
      rw [hx.2 true rfl] at hb
      cases hb
  | true => exact hk hm

end Staging

theorem Operation.sound (op : Operation) (d : WorkDir) (hk : k.Sound) :
    Throughout Kept.Sound (op.routine d) k := by
  cases op with
  | update o => exact Update.update_sound hk
  | updateIfNewer o => exact Update.updateIfNewer_sound hk
  | allowAutomatic => exact Update.settle_sound hk _
  | commit => exact Update.commit_sound hk
  | rollback t | switchSlot t =>
      apply Throughout.readPhase_bind hk
      intro p _
      split
      · exact Update.switchTarget_sound hk
      · exact hk
  | download => exact .sound (Staging.download_asks (fun _ => trivial) trivial) hk
  | progress n =>
      exact .sound (Staging.progress_asks trivial (fun _ => trivial) trivial fun _ => trivial) hk
  | install => exact .sound (Staging.install_asks trivial trivial trivial) hk
  | apply => exact Staging.apply_sound hk

namespace Kept

/-- If there is no marker at first, there is one only while a rollback or a switch is under way,
before and after each event of a run and wherever it is cut. An activation that finds the marker
stays within from its first event to its last. -/
theorem sound_throughout_run {log : List (Operation × List (Event Call.Answer Kept))}
    (h : Run kept d k log k') (hk : k.marker = false) :
    k'.Sound ∧ ∀ op es, (op, es) ∈ log →
      (∀ e ∈ es, e.before.Sound ∧ e.after.Sound) ∧
      (op = .apply → (∃ b a, ⟨.has .rollback, .ok true, b, a⟩ ∈ es) →
        ∀ e ∈ es, e.before.Resolving ∧ e.after.Resolving) := by
  obtain ⟨hend, hstart⟩ := h.invariant (I := Sound)
    (fun x _ v p v' hv hs => (x.1.sound d hv).world hs hv) (.of_unmarked hk)
  refine ⟨hend, fun op es hop => ?_⟩
  obtain ⟨v, p, v', hv, hs⟩ := hstart _ hop
  refine ⟨(op.sound d hv).events hs, ?_⟩
  rintro rfl ⟨b, a, hmem⟩
  have hr : v.Resolving := Staging.resolving_of_marked hv hs hmem
  exact (Staging.apply_resolving hr).events hs

/-- Power is lost in the reboot of a switch: the marker stays, with the record that belongs to it.
-/
theorem sound_after_power_loss :
    ∃ log, Run kept ⟨"/data"⟩ ⟨some idle, false⟩ log ⟨some (reverted .both), true⟩ ∧
      (Kept.mk (some (reverted .both)) true).Sound := by
  obtain ⟨es, hswitch⟩ := Update.exists_steps_switchSlot .both false
  have hwrite : kept (.writePhase (reverted .both)) ⟨some (switched .both), true⟩ (.ok ())
      ⟨some (reverted .both), true⟩ := .inl rfl
  have hreboot : kept .reboot ⟨some (reverted .both), true⟩ (.ok ())
      ⟨some (reverted .both), true⟩ := rfl
  have happly : Steps kept (Staging.apply ⟨"/data"⟩).run ⟨some (switched .both), true⟩ _ _
      ⟨some (reverted .both), true⟩ :=
    .ask Call.kept_has (.ask (Call.kept_readPhase rfl) (.ask hwrite (.ask hreboot (.refl _ _))))
  have hrun : Run kept ⟨"/data"⟩ ⟨some idle, false⟩ [(.switchSlot .both, es), (.apply, _)]
      ⟨some (reverted .both), true⟩ := .cons hswitch (.cons happly (.nil _))
  exact ⟨_, hrun, (sound_throughout_run hrun rfl).1⟩

end Kept

end Dualbank
