import Dualbank.Proofs.Rollback.Marker

namespace Dualbank

open Plan Routine Phase
open Call (kept)

variable {k k' : Kept} {t : Target} {d : WorkDir}
  {log : List (Operation × List (Event Call.Answer Kept))} {es : List (Event Call.Answer Kept)}

def RebootsForMarker (es : List (Event Call.Answer Kept)) : Prop :=
  (∃ b a, ⟨.has .rollback, .ok true, b, a⟩ ∈ es) ∧ ∃ e ∈ es, e.question = .reboot

def SwitchesAnew (log : List (Operation × List (Event Call.Answer Kept))) : Prop :=
  ∃ op es, (op, es) ∈ log ∧ (∃ t, op = .rollback t ∨ op = .switchSlot t) ∧
    ∃ e ∈ es, e.question = .create .rollback

theorem Operation.switches_of_mayAsk_create {op : Operation} (h : op.MayAsk (.create .rollback)) :
    ∃ t, op = .rollback t ∨ op = .switchSlot t := by
  cases op with
  | rollback t => exact ⟨t, .inl rfl⟩
  | switchSlot t => exact ⟨t, .inr rfl⟩
  | _ => exact h.elim

namespace Update

theorem commit_of_switched (hp : k.phase = some (switched t)) :
    SureOr kept (fun _ => True) (commit d) k
      (fun o k' => o = .committed → k' = ⟨some (reverted t), k.marker⟩) fun _ _ => True := by
  refine sureOr_readPhase_bind (fun _ _ h => h) (fun _ => trivial) ?_ fun _ => trivial
  intro p hread
  obtain rfl := Option.some.inj (hp.symm.trans hread)
  -- Between the two accesses to the record, only the reboot is asked for.
  apply sureOr_bind.mpr
  apply sureOr_bind.mpr
  rintro x k' rfl
  refine ⟨trivial, ?_⟩
  match x with
  | .error e => exact trivial
  | .ok false => exact nofun
  | .ok true =>
      have hwrite : SureOr kept (fun _ => True) (Routine.writePhase (reverted t)) k'
          (fun _ k'' => k'' = ⟨some (reverted t), k'.marker⟩) fun _ _ => True := by
        rintro (e | u) k'' hx
        · exact ⟨trivial, trivial⟩
        · rcases hx with hx | ⟨-, e, he⟩
          · exact ⟨trivial, hx⟩
          · cases he
      exact SureOr.bind hwrite fun _ _ h _ => h

theorem exists_steps_commit (t : Target) (marker : Bool) :
    ∃ es, Steps kept (commit d).run ⟨some (switched t), marker⟩ es (.done (.ok .committed))
      ⟨some (reverted t), marker⟩ := by
  have hrebooted : kept (.isRebooted (switched t).includesFirmware) ⟨some (switched t), marker⟩
      (.ok true) ⟨some (switched t), marker⟩ := rfl
  have hwrite : kept (.writePhase (reverted t)) ⟨some (switched t), marker⟩ (.ok ())
      ⟨some (reverted t), marker⟩ := .inl rfl
  exact ⟨_, .ask (Call.kept_readPhase rfl) (.ask hrebooted (.ask hwrite (.refl _ _)))⟩

end Update

theorem exists_run_rebooting (hp : k.phase = some (reverted t)) (hm : k.marker = true) :
    ∃ log k'', Run kept d k log k'' ∧ ¬SwitchesAnew log ∧
      ∃ es, (.apply, es) ∈ log ∧ RebootsForMarker es := by
  have hhas : kept (.has .rollback) k (.ok true) k := hm ▸ Call.kept_has
  have hreboot : kept .reboot k (.ok ()) k := rfl
  have hremove : kept (.remove (.marker .rollback)) k (.ok ()) ⟨k.phase, false⟩ := .inl rfl
  have happly : Steps kept (Operation.apply.routine d).run k _ _ ⟨k.phase, false⟩ :=
    .ask hhas (.ask (Call.kept_readPhase hp) (.ask hreboot (.ask hremove (.refl _ _))))
  refine ⟨_, _, .cons happly (.nil _), ?_, _, List.mem_singleton_self _,
    ⟨k, k, ?_⟩, ⟨.reboot, .ok (), k, k⟩, ?_, rfl⟩
  · rintro ⟨op, es, hop, ⟨t, ht⟩, -⟩
    obtain ⟨rfl, -⟩ := Prod.mk.inj (List.mem_singleton.mp hop)
    rcases ht with ht | ht
    · cases ht
    · cases ht
  · simp
  · simp

theorem not_create_of_not_switchesAnew {op : Operation}
    {q : Plan Call.Answer (Except Error op.Outcome)} (h : ¬SwitchesAnew log) (hop : (op, es) ∈ log)
    (hs : Steps kept (op.routine d).run k es q k') : ∀ e ∈ es, e.question ≠ .create .rollback := by
  intro e he hq
  have hask : op.MayAsk e.question := (op.asks d).of_mem hs e he
  rw [hq] at hask
  exact h ⟨op, es, hop, op.switches_of_mayAsk_create hask, e, he, hq⟩

theorem Run.unmarked (h : Run kept d k log k') (hk : k.marker = false) (hs : ¬SwitchesAnew log) :
    ∀ x ∈ log, ∀ e ∈ x.2, e.before.marker = false := by
  have hstep : ∀ x ∈ log, ∀ v p v', v.marker = false → Steps kept (x.1.routine d).run v x.2 p v' →
      v'.marker = false ∧ ∀ e ∈ x.2, e.before.marker = false ∧ e.after.marker = false := by
    intro x hx v p v' hv hsteps
    have hc := not_create_of_not_switchesAnew hs hx hsteps
    exact hsteps.invariant (I := (·.marker = false))
      (fun e he => Call.kept_unmarked (hsteps.rules_of_mem e he) (hc e he)) hv
  obtain ⟨-, hstart⟩ := h.invariant (I := (·.marker = false))
    (fun x hx v p v' hv hsteps => (hstep x hx v p v' hv hsteps).1) hk
  intro x hx e he
  obtain ⟨v, p, v', hv, hsteps⟩ := hstart x hx
  exact ((hstep x hx v p v' hv hsteps).2 e he).1

/-- The commit of a switch takes the record to its next phase and leaves the marker as it is. No
later activation reboots the device for the marker before a new rollback or switch, exactly if there
was none to leave. -/
theorem not_rebooted_again_iff (hp : k.phase = some (switched t))
    (hs : Steps kept (Update.commit d).run k es (.done (.ok .committed)) k') :
    k' = ⟨some (reverted t), k.marker⟩ ∧
      ((∀ log k'', Run kept d k' log k'' → ¬SwitchesAnew log →
          ∀ fs, (.apply, fs) ∈ log → ¬RebootsForMarker fs) ↔ k.marker = false) := by
  have hk' : k' = ⟨some (reverted t), k.marker⟩ :=
    (Sure.steps (Update.commit_of_switched hp) hs).2 rfl
  have hphase : k'.phase = some (reverted t) := by rw [hk']
  have hmarker : k'.marker = k.marker := by rw [hk']
  refine ⟨hk', fun h => ?_, fun hm log k'' hrun hlog fs hfs => ?_⟩
  · cases hm : k.marker with
    | false => rfl
    | true =>
        obtain ⟨log, k'', hrun, hlog, fs, hfs, hreboots⟩ :=
          exists_run_rebooting (d := d) hphase (hmarker.trans hm)
        exact absurd hreboots (h log k'' hrun hlog fs hfs)
  · rintro ⟨⟨b, a, hb⟩, -⟩
    obtain ⟨v, q, v', hsteps⟩ := hrun.exists_steps _ hfs
    have hx : kept (.has .rollback) b (.ok true) a := hsteps.rules_of_mem _ hb
    have hoff := hrun.unmarked (hmarker.trans hm) hlog _ hfs _ hb
    rw [show b.marker = true from hx.2 true rfl] at hoff
    cases hoff

/-- Power was lost between the record and the marker, and the device came back from the other bank.
-/
theorem not_rebooted_again_unmarked :
    ∃ es, Steps kept (Update.commit ⟨"/data"⟩).run ⟨some (switched .firmware), false⟩ es
        (.done (.ok .committed)) ⟨some (reverted .firmware), false⟩ ∧
      ∀ log k'', Run kept ⟨"/data"⟩ ⟨some (reverted .firmware), false⟩ log k'' →
        ¬SwitchesAnew log → ∀ fs, (.apply, fs) ∈ log → ¬RebootsForMarker fs := by
  obtain ⟨es, hs⟩ := Update.exists_steps_commit (d := ⟨"/data"⟩) .firmware false
  exact ⟨es, hs, (not_rebooted_again_iff rfl hs).2.mpr rfl⟩

/-- A switch, its reboot, and its commit: the next activation reboots the device again. -/
theorem rebooted_again_after_switch :
    ¬∀ es fs k₁ k₂,
      Steps kept (Update.switchSlot .firmware).run ⟨some idle, false⟩ es (.done (.ok ())) k₁ →
      Steps kept (Update.commit ⟨"/data"⟩).run k₁ fs (.done (.ok .committed)) k₂ →
      ∀ log k₃, Run kept ⟨"/data"⟩ k₂ log k₃ → ¬SwitchesAnew log →
        ∀ gs, (.apply, gs) ∈ log → ¬RebootsForMarker gs := by
  intro h
  obtain ⟨es, hswitch⟩ := Update.exists_steps_switchSlot .firmware false
  obtain ⟨fs, hcommit⟩ := Update.exists_steps_commit (d := ⟨"/data"⟩) .firmware true
  have hmarked : (Kept.mk (some (reverted .firmware)) true).marker = true := rfl
  obtain ⟨log, k₃, hrun, hlog, gs, hgs, hreboots⟩ :=
    exists_run_rebooting (d := ⟨"/data"⟩) (t := .firmware) rfl hmarked
  exact h es fs _ _ hswitch hcommit log k₃ hrun hlog gs hgs hreboots

end Dualbank
