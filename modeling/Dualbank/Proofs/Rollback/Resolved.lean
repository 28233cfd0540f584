import Dualbank.Proofs.Phase.Obedience

namespace Dualbank

open Plan Routine Phase
open Call (recorded recordedIf Spares recorded_readPhase)

def rebootSeen (t : Target) : RecordEvent :=
  ⟨.isRebooted (switched t).includesFirmware, .ok true, some (switched t), some (switched t)⟩

def rebootAccepted (t : Target) : RecordEvent :=
  ⟨.reboot, .ok (), some (reverted t), some (reverted t)⟩

/-- A refused write of a switch; an activation makes none but the one that takes it back. -/
def RefusesSwitch : RecordEvent → Prop
  | ⟨.writePhase (switched _), .error _, _, _⟩ => True
  | _ => False

/-- With the switch of `t` pending, a commit saw a reboot, or an activation took the switch on and
the device accepted to reboot. -/
def SeesReboot (t : Target) (op : Operation) (es : List RecordEvent) : Prop :=
  (op.Commits ∧ rebootSeen t ∈ es) ∨
    (op = .apply ∧ rebootAccepted t ∈ es ∧
      ⟨.writePhase (reverted t), .ok (), some (switched t), some (reverted t)⟩ ∈ es)

variable {t u : Target} {d : WorkDir} {op : Operation} {p : Phase} {s s' b a : Option Phase}
  {es fs gs : List RecordEvent} {log : List (Operation × List RecordEvent)}

theorem Edge.commits_of_idle (h : Edge op p idle) : op.Commits := by
  cases h with
  | confirmed h | settled h | forgiven h | bootForgiven h => exact h

theorem Edge.commits_or_apply (h : Edge op (switched t) p) : op.Commits ∨ op = .apply := by
  cases h with
  | reverted h => exact .inl h
  | applied => exact .inr rfl

theorem Edge.apply_eq_reverted (h : Edge .apply (switched t) p) : p = Phase.reverted t := by
  cases h with
  | reverted => rfl
  | applied => rfl

namespace Update

theorem commit_unseen (d : WorkDir) (t : Target) :
    SureOr (recordedIf (· ≠ rebootSeen t)) (fun e => e.after = some (switched t)) (commit d)
      (some (switched t)) (fun o _ => o ≠ .committed) fun _ _ => True := by
  refine sureOr_readPhase_bind (fun _ _ h => h.1) (fun _ => rfl) ?_ fun _ => trivial
  intro p hp
  obtain rfl := Option.some.inj hp
  apply sureOr_bind.mpr
  apply sureOr_bind.mpr
  rintro x _ ⟨rfl, hx⟩
  refine ⟨rfl, ?_⟩
  match x with
  | .error e => exact trivial
  | .ok false => exact nofun
  | .ok true => exact absurd rfl hx

theorem settle_unseen (d : WorkDir) (t : Target) (n : Nat) :
    SureOr (recordedIf (· ≠ rebootSeen t)) (fun e => e.after = some (switched t)) (settle d n)
      (some (switched t)) (fun _ _ => True) fun _ _ => True := by
  cases n with
  | zero =>
      refine sureOr_readPhase_bind (fun _ _ h => h.1) (fun _ => rfl) ?_ fun _ => trivial
      intro p _
      split <;> exact trivial
  | succ n =>
      refine sureOr_readPhase_bind (fun _ _ h => h.1) (fun _ => rfl) ?_ fun _ => trivial
      intro p _
      split
      · exact trivial
      · refine (commit_unseen d t).bind ?_
        intro o s' ho
        -- The first commit is not made, so there is no second one.
        cases o with
        | committed => exact absurd rfl ho
        | notNeeded => exact trivial
        | rebootPending f => exact trivial

end Update

namespace Staging

theorem applyRollback_unseen (d : WorkDir) (t : Target) :
    SureOr (recordedIf fun e => ¬RefusesSwitch e ∧ e ≠ rebootAccepted t) (fun _ => True)
      (applyRollback d) (some (switched t)) (fun _ s' => s' = some (switched t))
      fun _ s' => s' = some (switched t) := by
  refine sureOr_readPhase_bind (fun _ _ h => h.1) (fun _ => trivial) ?_ fun _ => rfl
  intro p hp
  obtain rfl := Option.some.inj hp
  apply sureOr_bind.mpr
  apply sureOr_bind.mpr
  rintro x s' ⟨hx, -⟩
  refine ⟨trivial, ?_⟩
  cases x with
  | error e => exact hx
  | ok u =>
      obtain rfl : s' = some (reverted t) := hx
      apply sureOr_bind.mpr
      apply sureOr_bind.mpr
      rintro x _ ⟨rfl, -, hx⟩
      refine ⟨trivial, ?_⟩
      cases x with
      | ok u => exact absurd rfl hx
      | error e =>
          rintro y s' ⟨hy, hrefused, -⟩
          refine ⟨trivial, ?_⟩
          cases y with
          | ok u => exact hy
          | error e => exact absurd trivial hrefused

/-- Unless the device accepts to reboot, a whole activation ends with the switch it started from. -/
theorem apply_unseen (d : WorkDir) (t : Target) :
    SureOr (recordedIf fun e => ¬RefusesSwitch e ∧ e ≠ rebootAccepted t) (fun _ => True)
      (apply d) (some (switched t)) (fun _ s' => s' = some (switched t))
      fun _ s' => s' = some (switched t) := by
  have hspares {α : Type} {r : Routine α} (h : Asks Spares r.run) :
      SureOr (recordedIf fun e => ¬RefusesSwitch e ∧ e ≠ rebootAccepted t) (fun _ => True)
        r (some (switched t)) (fun _ s' => s' = some (switched t))
        fun _ s' => s' = some (switched t) :=
    sureOr_of_spares h (fun _ _ _ _ hx => hx.1) fun _ _ _ => trivial
  rw [apply_eq]
  refine (hspares (WorkDir.has_asks trivial)).bind ?_
  rintro marked _ rfl
  split
  · exact applyRollback_unseen d t
  · exact hspares (applyInstalled_asks (fun _ => trivial) trivial trivial)

end Staging

theorem Operation.Commits.sees_or_keeps {q : Plan Call.Answer (Except Error op.Outcome)}
    (h : op.Commits) (hs : Steps recorded (op.routine d).run (some (switched t)) es q s') :
    rebootSeen t ∈ es ∨ s' = some (switched t) := by
  by_cases hmem : rebootSeen t ∈ es
  · exact .inl hmem
  · have hunseen : ∀ e ∈ es, e ≠ rebootSeen t := fun e he heq => hmem (heq ▸ he)
    right
    rcases h with rfl | rfl
    · exact Sure.world (I := (· = some (switched t))) (Update.commit_unseen d t)
        (hs.restrict hunseen) rfl
    · exact Sure.world (I := (· = some (switched t))) (Update.settle_unseen d t _)
        (hs.restrict hunseen) rfl

theorem Staging.apply_keeps {q : Plan Call.Answer (Except Error ApplyOutcome)}
    (hs : Steps recorded (Staging.apply d).run (some (switched t)) es q s')
    (hw : ⟨.writePhase (reverted t), .ok (), some (switched t), some (reverted t)⟩ ∉ es) :
    ∀ e ∈ es, e.before = some (switched t) := by
  have hes : ∀ e ∈ es, Follows (Edge .apply) e := (Sure.steps (Operation.apply.obeys d) hs).1
  have hkeep : ∀ e ∈ es, e.before = some (switched t) → e.after = some (switched t) := by
    intro e he hb
    rcases (hes e he).cases (hs.rules_of_mem e he) with ha | ⟨p, p', hE, rfl⟩
    · exact ha.trans hb
    · obtain rfl := Option.some.inj hb
      obtain rfl := hE.apply_eq_reverted
      exact absurd he hw
  intro e he
  exact ((hs.invariant (I := (· = some (switched t))) hkeep rfl).2 e he).1

theorem Staging.sees_or_keeps {x : Except Error ApplyOutcome} (hr : ∀ e ∈ es, ¬RefusesSwitch e)
    (hs : Steps recorded (Staging.apply d).run (some (switched t)) es (.done x) s') :
    SeesReboot t .apply es ∨ s' = some (switched t) := by
  by_cases hmem : rebootAccepted t ∈ es
  · refine .inl (.inr ⟨rfl, hmem, ?_⟩)
    -- The phase in which the device accepts to reboot is the one that was written before.
    refine Classical.byContradiction fun hw => ?_
    cases Staging.apply_keeps hs hw _ hmem
  · have hunseen : ∀ e ∈ es, ¬RefusesSwitch e ∧ e ≠ rebootAccepted t :=
      fun e he => ⟨hr e he, fun heq => hmem (heq ▸ he)⟩
    have hend := (Sure.steps (Staging.apply_unseen d t) (hs.restrict hunseen)).2
    cases x with
    | ok o => exact .inr hend
    | error e => exact .inr hend

theorem Operation.sees_or_keeps {x : Except Error op.Outcome}
    (hr : op = .apply → ∀ e ∈ es, ¬RefusesSwitch e)
    (hs : Steps recorded (op.routine d).run (some (switched t)) es (.done x) s') :
    SeesReboot t op es ∨ s' = some (switched t) := by
  by_cases hc : op.Commits
  · exact (hc.sees_or_keeps hs).imp_left fun h => .inl ⟨hc, h⟩
  · by_cases ha : op = .apply
    · subst ha
      exact Staging.sees_or_keeps (hr rfl) hs
    · have hstays : ∀ p, ¬Edge op (switched t) p :=
        fun p hE => hE.commits_or_apply.elim hc ha
      exact .inr (Follows.keeps (Operation.follows hs) hstays hs).1

theorem WholeRun.sees_or_keeps (h : WholeRun recorded d s log s') (hs : s = some (switched t))
    (hr : ∀ es, (.apply, es) ∈ log → ∀ e ∈ es, ¬RefusesSwitch e) :
    (∃ x ∈ log, SeesReboot t x.1 x.2) ∨ s' = some (switched t) := by
  induction h with
  | nil => exact .inr hs
  | @cons op es _ _ _ _ log hop _ ih =>
      subst hs
      have hhead : op = .apply → ∀ e ∈ es, ¬RefusesSwitch e := by
        rintro rfl
        exact hr es List.mem_cons_self
      rcases Operation.sees_or_keeps hhead hop with hsees | hkept
      · exact .inl ⟨_, List.mem_cons_self, hsees⟩
      · refine (ih hkept fun fs hfs => hr fs (List.mem_cons_of_mem _ hfs)).imp_left ?_
        rintro ⟨x, hx, hsees⟩
        exact ⟨x, List.mem_cons_of_mem _ hx, hsees⟩

theorem Operation.sees_before_idle {q : Plan Call.Answer (Except Error op.Outcome)}
    (hs : Steps recorded (op.routine d).run (some (switched t))
      (fs ++ ⟨.writePhase idle, .ok (), b, a⟩ :: gs) q s') : SeesReboot t op fs := by
  obtain ⟨p, rfl, -, hE⟩ := Operation.follows hs _ (List.mem_append_right _ List.mem_cons_self)
  have hc := hE.commits_of_idle
  obtain ⟨r, v, hfs, hrest⟩ := hs.of_append
  rcases hc.sees_or_keeps hfs with hmem | rfl
  · exact .inl ⟨hc, hmem⟩
  · cases hrest with
    | ask => cases hE

theorem Operation.switched_of_write {q : Plan Call.Answer (Except Error op.Outcome)}
    (hop : op = .rollback u ∨ op = .switchSlot u) (hs : Steps recorded (op.routine d).run s es q s')
    (hw : ⟨.writePhase (switched t), .ok (), b, a⟩ ∈ es) : s' = some (switched t) := by
  have hes := Operation.follows hs
  obtain ⟨fs, gs, rfl⟩ := List.append_of_mem hw
  obtain ⟨r, v, -, hrest⟩ := hs.of_append
  cases hrest with
  | ask hx hrest =>
      obtain rfl : a = some (switched t) := hx
      refine (Follows.keeps (fun e he => hes e ?_) ?_ hrest).1
      · exact List.mem_append_right _ (List.mem_cons_of_mem _ he)
      · intro p hE
        rcases hop with rfl | rfl
        · rcases hE.commits_or_apply with (h | h) | h <;> cases h
        · rcases hE.commits_or_apply with (h | h) | h <;> cases h

def beforeIdle (t : Target) : List RecordEvent :=
  ⟨.readPhase, .ok (reverted t), some (reverted t), some (reverted t)⟩ ::
    Entry.all.map fun e => ⟨.remove e, .ok (), some (reverted t), some (reverted t)⟩

theorem Update.steps_commit (d : WorkDir) (t : Target) :
    Steps recorded (Update.commit d).run (some (reverted t))
      (beforeIdle t ++ [⟨.writePhase idle, .ok (), some (reverted t), some idle⟩])
      (.done (.ok .committed)) (some idle) := by
  have hwrite : recorded (.writePhase idle) (some (reverted t)) (.ok ()) (some idle) := rfl
  exact .ask (recorded_readPhase _)
    ((d.steps_forM_remove _ Entry.all).bind_ok (.ask hwrite (.refl _ _)))

theorem Update.steps_switchSlot (t : Target) :
    ∃ es, Steps recorded (Update.switchSlot t).run (some idle) es (.done (.ok ()))
      (some (switched t)) ∧ ⟨.writePhase (switched t), .ok (), some idle, some (switched t)⟩ ∈ es := by
  have hswitch (i : Image) : recorded (.switch i) (some idle) (.ok ()) (some idle) := rfl
  have hwrite : recorded (.writePhase (switched t)) (some idle) (.ok ()) (some (switched t)) := rfl
  have hcreate : recorded (.create .rollback) (some (switched t)) (.ok ()) (some (switched t)) := rfl
  cases t with
  | only i =>
      exact ⟨_, .ask (recorded_readPhase idle) (.ask (hswitch i) (.ask hwrite
        (.ask hcreate (.refl _ _)))), by simp⟩
  | both =>
      exact ⟨_, .ask (recorded_readPhase idle) (.ask (hswitch .firmware)
        (.ask (hswitch .application) (.ask hwrite (.ask hcreate (.refl _ _))))), by simp⟩

theorem WholeRun.of_steps_apply {x : Except Error ApplyOutcome}
    (h : Steps recorded (Staging.apply d).run (some (switched t)) gs (.done x)
      (some (reverted t))) :
    ∃ es, WholeRun recorded d (some idle) [(.switchSlot t, es), (.apply, gs), (.commit,
        beforeIdle t ++ [⟨.writePhase idle, .ok (), some (reverted t), some idle⟩])] (some idle) ∧
      ⟨.writePhase (switched t), .ok (), some idle, some (switched t)⟩ ∈ es := by
  obtain ⟨es, hswitch, hset⟩ := Update.steps_switchSlot t
  exact ⟨es, .cons hswitch (.cons h (.cons (Update.steps_commit d t) (.nil _))), hset⟩

/-- A switch that a rollback or a bank switch recorded is resolved after a reboot. Before the record
is idle again, a commit made in that phase sees that the device rebooted, or an activation made in
it finds the device ready to reboot, provided that no activation was refused the write that takes
its own write back. -/
theorem resolved_after_reboot (l₁ l₂ l₃ : List (Operation × List RecordEvent))
    {op₁ op₂ : Operation}
    (hrun : WholeRun recorded d s (l₁ ++ (op₁, es) :: (l₂ ++
      (op₂, fs ++ ⟨.writePhase idle, .ok (), b, a⟩ :: gs) :: l₃)) s')
    (hop : op₁ = .rollback u ∨ op₁ = .switchSlot u)
    (hset : ∃ b a, ⟨.writePhase (switched t), .ok (), b, a⟩ ∈ es)
    (hr : ∀ gs, (.apply, gs) ∈ l₂ → ∀ e ∈ gs, ¬RefusesSwitch e) :
    ∃ x ∈ l₂ ++ [(op₂, fs)], SeesReboot t x.1 x.2 := by
  obtain ⟨w, -, hrun⟩ := hrun.of_append
  obtain ⟨b', a', hw⟩ := hset
  cases hrun with
  | cons hs hrun =>
      obtain rfl := Operation.switched_of_write hop hs hw
      obtain ⟨v, hl₂, hrun⟩ := hrun.of_append
      rcases hl₂.sees_or_keeps rfl hr with ⟨x, hx, hsees⟩ | rfl
      · exact ⟨x, List.mem_append_left _ hx, hsees⟩
      · cases hrun with
        | cons hs _ =>
            exact ⟨_, List.mem_append_right _ (List.mem_singleton_self _),
              Operation.sees_before_idle hs⟩

theorem resolved_after_reboot_applied :
    ∃ es gs fs, WholeRun recorded ⟨"/data"⟩ (some idle)
        [(.switchSlot .both, es), (.apply, gs), (.commit,
          fs ++ [⟨.writePhase idle, .ok (), some (reverted .both), some idle⟩])] (some idle) ∧
      ∃ x ∈ [(.apply, gs), (.commit, fs)], SeesReboot .both x.1 x.2 := by
  have hmarked : recorded (.has .rollback) (some (switched .both)) (.ok true)
      (some (switched .both)) := rfl
  have hwrite : recorded (.writePhase (reverted .both)) (some (switched .both)) (.ok ())
      (some (reverted .both)) := rfl
  have hreboot : recorded .reboot (some (reverted .both)) (.ok ()) (some (reverted .both)) := rfl
  have hremove : recorded (.remove (.marker .rollback)) (some (reverted .both)) (.ok ())
      (some (reverted .both)) := rfl
  obtain ⟨es, hrun, hset⟩ := WholeRun.of_steps_apply (d := ⟨"/data"⟩) (t := .both)
    (.ask hmarked (.ask (recorded_readPhase _) (.ask hwrite (.ask hreboot
      (.ask hremove (.refl _ _))))))
  refine ⟨es, _, _, hrun, resolved_after_reboot [] [(.apply, _)] [] hrun (.inr rfl)
    ⟨_, _, hset⟩ ?_⟩
  simp [RefusesSwitch]

/-- Refused the write that takes its own back, an activation leaves the switch to the next commit as
if the device had rebooted. -/
theorem exists_unseen (d : WorkDir) (t : Target) :
    ∃ es gs fs, WholeRun recorded d (some idle) [(.switchSlot t, es), (.apply, gs), (.commit,
          fs ++ [⟨.writePhase idle, .ok (), some (reverted t), some idle⟩])] (some idle) ∧
      ⟨.writePhase (switched t), .ok (), some idle, some (switched t)⟩ ∈ es ∧
      ∀ x ∈ [(.apply, gs), (.commit, fs)], ¬SeesReboot t x.1 x.2 := by
  have hmarked : recorded (.has .rollback) (some (switched t)) (.ok true) (some (switched t)) := rfl
  have hwrite : recorded (.writePhase (reverted t)) (some (switched t)) (.ok ())
      (some (reverted t)) := rfl
  have hreboot : recorded .reboot (some (reverted t)) (.error .notText) (some (reverted t)) := rfl
  have hrefused : recorded (.writePhase (switched t)) (some (reverted t))
      (.error (.notAllowed idle)) (some (reverted t)) := rfl
  obtain ⟨es, hrun, hset⟩ := WholeRun.of_steps_apply (d := d) (t := t)
    (.ask hmarked (.ask (recorded_readPhase _) (.ask hwrite (.ask hreboot
      (.ask hrefused (.refl _ _))))))
  refine ⟨es, _, _, hrun, hset, ?_⟩
  simp [SeesReboot, rebootSeen, rebootAccepted, beforeIdle, Operation.Commits]

end Dualbank
