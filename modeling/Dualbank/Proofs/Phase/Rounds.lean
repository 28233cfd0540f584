import Dualbank.Proofs.Phase.Faults

namespace Dualbank

open Plan Routine Phase

variable {W α β : Type} {rules : Rules Call.Answer W} {d : WorkDir} {w w' v : W} {p : Phase}
  {e : Error} {es fs : List (Event Call.Answer W)}

namespace Update

/-- What a commit makes of an admission that had read the phase `p`; `none` if it goes on. -/
def verdict? (p : Phase) : Except Error CommitOutcome → Option (Except Error Admission)
  | .error e => some (.error e)
  | .ok .notNeeded => some (.error (.contractViolation (.commitNotNeeded p)))
  | .ok (.rebootPending f) => some (.ok (.rebootPending f))
  | .ok .committed => p.formerFailure?.map .ok

/-- Rounds that went on: a pending phase was read, and a commit followed that was no end. -/
inductive Rounds (rules : Rules Call.Answer W) (d : WorkDir) :
    Nat → W → List (Event Call.Answer W) → W → Prop
  | none (w : W) : Rounds rules d 0 w [] w
  | next {n : Nat} {p : Phase} {y : Except Error CommitOutcome} {w v u w' : W}
      {es fs : List (Event Call.Answer W)} (hx : rules .readPhase w (.ok p) v) (hp : p ≠ idle)
      (hc : Steps rules (commit d).run v es (.done y) u) (hy : verdict? p y = none)
      (h : Rounds rules d n u fs w') :
      Rounds rules d (n + 1) w (⟨.readPhase, .ok p, w, v⟩ :: (es ++ fs)) w'

/-- The round in which an admission ends that may commit `n` times more. -/
inductive LastRound (rules : Rules Call.Answer W) (d : WorkDir) :
    Nat → W → List (Event Call.Answer W) → Except Error Admission → W → Prop
  | idle {n : Nat} {w w' : W} (hx : rules .readPhase w (.ok idle) w') :
      LastRound rules d n w [⟨.readPhase, .ok idle, w, w'⟩] (.ok .allowed) w'
  | unread {n : Nat} {e : Error} {w w' : W} (hx : rules .readPhase w (.error e) w') :
      LastRound rules d n w [⟨.readPhase, .error e, w, w'⟩] (.error e) w'
  | exhausted {p : Phase} {w w' : W} (hx : rules .readPhase w (.ok p) w') (hp : p ≠ idle) :
      LastRound rules d 0 w [⟨.readPhase, .ok p, w, w'⟩]
        (.error (.contractViolation (.unresolved maxForcedCommits))) w'
  | ended {n : Nat} {p : Phase} {y : Except Error CommitOutcome} {x : Except Error Admission}
      {w v w' : W} {es : List (Event Call.Answer W)} (hx : rules .readPhase w (.ok p) v)
      (hp : p ≠ idle) (hc : Steps rules (commit d).run v es (.done y) w')
      (hy : verdict? p y = some x) :
      LastRound rules d (n + 1) w (⟨.readPhase, .ok p, w, v⟩ :: es) x w'

theorem steps_readPhase_bind_iff {f : Phase → Routine α} {x : Except Error α} :
    Steps rules (readPhase >>= f).run w es (.done x) w' ↔
      (∃ p v fs, es = ⟨.readPhase, .ok p, w, v⟩ :: fs ∧ rules .readPhase w (.ok p) v ∧
        Steps rules (f p).run v fs (.done x) w') ∨
      ∃ e, es = [⟨.readPhase, .error e, w, w'⟩] ∧ rules .readPhase w (.error e) w' ∧
        x = .error e := by
  rw [readPhase, LawfulMonad.bind_assoc, Routine.ask, steps_ask_bind_iff]
  constructor
  · rintro ⟨y, v, fs, rfl, hy, hs⟩
    cases y with
    | ok p => exact .inl ⟨p, v, fs, rfl, hy, hs⟩
    | error e =>
        cases hs
        exact .inr ⟨e, rfl, hy, rfl⟩
  · rintro (⟨p, v, fs, rfl, hp, hs⟩ | ⟨e, rfl, he, rfl⟩)
    · exact ⟨.ok p, v, fs, rfl, hp, hs⟩
    · exact ⟨.error e, w', [], rfl, he, .refl _ _⟩

def afterOutcome (d : WorkDir) (n : Nat) (p : Phase) : CommitOutcome → Routine Admission
  | .notNeeded => throw (.contractViolation (.commitNotNeeded p))
  | .rebootPending f => return .rebootPending f
  | .committed =>
    match p.formerFailure? with
    | some g => return g
    | none => settle d n

theorem settle_succ (d : WorkDir) (n : Nat) : settle d (n + 1) = (do
    let p ← readPhase
    if p.isIdle then return .allowed
    commit d >>= afterOutcome d n p) := by
  refine congrArg _ (funext fun p => ?_)
  split
  · rfl
  · refine congrArg _ (funext fun o => ?_)
    cases o <;> rfl

theorem steps_afterOutcome_iff {n : Nat} {o : CommitOutcome} {x : Except Error Admission} :
    Steps rules (afterOutcome d n p o).run w es (.done x) w' ↔
      verdict? p (.ok o) = some x ∧ es = [] ∧ w' = w ∨
      verdict? p (.ok o) = none ∧ Steps rules (settle d n).run w es (.done x) w' := by
  have hend (y : Except Error Admission) :
      Steps rules (.done y) w es (.done x) w' ↔ some y = some x ∧ es = [] ∧ w' = w := by
    constructor
    · intro h
      cases h
      exact ⟨rfl, rfl, rfl⟩
    · rintro ⟨hy, rfl, rfl⟩
      rw [Option.some.inj hy]
      exact .refl _ _
  cases o with
  | notNeeded => exact (hend _).trans (by simp [verdict?])
  | rebootPending f => exact (hend _).trans (by simp [verdict?])
  | committed =>
      cases hg : p.formerFailure? with
      | none => simp [afterOutcome, verdict?, hg]
      | some g =>
          have hrun : (afterOutcome d n p .committed).run = .done (.ok g) := by
            simp only [afterOutcome, hg]
            rfl
          rw [hrun, hend]
          simp [verdict?, hg]

theorem exists_rounds {n : Nat} {x : Except Error Admission}
    (hs : Steps rules (settle d n).run w es (.done x) w') : ∃ k pre last v, k ≤ n ∧
      es = pre ++ last ∧ Rounds rules d k w pre v ∧ LastRound rules d (n - k) v last x w' := by
  induction n generalizing w es with
  | zero =>
      rcases steps_readPhase_bind_iff.mp hs with ⟨p, v, fs, rfl, hx, hs⟩ | ⟨e, rfl, hx, rfl⟩
      · by_cases hp : p = idle
        · subst hp
          cases hs
          exact ⟨0, [], _, w, Nat.le_refl _, rfl, .none w, .idle hx⟩
        · rw [if_neg fun h => hp (isIdle_iff.mp h)] at hs
          cases hs
          exact ⟨0, [], _, w, Nat.le_refl _, rfl, .none w, .exhausted hx hp⟩
      · exact ⟨0, [], _, w, Nat.le_refl _, rfl, .none w, .unread hx⟩
  | succ n ih =>
      rw [settle_succ] at hs
      rcases steps_readPhase_bind_iff.mp hs with ⟨p, v, fs, rfl, hx, hs⟩ | ⟨e, rfl, hx, rfl⟩
      · by_cases hp : p = idle
        · subst hp
          cases hs
          exact ⟨0, [], _, w, Nat.zero_le _, rfl, .none w, .idle hx⟩
        · rw [if_neg fun h => hp (isIdle_iff.mp h)] at hs
          rcases steps_run_bind_iff.mp hs with ⟨o, u, es, gs, rfl, hc, hs⟩ | ⟨e, hc, rfl⟩
          · rcases steps_afterOutcome_iff.mp hs with ⟨hy, rfl, rfl⟩ | ⟨hy, hs⟩
            · rw [List.append_nil]
              exact ⟨0, [], _, w, Nat.zero_le _, rfl, .none w, .ended hx hp hc hy⟩
            · obtain ⟨k, pre, last, u', hk, rfl, hr, hl⟩ := ih hs
              refine ⟨k + 1, _, last, u', Nat.succ_le_succ hk, ?_, .next hx hp hc hy hr, ?_⟩
              · rw [List.cons_append, List.append_assoc]
              · rwa [Nat.succ_sub_succ]
          · exact ⟨0, [], _, w, Nat.zero_le _, rfl, .none w, .ended hx hp hc rfl⟩
      · exact ⟨0, [], _, w, Nat.zero_le _, rfl, .none w, .unread hx⟩

theorem steps_settle_of_commit {n : Nat} {y : Except Error CommitOutcome}
    {x : Except Error Admission} {u : W} (hx : rules .readPhase w (.ok p) v) (hp : p ≠ idle)
    (hc : Steps rules (commit d).run v es (.done y) u)
    (hy : verdict? p y = some x ∧ fs = [] ∧ w' = u ∨
      verdict? p y = none ∧ Steps rules (settle d n).run u fs (.done x) w') :
    Steps rules (settle d (n + 1)).run w (⟨.readPhase, .ok p, w, v⟩ :: (es ++ fs)) (.done x)
      w' := by
  rw [settle_succ]
  refine steps_readPhase_bind_iff.mpr (.inl ⟨p, v, _, rfl, hx, ?_⟩)
  rw [if_neg fun h => hp (isIdle_iff.mp h)]
  refine steps_run_bind_iff.mpr ?_
  cases y with
  | ok o => exact .inl ⟨o, u, es, fs, rfl, hc, steps_afterOutcome_iff.mpr hy⟩
  | error e =>
      rcases hy with ⟨hy, rfl, rfl⟩ | ⟨hy, -⟩
      · rw [List.append_nil]
        exact .inr ⟨e, hc, (Option.some.inj hy).symm⟩
      · cases hy

theorem LastRound.steps {n : Nat} {x : Except Error Admission}
    (h : LastRound rules d n w es x w') : Steps rules (settle d n).run w es (.done x) w' := by
  cases h with
  | idle hx =>
      have hrest : Steps rules (pure .allowed : Routine Admission).run w' []
          (.done (.ok .allowed)) w' :=
        .refl _ _
      cases n with
      | zero => exact steps_readPhase_bind_iff.mpr (.inl ⟨.idle, w', [], rfl, hx, hrest⟩)
      | succ n =>
          rw [settle_succ]
          exact steps_readPhase_bind_iff.mpr (.inl ⟨.idle, w', [], rfl, hx, hrest⟩)
  | @unread n e _ _ hx =>
      cases n with
      | zero => exact steps_readPhase_bind_iff.mpr (.inr ⟨e, rfl, hx, rfl⟩)
      | succ n =>
          rw [settle_succ]
          exact steps_readPhase_bind_iff.mpr (.inr ⟨e, rfl, hx, rfl⟩)
  | @exhausted p _ _ hx hp =>
      refine steps_readPhase_bind_iff.mpr (.inl ⟨p, w', [], rfl, hx, ?_⟩)
      rw [if_neg fun h => hp (isIdle_iff.mp h)]
      exact .refl _ _
  | @ended n p y _ _ v _ es hx hp hc hy =>
      rw [← List.append_nil es]
      exact steps_settle_of_commit hx hp hc (.inl ⟨hy, rfl, rfl⟩)

/-- The runs of an admission are its rounds. -/
theorem steps_settle_iff {n : Nat} {x : Except Error Admission} :
    Steps rules (settle d n).run w es (.done x) w' ↔ ∃ k pre last v, k ≤ n ∧ es = pre ++ last ∧
      Rounds rules d k w pre v ∧ LastRound rules d (n - k) v last x w' := by
  refine ⟨exists_rounds, ?_⟩
  rintro ⟨k, pre, last, v, hk, rfl, hr, hl⟩
  induction hr generalizing n with
  | none w => exact hl.steps
  | @next k p y w v u w'' es fs hx hp hc hy hr ih =>
      obtain ⟨n, rfl⟩ : ∃ m, n = m + 1 :=
        Nat.exists_eq_add_one.mpr (Nat.lt_of_lt_of_le k.succ_pos hk)
      rw [Nat.succ_sub_succ] at hl
      have hrest := ih (Nat.le_of_succ_le_succ hk) hl
      rw [List.cons_append, List.append_assoc]
      exact steps_settle_of_commit hx hp hc (.inr ⟨hy, hrest⟩)

theorem Rounds.faultless {k : Nat} (h : Rounds rules d k w es v) : Faultless d es := by
  induction h with
  | none w => exact List.forall_mem_nil _
  | @next k p y w v u w' es fs hx hp hc hy hr ih =>
      have hcommit := PassesOn.commit es y u hc
      cases y with
      | ok o =>
          have hread : Faultless d [(⟨.readPhase, .ok p, w, v⟩ : Event Call.Answer W)] :=
            List.forall_mem_singleton.mpr rfl
          exact hread.append (Faultless.append hcommit ih)
      | error e => cases hy

def EndsAs (d : WorkDir) (es : List (Event Call.Answer W)) : Except Error Admission → Prop
  | .ok _ => Faultless d es
  | .error e => FailsAtLast d e es ∨ Faultless d es ∧ ∃ f, e = .contractViolation f

theorem LastRound.endsAs {n : Nat} {x : Except Error Admission}
    (h : LastRound rules d n w es x w') : EndsAs d es x := by
  have hread {p : Phase} {u v : W} :
      Faultless d [(⟨.readPhase, .ok p, u, v⟩ : Event Call.Answer W)] :=
    List.forall_mem_singleton.mpr rfl
  cases h with
  | idle hx => exact hread
  | unread hx => exact .inl ⟨[], _, rfl, List.forall_mem_nil _, rfl⟩
  | exhausted hx hp => exact .inr ⟨hread, _, rfl⟩
  | @ended n p y x _ v _ es hx hp hc hy =>
      have hcommit := PassesOn.commit es y w' hc
      cases y with
      | error e =>
          obtain rfl := Option.some.inj hy
          exact .inl (FailsAtLast.prepend hcommit hread)
      | ok o =>
          have hall : Faultless d (⟨.readPhase, .ok p, w, v⟩ :: es) := hread.append hcommit
          cases x with
          | ok g => exact hall
          | error e =>
              refine .inr ⟨hall, ?_⟩
              cases o with
              | notNeeded => exact ⟨_, (Except.error.inj (Option.some.inj hy)).symm⟩
              | rebootPending f => cases hy
              | committed =>
                  obtain ⟨g, -, hg⟩ := Option.map_eq_some_iff.mp hy
                  cases hg

theorem EndsAs.prepend {x : Except Error Admission} (h : EndsAs d fs x) (hes : Faultless d es) :
    EndsAs d (es ++ fs) x := by
  cases x with
  | ok g => exact hes.append h
  | error e => exact h.imp (fun hf => hf.prepend hes) fun hf => ⟨hes.append hf.1, hf.2⟩

def ReportedAfter (rules : Rules Call.Answer W) (d : WorkDir) (p : Phase) (o : CommitOutcome)
    (w : W) (es : List (Event Call.Answer W)) (w' : W) : Prop :=
  ∃ k pre v v' fs, Rounds rules d k w pre v ∧ es = pre ++ ⟨.readPhase, .ok p, v, v'⟩ :: fs ∧
    Steps rules (commit d).run v' fs (.done (.ok o)) w'

structure Justified (rules : Rules Call.Answer W) (d : WorkDir) (w : W)
    (es : List (Event Call.Answer W)) (x : Except Error Admission) (w' : W) : Prop where
  /-- The last thing that was done is to read that nothing is pending. -/
  allowed : x = .ok .allowed → ∃ pre v, es = pre ++ [⟨.readPhase, .ok idle, v, w'⟩]
  formerFailure : ∀ i, x = .ok (.formerFailure i) →
    ReportedAfter rules d (failed i) .committed w es w'
  formerBootFailure : x = .ok .formerBootFailure →
    ReportedAfter rules d bootFailed .committed w es w'
  rebootPending : ∀ f, x = .ok (.rebootPending f) →
    ∃ p, ReportedAfter rules d p (.rebootPending f) w es w'
  /-- The loop read a pending phase, and the commit after it found none. -/
  notNeeded : ∀ k pre p v v' fs gs u, k < maxForcedCommits → Rounds rules d k w pre v → p ≠ idle →
    Steps rules (commit d).run v' fs (.done (.ok .notNeeded)) u →
    es = pre ++ ⟨.readPhase, .ok p, v, v'⟩ :: fs ++ gs →
    x = .error (.contractViolation (.commitNotNeeded p))
  /-- All commits were made, and a phase is pending still. -/
  exhausted : ∀ pre p v v' gs, Rounds rules d maxForcedCommits w pre v → p ≠ idle →
    es = pre ++ [⟨.readPhase, .ok p, v, v'⟩] ++ gs →
    x = .error (.contractViolation (.unresolved maxForcedCommits))
  /-- The error of a call is that of the run, which it ends. -/
  passedOn : ∀ pre ev post e, es = pre ++ ev :: post → ev.question.failure? d ev.answer = some e →
    post = [] ∧ x = .error e
  /-- No other error arises but a breach of contract. -/
  blamed : ∀ e, x = .error e →
    (∃ ev ∈ es, ev.question.failure? d ev.answer = some e) ∨ ∃ f, e = .contractViolation f

theorem reportedAfter_of_lastRound {k n : Nat} {pre last : List (Event Call.Answer W)}
    {g : Admission} (hr : Rounds rules d k w pre v) (h : LastRound rules d n v last (.ok g) w')
    (hg : g ≠ .allowed) : ∃ p o, verdict? p (.ok o) = some (.ok g) ∧
      ReportedAfter rules d p o w (pre ++ last) w' := by
  cases h with
  | idle hx => exact absurd rfl hg
  | @ended n p y x _ v' _ fs hx hp hc hy =>
      cases y with
      | error e => cases hy
      | ok o => exact ⟨p, o, hy, k, pre, v, v', fs, hr, rfl, hc⟩

theorem verdict?_eq_some_ok {o : CommitOutcome} {g : Admission}
    (h : verdict? p (.ok o) = some (.ok g)) :
    o = .committed ∧ p.formerFailure? = some g ∨
      ∃ f, o = .rebootPending f ∧ g = .rebootPending f := by
  cases o with
  | notNeeded => cases h
  | rebootPending f =>
      cases h
      exact .inr ⟨f, rfl, rfl⟩
  | committed =>
      obtain ⟨g', hg', hg⟩ := Option.map_eq_some_iff.mp h
      cases hg
      exact .inl ⟨rfl, hg'⟩

theorem EndsAs.passedOn {x : Except Error Admission} {ev : Event Call.Answer W}
    (h : EndsAs d (es ++ ev :: fs) x) (he : ev.question.failure? d ev.answer = some e) :
    fs = [] ∧ x = .error e := by
  have hfault : ¬Faultless d (es ++ ev :: fs) := by
    intro hf
    rw [hf ev (by simp)] at he
    cases he
  cases x with
  | ok g => exact absurd h hfault
  | error e' =>
      rcases h with h | ⟨h, -⟩
      · obtain ⟨hfs, rfl⟩ := h.ends he
        exact ⟨hfs, rfl⟩
      · exact absurd h hfault

theorem eq_failed_of_formerFailure? {i : Image}
    (h : p.formerFailure? = some (.formerFailure i)) : p = failed i := by
  cases p with
  | failed j =>
      cases h
      rfl
  | _ => cases h

theorem eq_bootFailed_of_formerFailure? (h : p.formerFailure? = some .formerBootFailure) :
    p = bootFailed := by
  cases p with
  | bootFailed => rfl
  | _ => cases h

theorem formerFailure?_ne_rebootPending (f : Bool) :
    p.formerFailure? ≠ some (.rebootPending f) := by
  cases p <;> simp [formerFailure?]

theorem LastRound.eq_of_allowed {n : Nat} (h : LastRound rules d n w es (.ok .allowed) w') :
    es = [⟨.readPhase, .ok .idle, w, w'⟩] := by
  cases h with
  | idle hx => rfl
  | @ended n p y x _ v _ es hx hp hc hy =>
      cases y with
      | error e => cases hy
      | ok o =>
          rcases verdict?_eq_some_ok hy with ⟨-, hg⟩ | ⟨f, -, hg⟩
          · cases p <;> cases hg
          · cases hg

theorem justified_of_steps {x : Except Error Admission}
    (hs : Steps rules (allowAutomatic d).run w es (.done x) w') : Justified rules d w es x w' := by
  obtain ⟨k, pre, last, v, hk, rfl, hr, hl⟩ := exists_rounds hs
  have hends : EndsAs d (pre ++ last) x := hl.endsAs.prepend hr.faultless
  -- The events of a run tell where it ends, so two ways to go through them end alike.
  have hunique {fs gs : List (Event Call.Answer W)} {y : Except Error Admission} {u : W}
      (h : Steps rules (allowAutomatic d).run w fs (.done y) u) (hes : pre ++ last = fs ++ gs) :
      x = y := (Steps.done_unique hs h ((List.append_nil _).trans hes)).2.1
  have hreported {g : Admission} (hx : x = .ok g) (hg : g ≠ .allowed) :
      ∃ p o, (o = .committed ∧ p.formerFailure? = some g ∨ ∃ f, o = .rebootPending f ∧
        g = .rebootPending f) ∧ ReportedAfter rules d p o w (pre ++ last) w' := by
    subst hx
    obtain ⟨p, o, hy, hafter⟩ := reportedAfter_of_lastRound hr hl hg
    exact ⟨p, o, verdict?_eq_some_ok hy, hafter⟩
  constructor
  case allowed =>
    rintro rfl
    rw [hl.eq_of_allowed]
    exact ⟨pre, v, rfl⟩
  case formerFailure =>
    intro i hx
    obtain ⟨p, o, ⟨rfl, hp⟩ | ⟨f, -, hf⟩, h⟩ := hreported hx nofun
    · obtain rfl := eq_failed_of_formerFailure? hp
      exact h
    · cases hf
  case formerBootFailure =>
    intro hx
    obtain ⟨p, o, ⟨rfl, hp⟩ | ⟨f, -, hf⟩, h⟩ := hreported hx nofun
    · obtain rfl := eq_bootFailed_of_formerFailure? hp
      exact h
    · cases hf
  case rebootPending =>
    intro f hx
    obtain ⟨p, o, ⟨-, hp⟩ | ⟨f', rfl, hf⟩, h⟩ := hreported hx nofun
    · exact absurd hp (formerFailure?_ne_rebootPending f)
    · cases hf
      exact ⟨p, h⟩
  case notNeeded =>
    intro k' pre' p u u' fs gs u'' hk' hr' hp hc hes
    have hread : rules .readPhase u (.ok p) u' :=
      hs.rules_of_mem ⟨.readPhase, .ok p, u, u'⟩ (by simp [hes])
    obtain ⟨n, hn⟩ : ∃ n, maxForcedCommits - k' = n + 1 :=
      Nat.exists_eq_add_one.mpr (Nat.sub_pos_of_lt hk')
    have hlast := LastRound.ended (n := n) hread hp hc rfl
    rw [← hn] at hlast
    exact hunique (steps_settle_iff.mpr ⟨k', pre', _, u, Nat.le_of_lt hk', rfl, hr', hlast⟩) hes
  case exhausted =>
    intro pre' p u u' gs hr' hp hes
    have hread : rules .readPhase u (.ok p) u' :=
      hs.rules_of_mem ⟨.readPhase, .ok p, u, u'⟩ (by simp [hes])
    have hlast := LastRound.exhausted (d := d) hread hp
    rw [← Nat.sub_self maxForcedCommits] at hlast
    exact hunique (steps_settle_iff.mpr ⟨_, pre', _, u, Nat.le_refl _, rfl, hr', hlast⟩) hes
  case passedOn =>
    intro fs ev gs e hes he
    rw [hes] at hends
    exact hends.passedOn he
  case blamed =>
    rintro e rfl
    rcases hends with ⟨fs, ev, hes, -, he⟩ | ⟨-, hf⟩
    · exact .inl ⟨ev, by simp [hes], he⟩
    · exact .inr hf

end Update

end Dualbank
