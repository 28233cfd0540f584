import Dualbank.Proofs.WorkDir.Atomic

namespace Dualbank

open Plan Routine Phase
open Call (inDepot)

/-- How the calls of a run go that do not lie in the record and the directory alone. -/
structure Conduct where
  checking : Marker → Option OsError
  storing : Phase → Except Error Unit
  rebooting : Except OsError Unit

variable {c : Conduct} {k k' k₁ : Depot} {d : WorkDir} {m : Marker} {e : DepotEvent}
  {es before after : List DepotEvent} {x : Except Error ApplyOutcome}

def Depot.Plain (k : Depot) : Prop := ∀ name target, k.objects name ≠ some (.link target)

namespace Call

def AboutRecord : Call → Prop
  | readPhase | writePhase _ | isRebooted _ => True
  | _ => False

end Call

namespace Conduct

def Answers (c : Conduct) : (q : Call) → q.Answer → Prop
  | .has m, x => ∀ e, x = .error e ↔ c.checking m = some e
  | .writePhase p, x => x = c.storing p
  | .reboot, x => x = c.rebooting
  | _, _ => True

def rules (c : Conduct) : Rules Call.Answer Depot := fun q k x k' =>
  inDepot q k x k' ∧ c.Answers q x

theorem inDepot_of_rules (c : Conduct) (q : Call) (k : Depot) (x : q.Answer) (k' : Depot)
    (h : c.rules q k x k') : inDepot q k x k' := h.1

theorem exists_rules (c : Conduct) (q : Call) (k : Depot) : ∃ x k', c.rules q k x k' := by
  cases q with
  | has m =>
      cases hc : c.checking m with
      | none => exact ⟨.ok _, k, ⟨rfl, fun b hb => .inl (Except.ok.inj hb)⟩, by simp [Answers, hc]⟩
      | some e => exact ⟨.error e, k, ⟨rfl, fun b hb => by cases hb⟩, by simp [Answers, hc]⟩
  | writePhase p =>
      cases hs : c.storing p with
      | ok u => exact ⟨.ok (), _, rfl, hs.symm⟩
      | error e => exact ⟨.error e, k, rfl, hs.symm⟩
  | reboot => exact ⟨c.rebooting, k, rfl, rfl⟩
  | _ =>
      obtain ⟨x, k', hx⟩ := Call.exists_inDepot _ k
      exact ⟨x, k', hx, trivial⟩

def Sees (c : Conduct) (k : Depot) (m : Marker) : Prop :=
  c.checking m = none ∧ k.objects m.fileName ≠ none

def Misses (c : Conduct) (k : Depot) (m : Marker) : Prop :=
  c.checking m = none ∧ k.objects m.fileName = none

/-- A rollback is to be activated, and the record goes along. -/
def Rolls (c : Conduct) (k : Depot) : Prop :=
  c.Sees k .rollback ∧ ∃ p, k.record = .ok p ∧ ∀ t, p = switched t → c.storing (reverted t) = .ok ()

/-- A package is installed that did not come over the network. -/
def Boots (c : Conduct) (k : Depot) : Prop :=
  c.Misses k .rollback ∧ c.Misses k .apply ∧ c.Misses k .download ∧ c.Sees k .installed

/-- A pending switch was taken to its next phase, and its return is refused. -/
def Keeps (c : Conduct) (k : Depot) (t : Target) : Prop :=
  c.Sees k .rollback ∧ k.record = .ok (switched t) ∧ ∃ e, c.storing (switched t) = .error e

theorem Sees.not_misses (h : c.Sees k m) : ¬c.Misses k m := fun h' => h.2 h'.2

end Conduct

structure PutBack (c : Conduct) (k k' : Depot) : Prop where
  objects : k'.objects = k.objects
  restored : (∀ t, ¬c.Keeps k t) → k'.record = k.record
  kept : ∀ t, c.Keeps k t → k'.record = .ok (reverted t)

structure Activation (c : Conduct) (k : Depot) (es : List DepotEvent)
    (x : Except Error ApplyOutcome) (k' : Depot) : Prop where
  -- `es` are the questions it asked, with their answers and the worlds around them.
  once : (es.map Event.question).count .reboot ≤ 1
  rebooted : .reboot ∈ es.map Event.question ↔ c.Rolls k ∨ c.Boots k
  demoted : ∀ t, c.Sees k .rollback → k.record = .ok (switched t) →
    ∀ e ∈ es, e.question = .reboot → e.before.record = .ok (reverted t)
  failed : ∀ cause, c.rebooting = .error cause → c.Rolls k ∨ c.Boots k →
    x = .ok (.rebootFailed (cause.errno?.getD Errno.inputOutput)) ∧ PutBack c k k'
  succeeded : c.rebooting = .ok () → c.Rolls k →
    (∀ name, name ≠ Marker.rollback.fileName → k'.objects name = k.objects name) ∧
      (x = .ok .successful → k'.objects Marker.rollback.fileName = none)
  outside : ¬c.Sees k .rollback → k'.record = k.record ∧ ∀ e ∈ es, ¬e.question.AboutRecord

namespace Activation

theorem cons_has {x : Except OsError Bool} {y : Except Error ApplyOutcome}
    (h : Activation c k es y k') : Activation c k (⟨.has m, x, k, k⟩ :: es) y k' := by
  obtain ⟨honce, hrebooted, hdemoted, hfailed, hsucceeded, houtside⟩ := h
  refine ⟨?_, ?_, ?_, hfailed, hsucceeded, fun hs => ?_⟩
  · simpa [List.count_cons] using honce
  · simpa using hrebooted
  · simpa using hdemoted
  · obtain ⟨hrecord, hasked⟩ := houtside hs
    exact ⟨hrecord, List.forall_mem_cons.mpr ⟨fun h => h.elim, hasked⟩⟩

theorem still (hs : ¬c.Sees k .rollback) (hb : ¬c.Boots k)
    (hes : ∀ e ∈ es, e.question = .create .apply) (hk : k'.record = k.record) :
    Activation c k es x k' := by
  have hnone : ¬(c.Rolls k ∨ c.Boots k) := not_or.mpr ⟨fun h => hs h.1, hb⟩
  have hcreates : ∀ q ∈ es.map Event.question, q = .create .apply := by simpa using hes
  have hnot : .reboot ∉ es.map Event.question := fun h => by cases hcreates _ h
  refine ⟨?_, iff_of_false hnot hnone, fun t h => absurd h hs, fun _ _ h => absurd h hnone,
    fun _ h => absurd h.1 hs, fun _ => ⟨hk, fun e he h => ?_⟩⟩
  · rw [List.count_eq_zero_of_not_mem hnot]
    exact Nat.zero_le 1
  · rw [hes e he] at h
    exact h

theorem booted {y : Except OsError Unit} (hb : c.Boots k)
    (hx : ∀ cause, c.rebooting = .error cause →
      x = .ok (.rebootFailed (cause.errno?.getD Errno.inputOutput))) :
    Activation c k [⟨.reboot, y, k, k⟩] x k := by
  have hs : ¬c.Sees k .rollback := fun h => h.not_misses hb.1
  have hback : PutBack c k k := ⟨rfl, fun _ => rfl, fun t h => absurd h.1 hs⟩
  exact ⟨by simp, by simpa using .inr hb, fun t h => absurd h hs,
    fun cause hc _ => ⟨hx cause hc, hback⟩, fun _ h => absurd h.1 hs,
    fun _ => ⟨rfl, by simp [Call.AboutRecord]⟩⟩

theorem refused (hs : c.Sees k .rollback) (hr : ¬c.Rolls k)
    (hes : .reboot ∉ es.map Event.question) : Activation c k es x k := by
  have hnone : ¬(c.Rolls k ∨ c.Boots k) := not_or.mpr ⟨hr, fun h => hs.not_misses h.1⟩
  refine ⟨?_, iff_of_false hes hnone, fun t _ _ e he hq => ?_, fun _ _ h => absurd h hnone,
    fun _ h => absurd h hr, fun h => absurd hs h⟩
  · rw [List.count_eq_zero_of_not_mem hes]
    exact Nat.zero_le 1
  · exact absurd (hq ▸ List.mem_map_of_mem he) hes

theorem rolled {y : Except OsError Unit} (hr : c.Rolls k)
    (hbefore : .reboot ∉ before.map Event.question)
    (hafter : .reboot ∉ after.map Event.question)
    (hdemoted : ∀ t, k.record = .ok (switched t) → k₁.record = .ok (reverted t))
    (hfailed : ∀ cause, c.rebooting = .error cause →
      x = .ok (.rebootFailed (cause.errno?.getD Errno.inputOutput)) ∧ PutBack c k k')
    (hsucceeded : c.rebooting = .ok () →
      (∀ name, name ≠ Marker.rollback.fileName → k'.objects name = k.objects name) ∧
        (x = .ok .successful → k'.objects Marker.rollback.fileName = none)) :
    Activation c k (before ++ ⟨.reboot, y, k₁, k₁⟩ :: after) x k' := by
  refine ⟨?_, ?_, fun t _ hp e he hq => ?_, fun cause hc _ => hfailed cause hc,
    fun hc _ => hsucceeded hc, fun h => absurd hr.1 h⟩
  · simp [List.count_eq_zero_of_not_mem, hbefore, hafter]
  · simpa using .inl hr
  · rcases List.mem_append.mp he with he | he
    · exact absurd (hq ▸ List.mem_map_of_mem he) hbefore
    · rcases List.mem_cons.mp he with rfl | he
      · exact hdemoted t hp
      · exact absurd (hq ▸ List.mem_map_of_mem he) hafter

end Activation

abbrev Activates (c : Conduct) (k : Depot) (r : Routine ApplyOutcome) : Prop :=
  FinishesOr c.rules r k (fun o es k' => Activation c k es (.ok o) k')
    fun e es k' => Activation c k es (.error e) k'

theorem Activates.has_bind {f : Bool → Routine ApplyOutcome} (hk : k.Plain)
    (hfail : ∀ cause, c.checking m = some cause → ∀ e, Activation c k [] (.error e) k)
    (hsees : c.Sees k m → Activates c k (f true))
    (hmisses : c.Misses k m → Activates c k (f false)) : Activates c k (d.has m >>= f) := by
  rw [WorkDir.has, LawfulMonad.bind_assoc]
  refine finishesOr_ask_bind.mpr ?_
  rintro x v ⟨⟨rfl, htells⟩, hc⟩
  cases x with
  | error cause => exact finishesOr_throw.mpr (hfail cause ((hc cause).mp rfl) _).cons_has
  | ok b =>
      have hnone : c.checking m = none := by
        cases h : c.checking m with
        | none => rfl
        | some cause => cases (hc cause).mpr h
      rcases htells b rfl with hb | ⟨target, hlink⟩
      · cases b with
        | true =>
            have hrest := hsees ⟨hnone, by simpa [Option.isSome_iff_ne_none] using hb⟩
            exact hrest.mono (fun _ _ _ h => h.cons_has) fun _ _ _ h => h.cons_has
        | false =>
            have hrest := hmisses ⟨hnone, by simpa using hb⟩
            exact hrest.mono (fun _ _ _ h => h.cons_has) fun _ _ _ h => h.cons_has
      · exact absurd hlink (hk _ target)

namespace Staging

theorem request_activates (hs : ¬c.Sees k .rollback) (hb : ¬c.Boots k) :
    Activates c k apply.request := by
  have hend (e : DepotEvent) (he : e.question = .create .apply) (o : ApplyOutcome)
      (hv : e.after.record = k.record) : Activation c k [e] (.ok o) e.after :=
    .still hs hb (by simpa using he) hv
  rw [apply.request, WorkDir.create, LawfulMonad.bind_assoc]
  refine finishesOr_ask_bind.mpr ?_
  rintro x v ⟨hv, -⟩
  cases x with
  | ok u => exact finishesOr_pure.mpr (hend ⟨_, _, _, v⟩ rfl _ (by rw [hv.2]))
  | error e =>
      obtain rfl : v = k := hv
      dsimp only
      by_cases he : e.isAlreadyPresent
      · rw [if_pos he]
        exact finishesOr_pure.mpr (hend ⟨_, _, _, v⟩ rfl _ rfl)
      · rw [if_neg he]
        exact finishesOr_pure.mpr (hend ⟨_, _, _, v⟩ rfl _ rfl)

theorem reboot_activates (hb : c.Boots k) : Activates c k reboot := by
  refine finishesOr_ask_bind.mpr ?_
  rintro x v ⟨rfl, rfl⟩
  cases hc : c.rebooting with
  | ok u => exact finishesOr_pure.mpr (.booted hb fun _ h => by cases hc.symm.trans h)
  | error cause =>
      refine finishesOr_pure.mpr (.booted hb fun _ h => ?_)
      obtain rfl := Except.error.inj (hc.symm.trans h)
      rfl

theorem applyInstalled_activates (hk : k.Plain) (hr : c.Misses k .rollback) :
    Activates c k (applyInstalled d) := by
  have hs : ¬c.Sees k .rollback := fun h => h.not_misses hr
  -- A marker that cannot be looked for is neither there nor missing.
  have hfail (hb : ¬c.Boots k) (e : Error) : Activation c k [] (.error e) k :=
    .still hs hb (by simp) rfl
  refine .has_bind hk (fun cause hc => hfail fun h => ?_) (fun hi => ?_) fun hi => ?_
  · simp [h.2.2.2.1] at hc
  · refine .has_bind hk (fun cause hc => hfail fun h => ?_) (fun ha => ?_) fun ha => ?_
    · simp [h.2.1.1] at hc
    · exact request_activates hs fun h => ha.not_misses h.2.1
    · refine .has_bind hk (fun cause hc => hfail fun h => ?_) (fun hd => ?_) fun hd => ?_
      · simp [h.2.2.1.1] at hc
      · exact request_activates hs fun h => hd.not_misses h.2.2.1
      · exact reboot_activates ⟨hr, ha, hd, hi⟩
  · exact finishesOr_pure.mpr (.still hs (fun h => h.2.2.2.not_misses hi) (by simp) rfl)

theorem restart_activates {undo : Int → Routine ApplyOutcome} (before : List DepotEvent)
    (hr : c.Rolls k) (hbefore : .reboot ∉ before.map Event.question)
    (hobjects : k₁.objects = k.objects)
    (hdemoted : ∀ t, k.record = .ok (switched t) → k₁.record = .ok (reverted t))
    (hundo : ∀ n, FinishesOr c.rules (undo n) k₁ (fun o es k' =>
      o = .rebootFailed n ∧ .reboot ∉ es.map Event.question ∧ PutBack c k k')
      fun _ _ _ => False) :
    FinishesOr c.rules (restart d undo) k₁
      (fun o es k' => Activation c k (before ++ es) (.ok o) k')
      fun e es k' => Activation c k (before ++ es) (.error e) k' := by
  rw [restart, reboot, LawfulMonad.bind_assoc]
  refine finishesOr_ask_bind.mpr ?_
  rintro x v ⟨rfl, rfl⟩
  cases hc : c.rebooting with
  | error cause =>
      refine (hundo _).mono ?_ fun _ _ _ h => h.elim
      rintro o es k' ⟨rfl, hes, hback⟩
      refine .rolled hr hbefore hes hdemoted (fun cause' hc' => ?_) fun h => ?_
      · obtain rfl := Except.error.inj (hc.symm.trans hc')
        exact ⟨rfl, hback⟩
      · cases hc.symm.trans h
  | ok u =>
      have hnofail {cause : OsError} (h : c.rebooting = .error cause) : False := by
        cases hc.symm.trans h
      change FinishesOr c.rules
        (do d.remove (.marker .rollback); return ApplyOutcome.successful) v _ _
      refine finishesOr_bind.mpr ((remove_finishes c.inDepot_of_rules).mono ?_ ?_)
      · rintro _ _ _ ⟨⟨y, rfl⟩, rfl, -⟩
        refine finishesOr_pure.mpr (.rolled hr hbefore (by simp) hdemoted
          (fun cause h => (hnofail h).elim) fun _ => ⟨fun name hn => ?_, fun _ => ?_⟩)
        · rw [Depot.objects_without_of_notMem (by simpa [Entry.fileName] using hn), hobjects]
        · simp [Depot.without, Entry.fileName]
      · rintro e _ _ ⟨⟨y, rfl⟩, rfl⟩
        exact .rolled hr hbefore (by simp) hdemoted (fun cause h => (hnofail h).elim)
          fun _ => ⟨fun name _ => by rw [hobjects], fun h => by cases h⟩

/-- Whether the record is put back is seen from the answer alone. -/
theorem restore_finishes {t : Target} {n : Int} (hs : c.Sees k .rollback)
    (hp : k.record = .ok (switched t)) : FinishesOr c.rules
      (do discard (ask (.writePhase (switched t))); return ApplyOutcome.rebootFailed n)
      { k with record := .ok (reverted t) } (fun o es k' =>
        o = .rebootFailed n ∧ .reboot ∉ es.map Event.question ∧ PutBack c k k')
      fun _ _ _ => False := by
  change FinishesOr c.rules (ask (.writePhase (switched t)) >>= fun _ => pure _) _ _ _
  refine finishesOr_ask_bind.mpr ?_
  rintro x v ⟨hv, hx⟩
  cases x with
  | ok u =>
      obtain rfl : v = { k with record := .ok (switched t) } := hv
      refine finishesOr_pure.mpr ⟨rfl, by simp, ⟨rfl, fun _ => hp.symm, ?_⟩⟩
      rintro t' ⟨-, hp', e, he⟩
      cases hp.symm.trans hp'
      cases hx.trans he
  | error e =>
      obtain rfl : v = { k with record := .ok (reverted t) } := hv
      refine finishesOr_pure.mpr ⟨rfl, by simp, ⟨rfl, fun h => ?_, ?_⟩⟩
      · exact absurd ⟨hs, hp, e, hx.symm⟩ (h t)
      · rintro t' ⟨-, hp', -⟩
        cases hp.symm.trans hp'
        rfl

theorem applyRollback_activates (hs : c.Sees k .rollback) :
    Activates c k (applyRollback d) := by
  rw [applyRollback_eq]
  refine finishesOr_bind.mpr (readPhase_finishes c.inDepot_of_rules (fun p hp => ?_)
    fun e he => .refused hs ?_ (by simp))
  · by_cases hswitched : p.isSwitched
    case neg =>
      have hne {t : Target} (h : k.record = .ok (switched t)) : False := by
        obtain rfl := Except.ok.inj (hp.symm.trans h)
        exact hswitched rfl
      have hr : c.Rolls k := ⟨hs, p, hp, fun t h => (hne (h ▸ hp)).elim⟩
      simp only [hswitched]
      have hback : PutBack c k k := ⟨rfl, fun _ => rfl, fun t h => (hne h.2.1).elim⟩
      exact restart_activates [_] hr (by simp) rfl (fun t h => (hne h).elim)
        fun n => finishesOr_pure.mpr ⟨rfl, by simp, hback⟩
    cases p with
    | switched t =>
        refine finishesOr_bind.mpr (writePhase_finishes c.inDepot_of_rules ?_ fun e he => ?_)
        · rintro _ ⟨-, hstore⟩ rfl
          have hr : c.Rolls k := by
            refine ⟨hs, switched t, hp, fun t' ht => ?_⟩
            cases ht
            exact hstore.symm
          refine restart_activates [_, _] hr (by simp) rfl (fun t' ht => ?_)
            fun n => restore_finishes hs hp
          cases hp.symm.trans ht
          rfl
        · refine .refused hs ?_ (by simp)
          rintro ⟨-, p, hp', hstore⟩
          cases hp.symm.trans hp'
          cases he.2.trans (hstore t rfl)
    | _ => cases hswitched
  · rintro ⟨-, p, hp, -⟩
    cases he.symm.trans hp

/-- An activation comes to an end, and each end is as above, whatever the record and the reboot
answer. -/
theorem apply_activates (d : WorkDir) (c : Conduct) (hk : k.Plain) :
    (∃ x k', Gives c.rules (apply d).run k x k') ∧
      ∀ es x k', Steps c.rules (apply d).run k es (.done x) k' → Activation c k es x k' := by
  refine ⟨exists_gives c.exists_rules _ k, fun es x k' hs => ?_⟩
  have h : Activates c k (apply d) := by
    rw [apply_eq]
    refine .has_bind hk (fun cause hc e => ?_) applyRollback_activates
      (applyInstalled_activates hk)
    exact .still (fun h => by simp [h.1] at hc) (fun h => by simp [h.1.1] at hc) (by simp) rfl
  have hend := h es x k' hs
  cases x with
  | ok o => exact hend
  | error e => exact hend

def switchedDepot : Depot where
  record := .ok (switched .both)
  objects name := if name = Marker.rollback.fileName then some (.file []) else none

def stuck : Conduct where
  checking _ := none
  storing p := if p = reverted .both then .ok () else .error (.unknownPhase "")
  rebooting := .error (.other "no reboot")

theorem apply_stuck : ∃ k', Gives stuck.rules (apply ⟨"/data"⟩).run switchedDepot
    (.ok (.rebootFailed Errno.inputOutput)) k' ∧ k'.record = .ok (reverted .both) := by
  have hplain : switchedDepot.Plain := by
    intro name target h
    by_cases hn : name = Marker.rollback.fileName <;> simp [switchedDepot, hn] at h
  have hs : stuck.Sees switchedDepot .rollback := ⟨rfl, by simp [switchedDepot]⟩
  obtain ⟨⟨x, k', es, hrun⟩, hall⟩ := apply_activates ⟨"/data"⟩ stuck hplain
  have hr : stuck.Rolls switchedDepot := by
    refine ⟨hs, switched .both, rfl, fun t ht => ?_⟩
    cases ht
    rfl
  obtain ⟨rfl, hback⟩ := (hall es x k' hrun).failed _ rfl (.inl hr)
  exact ⟨k', ⟨es, hrun⟩, hback.kept .both ⟨hs, rfl, _, rfl⟩⟩

end Staging

end Dualbank
