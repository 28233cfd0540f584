import Dualbank.Proofs.Plan.Finishes
import Dualbank.Proofs.Plan.Race
import Dualbank.Proofs.Progress.Download

namespace Dualbank

open Plan Routine Text
open MonadExcept (ofExcept)

namespace Staging

abbrev Sight := Except OsError String

inductive Missing : Sight → Prop
  | absent {e : OsError} (h : e.isNotFound) : Missing (.error e)
  | blank {s : String} (h : trim s = "") : Missing (.ok s)

def locationIn (d : WorkDir) : Sight → Except Error (Option String)
  | .ok s => .ok (if (trim s).isEmpty then none else some (Path.join d.path (trim s)))
  | .error e =>
    if e.isNotFound then .ok none else .error (.io (.reading (d.pathOf (.descriptor .location))) e)

/-- A wait of at most `n` looks that found `missed` and, last of all, `x`. It does not end before a
look that decides, unless no more are allowed. -/
structure Waited (n : Nat) (missed : List Sight) (x : Sight) : Prop where
  missing : ∀ y ∈ missed, Missing y
  bounded : missed.length + 1 ≤ n
  patient : Missing x → missed.length + 1 = n

def looked (x : Sight) : Event Call.Answer Unit := ⟨.read .location, x, (), ()⟩

def paused : Event Call.Answer Unit := ⟨.pause, (), (), ()⟩

def waitedFor (xs : List Sight) : List (Event Call.Answer Unit) := (xs.map looked).intersperse paused

def awaited (d : WorkDir) : Routine (Option Nat) := do
  if !(← d.has .download) then return none
  match ← announced d with
  | none => return none
  | some a =>
    if a.size = 0 then throw (.invalidDescriptor .zeroSize)
    return some a.size

def tellAt (size : Nat) : Option String → Routine ProgressOutcome
  | none => return .waitingToStart
  | some path => return .ofSizes (← artifactSize path) size

def whenLocated (d : WorkDir) (attempts : Nat) : Option Nat → Routine ProgressOutcome
  | none => return .noDownloadStarted
  | some size => do tellAt size (← awaitLocation d (attempts - 1))

/-- What follows a wait: only a location that was found is looked at. -/
inductive Told (size : Nat) : Except Error (Option String) → List (Event Call.Answer Unit) →
    Except Error ProgressOutcome → Prop
  | failed (e : Error) : Told size (.error e) [] (.error e)
  | gaveUp : Told size (.ok none) [] (.ok .waitingToStart)
  | found (path : String) (x : Except OsError FileKind) : Told size (.ok (some path))
      [⟨.inspect path, x, (), ()⟩] ((sizeFrom path x).map fun a => .ofSizes a size)

variable {d : WorkDir} {n size : Nat} {x : Sight} {xs missed : List Sight}
  {es : List (Event Call.Answer Unit)}

theorem locationIn_eq_none_iff : locationIn d x = .ok none ↔ Missing x := by
  cases x with
  | ok s =>
      rw [locationIn]
      constructor
      · intro h
        by_cases hs : (trim s).isEmpty
        · exact .blank (String.isEmpty_iff.mp hs)
        · simp [hs] at h
      · rintro ⟨⟩
        simp_all
  | error e =>
      rw [locationIn]
      constructor
      · intro h
        by_cases he : e.isNotFound
        · exact .absent he
        · simp [he] at h
      · rintro ⟨⟩
        simp_all

theorem location_eq (d : WorkDir) :
    d.location = (do ofExcept (locationIn d (← ask (.read .location)))) := by
  unfold WorkDir.location WorkDir.read
  simp only [LawfulMonad.bind_assoc]
  congr 1
  funext x
  cases x with
  | ok s => rfl
  | error e =>
      rw [locationIn]
      dsimp only
      split <;> rfl

theorem steps_location_iff {y : Except Error (Option String)} :
    Steps free d.location.run () es (done y) () ↔ ∃ x, es = [looked x] ∧ y = locationIn d x := by
  rw [location_eq, Routine.ask, steps_ask_bind_iff]
  constructor
  · rintro ⟨x, v, fs, rfl, -, h⟩
    obtain ⟨rfl, rfl, -⟩ := steps_ofExcept_iff.mp h
    exact ⟨x, rfl, rfl⟩
  · rintro ⟨x, rfl, rfl⟩
    exact ⟨x, (), [], rfl, trivial, steps_ofExcept_iff.mpr ⟨rfl, rfl, rfl⟩⟩

theorem waitedFor_cons_concat (y x : Sight) (xs : List Sight) :
    waitedFor (y :: xs ++ [x]) = looked y :: paused :: waitedFor (xs ++ [x]) := by
  cases xs <;> rfl

theorem waited_nil_iff : Waited n [] x ↔ 1 ≤ n ∧ (Missing x → n = 1) := by
  constructor
  · intro h
    exact ⟨h.bounded, fun hx => (h.patient hx).symm⟩
  · rintro ⟨hn, hx⟩
    exact ⟨by simp, hn, fun h => (hx h).symm⟩

theorem waited_nil_of_decides (hn : 1 ≤ n) (h : locationIn d x ≠ .ok none) : Waited n [] x :=
  waited_nil_iff.mpr ⟨hn, fun hx => absurd (locationIn_eq_none_iff.mpr hx) h⟩

theorem waited_cons_iff {y : Sight} :
    Waited (n + 1) (y :: missed) x ↔ Missing y ∧ Waited n missed x := by
  constructor
  · intro h
    have hbound := h.bounded
    obtain ⟨hy, hmissed⟩ := List.forall_mem_cons.mp h.missing
    simp only [List.length_cons] at hbound
    refine ⟨hy, hmissed, by omega, fun hx => ?_⟩
    have hpatient := h.patient hx
    simp only [List.length_cons] at hpatient
    omega
  · rintro ⟨hy, h⟩
    refine ⟨List.forall_mem_cons.mpr ⟨hy, h.missing⟩, ?_, fun hx => ?_⟩
    · simpa using h.bounded
    · simpa using h.patient hx

/-- The wait is a search for the first look that decides. -/
theorem steps_awaitLocation_iff (n : Nat) {y : Except Error (Option String)} :
    Steps free (awaitLocation d n).run () es (done y) () ↔
      ∃ missed x, es = waitedFor (missed ++ [x]) ∧ Waited (n + 1) missed x ∧ y = locationIn d x := by
  induction n generalizing es with
  | zero =>
      rw [awaitLocation, steps_location_iff]
      constructor
      · rintro ⟨x, rfl, rfl⟩
        exact ⟨[], x, rfl, waited_nil_iff.mpr ⟨by omega, fun _ => rfl⟩, rfl⟩
      · rintro ⟨missed, x, rfl, h, rfl⟩
        have hbound := h.bounded
        obtain rfl : missed = [] := List.eq_nil_of_length_eq_zero (by omega)
        exact ⟨x, rfl, rfl⟩
  | succ n ih =>
      rw [awaitLocation, steps_run_bind_iff]
      constructor
      · rintro (⟨l, v, fs, gs, rfl, hl, hs⟩ | ⟨e, he, rfl⟩)
        · obtain ⟨x, rfl, hx⟩ := steps_location_iff.mp hl
          cases l with
          | some path =>
              obtain ⟨rfl, rfl, -⟩ := steps_pure_iff.mp hs
              exact ⟨[], x, rfl, waited_nil_of_decides (d := d) (by omega) (by simp [← hx]), hx⟩
          | none =>
              obtain ⟨_, _, gs, rfl, -, hs⟩ := steps_ask_bind_iff.mp hs
              obtain ⟨missed, y, rfl, hw, rfl⟩ := ih.mp hs
              have hmissing : Missing x := locationIn_eq_none_iff.mp hx.symm
              exact ⟨x :: missed, y, (waitedFor_cons_concat x y missed).symm,
                waited_cons_iff.mpr ⟨hmissing, hw⟩, rfl⟩
        · obtain ⟨x, rfl, hx⟩ := steps_location_iff.mp he
          exact ⟨[], x, rfl, waited_nil_of_decides (d := d) (by omega) (by simp [← hx]), hx⟩
      · rintro ⟨missed, x, rfl, h, rfl⟩
        cases missed with
        | cons z missed =>
            obtain ⟨hz, hw⟩ := waited_cons_iff.mp h
            have hlook : locationIn d z = .ok none := locationIn_eq_none_iff.mpr hz
            exact .inl ⟨none, (), [looked z], _, waitedFor_cons_concat z x missed,
              steps_location_iff.mpr ⟨z, rfl, hlook.symm⟩,
              .ask trivial (ih.mpr ⟨missed, x, rfl, hw, rfl⟩)⟩
        | nil =>
            have hlook : Steps free d.location.run () [looked x] (done (locationIn d x)) () :=
              steps_location_iff.mpr ⟨x, rfl, rfl⟩
            cases hx : locationIn d x with
            | error e => exact .inr ⟨e, hx ▸ hlook, rfl⟩
            | ok l =>
                cases l with
                | some path =>
                    exact .inl ⟨some path, (), _, [], rfl, hx ▸ hlook,
                      steps_pure_iff.mpr ⟨rfl, rfl, rfl⟩⟩
                | none =>
                    have hlast := h.patient (locationIn_eq_none_iff.mp hx)
                    simp at hlast

/-- Whatever there is to be seen, the wait comes to an end. -/
theorem exists_waited (n : Nat) (seen : Nat → Sight) :
    ∃ k, Waited (n + 1) ((List.range k).map seen) (seen k) := by
  induction n generalizing seen with
  | zero => exact ⟨0, waited_nil_iff.mpr ⟨Nat.le_refl 1, fun _ => rfl⟩⟩
  | succ n ih =>
      by_cases h : Missing (seen 0)
      · obtain ⟨k, hk⟩ := ih fun i => seen (i + 1)
        refine ⟨k + 1, ?_⟩
        rw [List.range_succ_eq_map, List.map_cons, List.map_map]
        exact waited_cons_iff.mpr ⟨h, hk⟩
      · exact ⟨0, waited_nil_iff.mpr ⟨by omega, fun hx => absurd hx h⟩⟩

theorem progress_eq_awaited (d : WorkDir) (attempts : Nat) :
    progress d attempts = awaited d >>= whenLocated d attempts := by
  unfold progress awaited
  simp only [LawfulMonad.bind_assoc]
  congr 1
  funext requested
  cases requested with
  | false => rfl
  | true =>
      simp only [Bool.not_true, Bool.false_eq_true, if_false, LawfulMonad.bind_assoc]
      congr 1
      funext announcement
      cases announcement with
      | none => rfl
      | some a =>
          dsimp only
          split
          · rfl
          · simp only [LawfulMonad.pure_bind, whenLocated]
            congr 1

theorem awaited_asks (d : WorkDir) : Asks (· ≠ .pause) (awaited d).run := by
  apply asks_run_bind (WorkDir.has_asks nofun)
  intro requested
  split
  · exact trivial
  · apply asks_run_bind (announced_asks fun _ => nofun)
    intro announcement
    split
    · exact trivial
    · split
      · exact trivial
      · exact trivial

theorem steps_artifactSize_iff {path : String} {y : Except Error Nat} :
    Steps free (artifactSize path).run () es (done y) () ↔
      ∃ x, es = [⟨.inspect path, x, (), ()⟩] ∧ y = sizeFrom path x := by
  rw [artifactSize_eq, Routine.ask, steps_ask_bind_iff]
  constructor
  · rintro ⟨x, v, fs, rfl, -, h⟩
    obtain ⟨rfl, rfl, -⟩ := steps_ofExcept_iff.mp h
    exact ⟨x, rfl, rfl⟩
  · rintro ⟨x, rfl, rfl⟩
    exact ⟨x, (), [], rfl, trivial, steps_ofExcept_iff.mpr ⟨rfl, rfl, rfl⟩⟩

theorem steps_tellAt_iff {l : Option String} {y : Except Error ProgressOutcome} :
    Steps free (tellAt size l).run () es (done y) () ↔ Told size (.ok l) es y := by
  cases l with
  | none =>
      rw [tellAt, steps_pure_iff]
      constructor
      · rintro ⟨rfl, rfl, -⟩
        exact .gaveUp
      · rintro ⟨⟩
        exact ⟨rfl, rfl, rfl⟩
  | some path =>
      rw [tellAt, steps_map_iff]
      simp only [steps_artifactSize_iff]
      constructor
      · rintro ⟨_, ⟨x, rfl, rfl⟩, rfl⟩
        exact .found path x
      · rintro ⟨⟩
        exact ⟨_, ⟨_, rfl, rfl⟩, rfl⟩

theorem steps_whenLocated_iff {attempts : Nat} {y : Except Error ProgressOutcome} :
    Steps free (whenLocated d attempts (some size)).run () es (done y) () ↔
      ∃ missed x after, es = waitedFor (missed ++ [x]) ++ after ∧
        Waited (attempts - 1 + 1) missed x ∧ Told size (locationIn d x) after y := by
  rw [whenLocated, steps_run_bind_iff]
  constructor
  · rintro (⟨l, v, fs, gs, rfl, hl, hs⟩ | ⟨e, he, rfl⟩)
    · obtain ⟨missed, x, rfl, hw, hx⟩ := (steps_awaitLocation_iff _).mp hl
      exact ⟨missed, x, gs, rfl, hw, hx ▸ steps_tellAt_iff.mp hs⟩
    · obtain ⟨missed, x, rfl, hw, hx⟩ := (steps_awaitLocation_iff _).mp he
      exact ⟨missed, x, [], (List.append_nil _).symm, hw, hx ▸ .failed e⟩
  · rintro ⟨missed, x, after, rfl, hw, ht⟩
    have hwait : Steps free (awaitLocation d (attempts - 1)).run () (waitedFor (missed ++ [x]))
        (done (locationIn d x)) () := (steps_awaitLocation_iff _).mpr ⟨missed, x, rfl, hw, rfl⟩
    cases hx : locationIn d x with
    | ok l =>
        rw [hx] at hwait ht
        exact .inl ⟨l, (), _, after, rfl, hwait, steps_tellAt_iff.mpr ht⟩
    | error e =>
        rw [hx] at hwait ht
        cases ht
        rw [List.append_nil]
        exact .inr ⟨e, hwait, rfl⟩

theorem told_waitingToStart_iff {l : Except Error (Option String)} :
    Told size l es (.ok .waitingToStart) ↔ l = .ok none ∧ es = [] := by
  constructor
  · intro h
    generalize hy : Except.ok ProgressOutcome.waitingToStart = y at h
    cases h with
    | failed e => cases hy
    | gaveUp => exact ⟨rfl, rfl⟩
    | found path x =>
        cases hsize : sizeFrom path x with
        | error e => simp [hsize, Except.map] at hy
        | ok a =>
            rw [hsize] at hy
            exact absurd (Except.ok.inj hy).symm (ProgressOutcome.ofSizes_ne_waitingToStart a size)
  · rintro ⟨rfl, rfl⟩
    exact .gaveUp

theorem steps_progress_iff {attempts : Nat} {y : Except Error ProgressOutcome} :
    Steps free (progress d attempts).run () es (done y) () ↔
      Steps free (awaited d).run () es (done (.ok none)) () ∧ y = .ok .noDownloadStarted ∨
      (∃ e, Steps free (awaited d).run () es (done (.error e)) () ∧ y = .error e) ∨
      ∃ size before missed x after, es = before ++ waitedFor (missed ++ [x]) ++ after ∧
        Steps free (awaited d).run () before (done (.ok (some size))) () ∧
        Waited (attempts - 1 + 1) missed x ∧ Told size (locationIn d x) after y := by
  rw [progress_eq_awaited, steps_run_bind_iff]
  constructor
  · rintro (⟨a, v, fs, gs, rfl, ha, hs⟩ | he)
    · cases a with
      | none =>
          obtain ⟨rfl, rfl, -⟩ := steps_pure_iff.mp hs
          rw [List.append_nil]
          exact .inl ⟨ha, rfl⟩
      | some size =>
          obtain ⟨missed, x, after, rfl, hw, ht⟩ := steps_whenLocated_iff.mp hs
          exact .inr (.inr ⟨size, fs, missed, x, after, (List.append_assoc ..).symm, ha, hw, ht⟩)
    · exact .inr (.inl he)
  · rintro (⟨ha, rfl⟩ | he | ⟨size, before, missed, x, after, rfl, ha, hw, ht⟩)
    · exact .inl ⟨none, (), es, [], (List.append_nil es).symm, ha, steps_pure_iff.mpr ⟨rfl, rfl, rfl⟩⟩
    · exact .inr he
    · exact .inl ⟨some size, (), before, _, List.append_assoc .., ha,
        steps_whenLocated_iff.mpr ⟨missed, x, after, rfl, hw, ht⟩⟩

/-- A wait is its looks with one pause between two of them; there is at least one look, and at most
`attempts`. Its result is what the last look found. The looks before it found nothing, and if the
last one did not either, there were as many as are allowed. A run of `progress` pauses nowhere else,
and it tells that the download waits to start just if no look of the wait found anything. -/
theorem waits_for_location (d : WorkDir) (attempts : Nat) :
    (∀ es y, Steps free (awaitLocation d (attempts - 1)).run () es (done y) () ↔
      ∃ missed x, es = waitedFor (missed ++ [x]) ∧ Waited (max 1 attempts) missed x ∧
        y = locationIn d x) ∧
    (∀ seen : Nat → Sight, ∃ k, Waited (max 1 attempts) ((List.range k).map seen) (seen k) ∧
      Steps free (awaitLocation d (attempts - 1)).run ()
        (waitedFor ((List.range (k + 1)).map seen)) (done (locationIn d (seen k))) ()) ∧
    (∀ es y, Steps free (progress d attempts).run () es (done y) () ↔
      Steps free (awaited d).run () es (done (.ok none)) () ∧ y = .ok .noDownloadStarted ∨
      (∃ e, Steps free (awaited d).run () es (done (.error e)) () ∧ y = .error e) ∨
      ∃ size before missed x after, es = before ++ waitedFor (missed ++ [x]) ++ after ∧
        Steps free (awaited d).run () before (done (.ok (some size))) () ∧
        Waited (max 1 attempts) missed x ∧ Told size (locationIn d x) after y) ∧
    (∀ es, Steps free (progress d attempts).run () es (done (.ok .waitingToStart)) () ↔
      ∃ size before missed, es = before ++ waitedFor missed ∧
        Steps free (awaited d).run () before (done (.ok (some size))) () ∧
        missed.length = max 1 attempts ∧ ∀ x ∈ missed, Missing x) ∧
    Asks (· ≠ .pause) (awaited d).run := by
  have hmax : max 1 attempts = attempts - 1 + 1 := by omega
  rw [hmax]
  refine ⟨fun es y => steps_awaitLocation_iff _, fun seen => ?_, fun es y => steps_progress_iff,
    fun es => ?_, awaited_asks d⟩
  · obtain ⟨k, hk⟩ := exists_waited (attempts - 1) seen
    refine ⟨k, hk, (steps_awaitLocation_iff _).mpr ⟨_, _, ?_, hk, rfl⟩⟩
    rw [List.range_succ, List.map_append, List.map_singleton]
  · rw [steps_progress_iff]
    constructor
    · rintro (⟨-, h⟩ | ⟨e, -, h⟩ | ⟨size, before, missed, x, after, rfl, ha, hw, ht⟩)
      · cases h
      · cases h
      · obtain ⟨hx, rfl⟩ := told_waitingToStart_iff.mp ht
        have hmissing : Missing x := locationIn_eq_none_iff.mp hx
        refine ⟨size, before, missed ++ [x], List.append_nil _, ha, ?_, ?_⟩
        · simpa using hw.patient hmissing
        · simpa [or_imp, forall_and] using ⟨hw.missing, hmissing⟩
    · rintro ⟨size, before, seen, rfl, ha, hlength, hmissing⟩
      obtain ⟨missed, x, rfl⟩ : ∃ missed x, seen = missed ++ [x] :=
        ⟨_, _, (List.dropLast_concat_getLast (List.ne_nil_of_length_pos (by omega))).symm⟩
      obtain ⟨hmissed, hx⟩ := List.forall_mem_append.mp hmissing
      have hlast : Missing x := hx x (List.mem_singleton_self x)
      rw [List.length_append, List.length_singleton] at hlength
      refine .inr (.inr ⟨size, before, missed, x, [], (List.append_nil _).symm, ha,
        ⟨hmissed, Nat.le_of_eq hlength, fun _ => hlength⟩, ?_⟩)
      exact told_waitingToStart_iff.mpr ⟨locationIn_eq_none_iff.mpr hlast, rfl⟩

end Staging

end Dualbank
