import Dualbank.Proofs.Files
import Dualbank.Proofs.Plan.Outcome
import Dualbank.Proofs.Progress.Percent

namespace Dualbank

open Plan Routine Text
open MonadExcept (ofExcept)
open ProgressOutcome (NoFurther exact)

namespace Staging

inductive Sought
  | clear (o : ProgressOutcome)
  | artifact (path : String) (expected : Nat)

namespace Sought

/-- All that is clear beforehand is that nothing is there yet, and no size to divide by is zero. -/
def Sound : Sought → Prop
  | clear o => o = .noDownloadStarted ∨ o = .waitingToStart
  | artifact _ n => n ≠ 0

end Sought

def sought (d : WorkDir) (attempts : Nat) : Routine Sought := do
  if !(← d.has .download) then return .clear .noDownloadStarted
  match ← announced d with
  | none => return .clear .noDownloadStarted
  | some a =>
    if a.size = 0 then throw (.invalidDescriptor .zeroSize)
    match ← awaitLocation d (attempts - 1) with
    | none => return .clear .waitingToStart
    | some path => return .artifact path a.size

def measured (tell : Nat → Nat → ProgressOutcome) : Sought → Routine ProgressOutcome
  | .clear o => return o
  | .artifact path n => return tell (← artifactSize path) n

def sizeFrom (path : String) : Except OsError FileKind → Except Error Nat
  | .ok (.regular n) => .ok n
  | .ok .other => .error (.invalidDescriptor (.notRegular path))
  | .error e => if e.isNotFound then .ok 0 else .error (.io (.measuring path) e)

/-- An artifact seen twice: it has grown, or nothing has changed. -/
def Grown (path : String) (x y : Except OsError FileKind) : Prop :=
  x = y ∨ ∃ a b, sizeFrom path x = .ok a ∧ sizeFrom path y = .ok b ∧ a ≤ b

/-- Two runs, the second of which is at least as far as the first; or neither can tell. -/
inductive Behind : Except Error ProgressOutcome → Except Error ProgressOutcome → Prop
  | told {o o' : ProgressOutcome} (h : NoFurther o o') : Behind (.ok o) (.ok o')
  | failed (e : Error) : Behind (.error e) (.error e)

variable {W : Type} {answer answer' : (q : Call) → StateM W q.Answer} {d : WorkDir}
  {attempts a b n : Nat}

def Announces (answer : (q : Call) → StateM W q.Answer) (n : Nat) : Prop :=
  ∃ type version size t v, Always answer (.read .type) (.ok type) ∧
    Always answer (.read .version) (.ok version) ∧ Always answer (.read .size) (.ok size) ∧
    Announcement.ofTexts (trim type) (trim version) (trim size) =
      .ok fun source => ⟨t, v, n, source⟩

structure Downloading (answer : (q : Call) → StateM W q.Answer) (d : WorkDir) (a n : Nat) :
    Prop where
  requested : Always answer (.has .download) (.ok true)
  announced : Announces answer n
  located : ∃ l x, Always answer (.read .location) (.ok l) ∧ (trim l).isEmpty = false ∧
    Always answer (.inspect (Path.join d.path (trim l))) x ∧
    sizeFrom (Path.join d.path (trim l)) x = .ok a

theorem progress_eq (d : WorkDir) (attempts : Nat) :
    progress d attempts = sought d attempts >>= measured .ofSizes := by
  unfold progress sought
  simp only [LawfulMonad.bind_assoc]
  congr 1
  funext requested
  cases requested with
  | false => rfl
  | true =>
      simp only [Bool.not_true, Bool.false_eq_true, if_false, LawfulMonad.bind_assoc]
      congr 1
      funext announcement
      cases announcement with
      | none => rfl
      | some a =>
          dsimp only
          split
          · rfl
          · simp only [LawfulMonad.bind_assoc]
            congr 1
            funext l
            cases l <;> rfl

theorem sought_asks (d : WorkDir) (attempts : Nat) :
    Asks (fun q => ∀ path, q ≠ .inspect path) (sought d attempts).run := by
  apply asks_run_bind (WorkDir.has_asks fun _ => nofun)
  intro requested
  split
  · exact trivial
  · apply asks_run_bind (announced_asks fun _ _ => nofun)
    intro announcement
    split
    · exact trivial
    · split
      · exact trivial
      · apply asks_run_bind (awaitLocation_asks (fun _ => nofun) (fun _ => nofun) _)
        intro l
        split <;> exact trivial

theorem sought_sound (d : WorkDir) (attempts : Nat) (w : W) :
    SureOr (fun _ _ _ _ => True) (fun _ => True) (sought d attempts) w (fun x _ => x.Sound)
      fun _ _ => True := by
  have anything {α : Type} {r : Routine α} {w : W} (h : Asks (fun _ => True) r.run) :
      SureOr (fun _ _ _ _ => True) (fun _ => True) r w (fun _ _ => True) fun _ _ => True :=
    h.sureOr (fun _ _ _ _ _ _ _ => ⟨trivial, trivial⟩) trivial
  refine (anything (WorkDir.has_asks trivial)).bind fun requested w _ => ?_
  split
  · exact .inl rfl
  refine (anything (announced_asks fun _ => trivial)).bind fun announcement w _ => ?_
  split
  · exact .inl rfl
  split
  · exact trivial
  case isFalse hsize =>
    refine (anything (awaitLocation_asks trivial trivial _)).bind fun l w _ => ?_
    split
    · exact .inr rfl
    · exact hsize

def conclude (look : String → Except OsError FileKind) : Sought → Except Error ProgressOutcome
  | .clear o => .ok o
  | .artifact path n => (sizeFrom path (look path)).map fun a => .ofSizes a n

theorem artifactSize_eq (path : String) :
    artifactSize path = (do ofExcept (sizeFrom path (← ask (.inspect path)))) := by
  unfold artifactSize
  congr 1
  funext x
  rcases x with e | size | _
  · dsimp only [sizeFrom]
    split <;> rfl
  · rfl
  · rfl

theorem outcome_measured (s : Sought) (w : W) : outcome answer (measured .ofSizes s).run w =
    conclude (fun path => (answer (.inspect path) w).1) s := by
  cases s with
  | clear o => rfl
  | artifact path n =>
      rw [measured, artifactSize_eq, outcome_run_bind, Routine.ask,
        outcome_run_ask_bind, outcome_run_ofExcept]
      rfl

theorem outcome_progress (w : W) : outcome answer (progress d attempts).run w =
    outcome answer (sought d attempts).run w >>= conclude fun path =>
      (answer (.inspect path) ((sought d attempts).run.run answer w).2).1 := by
  rw [progress_eq, outcome_run_bind]
  exact congrArg _ (funext fun s => outcome_measured s _)

theorem conclude_behind {look look' : String → Except OsError FileKind}
    (h : ∀ path, Grown path (look path) (look' path)) (s : Sought) :
    Behind (conclude look s) (conclude look' s) := by
  cases s with
  | clear o => exact .told (.refl o)
  | artifact path n =>
      rcases h path with hsame | ⟨a, b, ha, hb, hle⟩
      · rw [conclude, conclude, ← hsame]
        cases sizeFrom path (look path) with
        | ok a => exact .told (.refl _)
        | error e => exact .failed e
      · rw [conclude, conclude, ha, hb]
        exact .told (ProgressOutcome.ofSizes_mono hle n)

theorem conclude_percent {look : String → Except OsError FileKind} {s : Sought} {p : Nat}
    (hs : s.Sound) (h : conclude look s = .ok (.inProgress p)) : 1 ≤ p ∧ p ≤ 99 := by
  rcases s with o | ⟨path, n⟩
  · obtain rfl := Except.ok.inj h
    rcases hs with hs | hs <;> cases hs
  · rw [conclude] at h
    cases hsize : sizeFrom path (look path) with
    | ok a =>
        rw [hsize] at h
        exact ProgressOutcome.ofSizes_eq_inProgress (Except.ok.inj h)
    | error e =>
        rw [hsize] at h
        cases h

theorem progress_behind (hq : ∀ q, (∀ path, q ≠ .inspect path) → answer q = answer' q)
    (hi : ∀ path w, Grown path (answer (.inspect path) w).1 (answer' (.inspect path) w).1) (w : W) :
    Behind (outcome answer (progress d attempts).run w)
      (outcome answer' (progress d attempts).run w) := by
  rw [outcome_progress, outcome_progress, outcome, outcome,
    ← (sought_asks d attempts).run_congr hq w]
  cases ((sought d attempts).run.run answer w).1 with
  | error e => exact .failed e
  | ok s => exact conclude_behind (fun path => hi path _) s

theorem progress_percent {w : W} {p : Nat}
    (h : outcome answer (progress d attempts).run w = .ok (.inProgress p)) : 1 ≤ p ∧ p ≤ 99 := by
  have hsound := Sure.outcome (sought_sound d attempts w) answer fun _ _ => trivial
  rw [outcome_progress] at h
  cases hsought : outcome answer (sought d attempts).run w with
  | error e =>
      rw [hsought] at h
      cases h
  | ok s =>
      rw [hsought] at h hsound
      exact conclude_percent hsound h

/-- What follows the search does not depend on what a rule says for an expected size of zero. -/
theorem sought_bind_measured {tell : Nat → Nat → ProgressOutcome}
    (h : ∀ a n, n ≠ 0 → tell a n = .ofSizes a n) :
    sought d attempts >>= measured tell = progress d attempts := by
  rw [progress_eq]
  refine Sure.bind_congr (Sure.mono (sought_sound d attempts ()) fun x _ hx => ?_)
  rcases x with e | o | ⟨path, n⟩
  · rfl
  · rfl
  · have htell : (fun a => tell a n) = fun a => ProgressOutcome.ofSizes a n :=
      funext fun a => h a n hx
    exact congrArg (fun g => (g <$> artifactSize path : Routine ProgressOutcome)) htell

theorem has_yields {m : Marker} {b : Bool} (h : Always answer (.has m) (.ok b)) :
    Yields answer (d.has m).run (.ok b) :=
  Yields.ask_bind h (yields_done _)

theorem read_yields {f : Descriptor} {x : Except OsError String} (h : Always answer (.read f) x)
    (hx : ∀ e, x = .error e → e.isNotFound) :
    Yields answer (d.read f).run (.ok (x.toOption.map trim)) := by
  refine Yields.ask_bind h ?_
  cases x with
  | ok s => exact yields_done _
  | error e =>
      dsimp only
      rw [if_pos (hx e rfl)]
      exact yields_done _

theorem location_yields {x : Except OsError String} (h : Always answer (.read .location) x)
    (hx : ∀ e, x = .error e → e.isNotFound) : Yields answer d.location.run
      (.ok ((x.toOption.map trim).bind fun l =>
        if l.isEmpty then none else some (Path.join d.path l))) :=
  (read_yields h hx).bind_ok (yields_done _)

theorem announced_yields {l : Option String} (h : Announces answer n)
    (hl : Yields answer d.location.run (.ok l)) :
    ∃ t v, Yields answer (announced d).run (.ok (some ⟨t, v, n, l⟩)) := by
  obtain ⟨type, version, size, t, v, htype, hversion, hsize, htexts⟩ := h
  refine ⟨t, v, (read_yields htype nofun).bind_ok <| (read_yields hversion nofun).bind_ok <|
    (read_yields hsize nofun).bind_ok ?_⟩
  dsimp only [Except.toOption, Option.map]
  rw [htexts]
  exact hl.bind_ok (yields_done _)

theorem awaitLocation_yields {l : String} (h : Yields answer d.location.run (.ok (some l)))
    (n : Nat) : Yields answer (awaitLocation d n).run (.ok (some l)) := by
  cases n with
  | zero => exact h
  | succ n => exact h.bind_ok (yields_done _)

theorem artifactSize_yields {path : String} {x : Except OsError FileKind}
    (h : Always answer (.inspect path) x) :
    Yields answer (artifactSize path).run (sizeFrom path x) := by
  rw [artifactSize_eq]
  exact Yields.ask_bind h fun _ => outcome_run_ofExcept _ _

theorem progress_yields (h : Downloading answer d a n) (hn : n ≠ 0) (attempts : Nat) :
    Yields answer (progress d attempts).run (.ok (.ofSizes a n)) := by
  obtain ⟨l, x, hl, hblank, hx, hsize⟩ := h.located
  have hlocation : Yields answer d.location.run (.ok (some (Path.join d.path (trim l)))) := by
    have hread := location_yields (d := d) hl nofun
    rwa [Except.toOption, Option.map_some, Option.bind_some, if_neg (by simp [hblank])] at hread
  have hbytes := artifactSize_yields hx
  rw [hsize] at hbytes
  obtain ⟨t, v, hannounced⟩ := announced_yields h.announced hlocation
  refine (has_yields h.requested).bind_ok (hannounced.bind_ok ?_)
  dsimp only
  rw [if_neg hn]
  exact (awaitLocation_yields hlocation _).bind_ok (hbytes.bind_ok (yields_done _))

theorem progress_yields_zeroSize {x : Except OsError String}
    (hrequested : Always answer (.has .download) (.ok true)) (hannounced : Announces answer 0)
    (hl : Always answer (.read .location) x) (hx : ∀ e, x = .error e → e.isNotFound)
    (attempts : Nat) :
    Yields answer (progress d attempts).run (.error (.invalidDescriptor .zeroSize)) := by
  obtain ⟨t, v, h⟩ := announced_yields hannounced (location_yields hl hx)
  exact (has_yields hrequested).bind_ok (h.bind_ok (yields_done _))

def downloaded (size : Nat) (announced : String) : (q : Call) → StateM Unit q.Answer
  | .readPhase => pure (.ok .idle)
  | .isRebooted _ | .isBad .. | .has _ => pure (.ok true)
  | .installedVersion _ => pure (.ok ⟨1⟩)
  | .read .type => pure (.ok "firmware\n")
  | .read .version => pure (.ok "2\n")
  | .read .size => pure (.ok announced)
  | .read .location => pure (.ok "/run/artifact\n")
  | .inspect _ => pure (.ok (.regular size))
  | .writePhase _ | .markBad .. | .install .. | .switch _ | .reboot | .create _ | .remove _ =>
    pure (.ok ())
  | .pause | .print .. | .log _ => pure ()

theorem announces_downloaded {size : Nat} {text : String}
    (h : readNat maxU64 (trim text).toList = .ok n) : Announces (downloaded size text) n := by
  refine ⟨_, _, text, .firmware, ⟨2⟩, fun _ => rfl, fun _ => rfl, fun _ => rfl, ?_⟩
  unfold Announcement.ofTexts
  rw [h]
  rfl

theorem downloading_downloaded {size : Nat} {text : String}
    (h : readNat maxU64 (trim text).toList = .ok n) :
    Downloading (downloaded size text) d size n :=
  ⟨fun _ => rfl, announces_downloaded h, _, _, fun _ => rfl, by decide, fun _ => rfl, rfl⟩

/-- The outcome is the exact one while a hundred times either size fits into 64 bits, and beyond
where the cut product has the same quotient. Otherwise it is the cut percentage. -/
theorem progress_exact_iff (h : Downloading answer d a n) (hn : 1 ≤ n) (hmax : n ≤ maxU64)
    (attempts : Nat) (w : W) :
    (outcome answer (progress d attempts).run w = .ok (exact a n) ↔
      100 * a ≤ maxU64 ∨ 100 * n ≤ maxU64 ∨ 100 * a / n = maxU64 / n) ∧
    (outcome answer (progress d attempts).run w ≠ .ok (exact a n) →
      outcome answer (progress d attempts).run w = .ok (.inProgress (maxU64 / n)) ∧
        NoFurther (.inProgress (maxU64 / n)) (exact a n)) := by
  have hiff := ProgressOutcome.ofSizes_eq_exact_iff (a := a) hn hmax
  rw [progress_yields h (by omega) attempts w, ne_eq, Except.ok.injEq]
  refine ⟨hiff, fun hne => ?_⟩
  obtain ⟨ha, hbig, -⟩ : maxU64 < 100 * a ∧ maxU64 < 100 * n ∧ 100 * a / n ≠ maxU64 / n := by
    simpa only [not_or, Nat.not_le] using mt hiff.mpr hne
  have hcut := ProgressOutcome.ofSizes_of_both_exceed hmax ha hbig
  exact ⟨congrArg Except.ok hcut, hcut ▸ ProgressOutcome.ofSizes_noFurther_exact hn a⟩

theorem three_of_five_bytes : Downloading (downloaded 3 "5\n") ⟨"/data"⟩ 3 5 ∧
    outcome (downloaded 3 "5\n") (progress ⟨"/data"⟩ 5).run () = .ok (.inProgress 60) := by
  have h : Downloading (downloaded 3 "5\n") ⟨"/data"⟩ 3 5 := downloading_downloaded rfl
  exact ⟨h, (progress_exact_iff h (by decide) (by decide) 5 ()).1.mpr (.inl (by decide))⟩

/-- A download of two hundred quadrillion bytes is complete, and stays at ninety-two percent. -/
theorem complete_download_unfinished :
    ¬∀ (answer : (q : Call) → StateM Unit q.Answer) (a n : Nat), 1 ≤ n → n ≤ maxU64 → a ≤ maxU64 →
      Downloading answer ⟨"/data"⟩ a n →
      Yields answer (progress ⟨"/data"⟩ 5).run (.ok (exact a n)) := by
  intro h
  have hd : Downloading (downloaded 200000000000000000 "200000000000000000\n") ⟨"/data"⟩
      200000000000000000 200000000000000000 := downloading_downloaded rfl
  have hexact := h _ _ _ (by decide) (by decide) (by decide) hd ()
  rw [progress_yields hd (by decide) 5 ()] at hexact
  exact absurd (Except.ok.inj hexact) (by decide)

/-- As the artifact grows, the outcome never falls. A percentage is one of 1 to 99, no rule about an
expected size of zero is ever used, and that size is refused. -/
theorem progress_never_falls (d : WorkDir) (attempts : Nat) :
    (∀ {W : Type} (answer answer' : (q : Call) → StateM W q.Answer) (a b n : Nat),
      Downloading answer d a n → Downloading answer' d b n → n ≠ 0 → a ≤ b → ∀ w w',
        ∃ o o', outcome answer (progress d attempts).run w = .ok o ∧
          outcome answer' (progress d attempts).run w' = .ok o' ∧ NoFurther o o') ∧
    (∀ {W : Type} (answer answer' : (q : Call) → StateM W q.Answer),
      (∀ q, (∀ path, q ≠ .inspect path) → answer q = answer' q) →
      (∀ path w, Grown path (answer (.inspect path) w).1 (answer' (.inspect path) w).1) →
      ∀ w, Behind (outcome answer (progress d attempts).run w)
        (outcome answer' (progress d attempts).run w)) ∧
    (∀ {W : Type} (answer : (q : Call) → StateM W q.Answer) (w : W) (p : Nat),
      outcome answer (progress d attempts).run w = .ok (.inProgress p) → 1 ≤ p ∧ p ≤ 99) ∧
    (∀ tell : Nat → Nat → ProgressOutcome, (∀ a n, n ≠ 0 → tell a n = .ofSizes a n) →
      sought d attempts >>= measured tell = progress d attempts) ∧
    ∀ {W : Type} (answer : (q : Call) → StateM W q.Answer) (x : Except OsError String),
      Always answer (.has .download) (.ok true) → Announces answer 0 →
      Always answer (.read .location) x → (∀ e, x = .error e → e.isNotFound) →
      Yields answer (progress d attempts).run (.error (.invalidDescriptor .zeroSize)) := by
  refine ⟨fun answer answer' a b n h h' hn hab w w' => ?_, fun answer answer' hq hi w =>
    progress_behind hq hi w, fun answer w p => progress_percent, fun tell => sought_bind_measured,
    fun answer x hrequested hannounced hl hx =>
      progress_yields_zeroSize hrequested hannounced hl hx attempts⟩
  exact ⟨_, _, progress_yields h hn attempts w, progress_yields h' hn attempts w',
    ProgressOutcome.ofSizes_mono hab n⟩

theorem forty_then_sixty_percent :
    (∃ o o', outcome (downloaded 2 "5\n") (progress ⟨"/data"⟩ 5).run () = .ok o ∧
      outcome (downloaded 3 "5\n") (progress ⟨"/data"⟩ 5).run () = .ok o' ∧ NoFurther o o') ∧
    Yields (downloaded 3 "0\n") (progress ⟨"/data"⟩ 5).run
      (.error (.invalidDescriptor .zeroSize)) := by
  obtain ⟨hgrows, -, -, -, hzero⟩ := progress_never_falls ⟨"/data"⟩ 5
  refine ⟨hgrows (downloaded 2 "5\n") (downloaded 3 "5\n") 2 3 5 (downloading_downloaded rfl)
    (downloading_downloaded rfl) (by decide) (by decide) () (), ?_⟩
  exact hzero (downloaded 3 "0\n") (.ok "/run/artifact\n") (fun _ => rfl)
    (announces_downloaded rfl) (fun _ => rfl) nofun

end Staging

end Dualbank
