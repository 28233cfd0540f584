import Dualbank.Proofs.Footprint
import Dualbank.Proofs.Plan.Finishes
import Dualbank.Proofs.Plan.Race

namespace Dualbank

open Plan Routine

namespace Call

/-- The answers of a directory that others change between two calls. A creation is exclusive; any
call may fail for a reason of its own. -/
def shared : Rules Answer Directory
  | read f, w, x, w' => w' = w ∧ (∀ s, x = .ok s → w (.descriptor f) = some s) ∧
      ∀ e, x = .error e → e.isNotFound → w (.descriptor f) = none
  | has m, w, x, w' => w' = w ∧ ∀ b, x = .ok b → (w (.marker m)).isSome = b
  | create m, w, .ok (), w' =>
      w (.marker m) = none ∧ w' = Function.update w (.marker m) (some "")
  | create m, w, .error e, w' => w' = w ∧ (e.isAlreadyPresent → (w (.marker m)).isSome)
  | remove e, w, x, w' => w' = Function.update w e none ∨ w' = w ∧ ∃ c, x = .error c
  | _, w, _, w' => w' = w

end Call

def FindsMissing : Event Call.Answer Unit → Prop
  | ⟨.read f, .error e, _, _⟩ => f ≠ .location ∧ e.isNotFound
  | _ => False

def FailsToRead : Event Call.Answer Unit → Prop
  | ⟨.read _, .error e, _, _⟩ => ¬e.isNotFound
  | _ => False

def Has (sort : Event Call.Answer Unit → Prop) (es : List (Event Call.Answer Unit)) : Prop :=
  ∃ e ∈ es, sort e

def readAs (f : Descriptor) (s : String) : Event Call.Answer Unit := ⟨.read f, .ok s, (), ()⟩

/-- The files that have to be there were read, and their texts make an announcement. -/
def ReadsAnnouncement (es : List (Event Call.Answer Unit)) : Prop :=
  ∃ s : Descriptor → String, (∀ f ≠ .location, readAs f (s f) ∈ es) ∧
    ∃ a, Announcement.ofTexts (Text.trim (s .type)) (Text.trim (s .version))
      (Text.trim (s .size)) = .ok a

def createdWith (x : Except OsError Unit) : Event Call.Answer Unit :=
  ⟨.create .download, x, (), ()⟩

def downloadOutcome : Except OsError Unit → DownloadOutcome
  | .ok () => .started
  | .error e => if e.isAlreadyPresent then .startedBefore else .failed

variable {d : WorkDir} {sort : Event Call.Answer Unit → Prop}
  {es fs : List (Event Call.Answer Unit)}

@[simp] theorem has_nil : ¬Has sort [] := by
  simp [Has]

@[simp] theorem has_cons {e : Event Call.Answer Unit} :
    Has sort (e :: es) ↔ sort e ∨ Has sort es := by
  simp [Has]

@[simp] theorem has_append : Has sort (es ++ fs) ↔ Has sort es ∨ Has sort fs := by
  simp only [Has, List.mem_append, or_and_right, exists_or]

theorem ReadsAnnouncement.append (h : ReadsAnnouncement es) : ReadsAnnouncement (es ++ fs) := by
  obtain ⟨s, hread, ha⟩ := h
  exact ⟨s, fun f hf => List.mem_append_left _ (hread f hf), ha⟩

theorem WorkDir.read_finishes (d : WorkDir) (f : Descriptor) :
    FinishesOr free (d.read f) ()
      (fun o es _ => (Has FindsMissing es ↔ f ≠ .location ∧ o = none) ∧
        ∀ t, o = some t → ∃ s, Text.trim s = t ∧ readAs f s ∈ es)
      fun _ es _ => Has FailsToRead es := by
  apply finishesOr_ask_bind.mpr
  rintro x ⟨⟩ -
  cases x with
  | ok s => exact finishesOr_pure.mpr (by simp [FindsMissing, readAs])
  | error e =>
      dsimp only
      by_cases he : e.isNotFound
      · rw [if_pos he]
        exact finishesOr_pure.mpr (by simp [FindsMissing, he])
      · rw [if_neg he]
        exact finishesOr_throw.mpr (by simp [FailsToRead, he])

theorem WorkDir.location_finishes (d : WorkDir) :
    FinishesOr free d.location () (fun _ es _ => ¬Has FindsMissing es)
      fun _ es _ => Has FailsToRead es := by
  refine finishesOr_bind.mpr ((d.read_finishes .location).mono ?_ fun _ _ _ h => h)
  intro o es w h
  refine finishesOr_pure.mpr ?_
  simp [h.1]

theorem readsAnnouncement_of_texts {es₁ es₂ es₃ : List (Event Call.Answer Unit)} {t v n : String}
    {a : Option String → Announcement} (ha : Announcement.ofTexts t v n = .ok a)
    (ht : ∃ s, Text.trim s = t ∧ readAs .type s ∈ es₁)
    (hv : ∃ s, Text.trim s = v ∧ readAs .version s ∈ es₂)
    (hn : ∃ s, Text.trim s = n ∧ readAs .size s ∈ es₃) :
    ReadsAnnouncement (es₁ ++ (es₂ ++ es₃)) := by
  obtain ⟨t, rfl, ht⟩ := ht
  obtain ⟨v, rfl, hv⟩ := hv
  obtain ⟨n, rfl, hn⟩ := hn
  refine ⟨fun f => if f = .type then t else if f = .version then v else n, ?_, a, ha⟩
  intro f hf
  cases f with
  | type => simp [ht]
  | version => simp [hv]
  | size => simp [hn]
  | location => exact absurd rfl hf

theorem Staging.announced_finishes (d : WorkDir) :
    FinishesOr free (announced d) ()
      (fun a es _ => (Has FindsMissing es ↔ a = none) ∧ (a ≠ none → ReadsAnnouncement es))
      fun _ es _ => Has FindsMissing es → Has FailsToRead es := by
  refine finishesOr_bind.mpr ((d.read_finishes .type).mono ?_ fun _ _ _ h _ => h)
  rintro type es₁ _ ⟨h₁, ht⟩
  refine finishesOr_bind.mpr ((d.read_finishes .version).mono ?_ fun _ _ _ h _ => by simp [h])
  rintro version es₂ _ ⟨h₂, hv⟩
  refine finishesOr_bind.mpr ((d.read_finishes .size).mono ?_ fun _ _ _ h _ => by simp [h])
  rintro size es₃ _ ⟨h₃, hn⟩
  have hnone (h : type = none ∨ version = none ∨ size = none) :
      FinishesOr free (pure none : Routine (Option Announcement)) ()
        (fun a es _ => (Has FindsMissing (es₁ ++ (es₂ ++ (es₃ ++ es))) ↔ a = none) ∧
          (a ≠ none → ReadsAnnouncement (es₁ ++ (es₂ ++ (es₃ ++ es)))))
        fun _ es _ => Has FindsMissing (es₁ ++ (es₂ ++ (es₃ ++ es))) →
          Has FailsToRead (es₁ ++ (es₂ ++ (es₃ ++ es))) := by
    refine finishesOr_pure.mpr ?_
    simpa [h₁, h₂, h₃] using h
  rcases type with _ | t
  · exact hnone (.inl rfl)
  rcases version with _ | v
  · exact hnone (.inr (.inl rfl))
  rcases size with _ | n
  · exact hnone (.inr (.inr rfl))
  dsimp only
  refine finishesOr_bind.mpr ((finishesOr_ofExcept _).mpr ?_)
  cases ha : Announcement.ofTexts t v n with
  | error e => simp [h₁, h₂, h₃]
  | ok announcement =>
      refine finishesOr_bind.mpr (d.location_finishes.mono ?_ fun _ _ _ h _ => by simp [h])
      intro l es _ h
      refine finishesOr_pure.mpr ⟨by simp [h₁, h₂, h₃, h], fun _ => ?_⟩
      have hread := readsAnnouncement_of_texts ha (ht t rfl) (hv v rfl) (hn n rfl)
      simpa using hread.append

theorem createdWith_inj {x y : Except OsError Unit} : createdWith x = createdWith y ↔ x = y := by
  simp [createdWith]

theorem downloadOutcome_ne_notQueued (x : Except OsError Unit) :
    downloadOutcome x ≠ .notQueued := by
  cases x with
  | ok u => exact DownloadOutcome.noConfusion
  | error e =>
      dsimp only [downloadOutcome]
      split
      · exact DownloadOutcome.noConfusion
      · exact DownloadOutcome.noConfusion

theorem downloadOutcome_eq_started {x : Except OsError Unit} :
    downloadOutcome x = .started ↔ x = .ok () := by
  cases x with
  | ok u => simp [downloadOutcome]
  | error e => by_cases he : e.isAlreadyPresent <;> simp [downloadOutcome, he]

theorem downloadOutcome_eq_startedBefore {x : Except OsError Unit} :
    downloadOutcome x = .startedBefore ↔ ∃ e, e.isAlreadyPresent ∧ x = .error e := by
  cases x with
  | ok u => simp [downloadOutcome]
  | error e => simp [downloadOutcome]

def Staging.requestDownload : Routine DownloadOutcome := do
  match ← WorkDir.create .download with
  | .ok .created => return .started
  | .ok .alreadyPresent => return .startedBefore
  | .error _ => return .failed

theorem Staging.requestDownload_eq :
    requestDownload.run = .ask (.create .download) fun x => .done (.ok (downloadOutcome x)) := by
  unfold requestDownload WorkDir.create
  refine congrArg (Plan.ask _) (funext fun x => ?_)
  cases x with
  | ok u => rfl
  | error e =>
      dsimp only [Plan.bind, ExceptT.bindCont, Function.comp, Plan.pure_eq_done, downloadOutcome]
      generalize e.isAlreadyPresent = b
      cases b with
      | true => rfl
      | false => rfl

theorem Staging.download_eq (d : WorkDir) : download d = (do
    if (← announced d).isNone then return .notQueued
    requestDownload) := rfl

theorem Staging.download_finishes (d : WorkDir) :
    FinishesOr free (download d) ()
      (fun o es _ => (o = .notQueued ∧ Has FindsMissing es) ∨
        ∃ x, o = downloadOutcome x ∧ createdWith x ∈ es ∧ ¬Has FindsMissing es ∧
          ReadsAnnouncement es)
      fun _ es _ => Has FindsMissing es → Has FailsToRead es := by
  rw [download_eq]
  refine finishesOr_bind.mpr ((announced_finishes d).mono ?_ fun _ _ _ h => h)
  rintro a es _ ⟨h, hread⟩
  cases a with
  | none => exact finishesOr_pure.mpr (.inl ⟨rfl, by simp [h]⟩)
  | some a =>
      change FinishesOr free requestDownload () _ _
      unfold FinishesOr
      rw [requestDownload_eq]
      refine finishes_ask.mpr fun x _ _ => finishes_done.mpr (.inr ⟨x, rfl, ?_, ?_, ?_⟩)
      · simp [createdWith]
      · simp [h, FindsMissing]
      · exact (hread nofun).append

/-- The creation is the last that a request asks for, and decides how it ends. -/
theorem Staging.done_of_created {q : Plan Call.Answer (Except Error DownloadOutcome)}
    {x : Except OsError Unit} (hs : Steps free (download d).run () es q ())
    (hx : createdWith x ∈ es) : q = .done (.ok (downloadOutcome x)) := by
  rw [download_eq] at hs
  -- The descriptor is only read, so the creation is none of its calls.
  have hreads {q : Plan Call.Answer (Except Error (Option Announcement))} {fs}
      (hs : Steps free (announced d).run () fs q ()) : createdWith x ∉ fs := by
    intro hmem
    have hasks : Asks (fun q => ∃ f, q = .read f) (announced d).run :=
      announced_asks fun f => ⟨f, rfl⟩
    obtain ⟨f, hf⟩ := hasks.of_mem hs _ hmem
    cases hf
  rcases Steps.bind_cases hs with ⟨p', -, hp⟩ | ⟨a, _, fs, gs, rfl, hp, hf⟩
  · exact absurd hx (hreads hp)
  · rcases List.mem_append.mp hx with hx | hx
    · exact absurd hx (hreads hp)
    · cases a with
      | error e =>
          cases hf
          cases hx
      | ok a =>
          cases a with
          | none =>
              cases hf
              cases hx
          | some a =>
              change Steps free requestDownload.run () gs q () at hf
              rw [requestDownload_eq] at hf
              cases hf with
              | refl => cases hx
              | @ask _ _ y _ _ _ _ _ _ hf =>
                  cases hf
                  have hy : createdWith x = createdWith y := List.mem_singleton.mp hx
                  rw [createdWith_inj.mp hy]

def RemovesMarker {ι : Type} : Move Call.Answer Directory ι → Prop
  | .other b a => (b (.marker .download)).isSome ∧ a (.marker .download) = none
  | .call _ _ => False

variable {ι : Type} [DecidableEq ι] {i j : ι} {w w' : Directory} {x : Except OsError Unit}
  {ms xs ys zs : List (Move Call.Answer Directory ι)}
  {pool pool' : ι → Plan Call.Answer (Except Error DownloadOutcome)}

theorem createdWith_mem_asked : createdWith x ∈ asked i ms ↔
    ∃ b a, .call i ⟨.create .download, x, b, a⟩ ∈ ms := by
  rw [mem_asked]
  constructor
  · rintro ⟨⟨q, y, b, a⟩, hmem, heq⟩
    cases heq
    exact ⟨b, a, hmem⟩
  · rintro ⟨b, a, hmem⟩
    exact ⟨_, hmem, rfl⟩

theorem Call.shared_cases {q : Call} {x : q.Answer} (hq : Operation.download.MayAsk q)
    (hx : shared q w x w') :
    w' = w ∨ (⟨q, x, (), ()⟩ : Event Call.Answer Unit) = createdWith (.ok ()) ∧
      w (.marker .download) = none ∧ (w' (.marker .download)).isSome := by
  cases q with
  | read f => exact .inl hx.1
  | create m =>
      cases m with
      | download =>
          cases x with
          | ok u =>
              obtain ⟨hw, rfl⟩ := hx
              exact .inr ⟨rfl, hw, by simp⟩
          | error e => exact .inl hx.1
      | _ => exact hq.elim
  | _ => exact hq.elim

theorem exists_removesMarker (h : Race Call.shared pool w ms pool' w')
    (hq : ∀ i e, .call i e ∈ ms → Operation.download.MayAsk e.question)
    (hw : (w (.marker .download)).isSome) (hw' : w' (.marker .download) = none) :
    ∃ m ∈ ms, RemovesMarker m := by
  induction h with
  | refl => simp [hw'] at hw
  | @call pool pool' i q next x w v w' ms hi hx h ih =>
      have hkept : (v (.marker .download)).isSome := by
        rcases Call.shared_cases (hq _ _ List.mem_cons_self) hx with rfl | ⟨-, -, hv⟩
        · exact hw
        · exact hv
      obtain ⟨m, hm, hr⟩ := ih (fun i e he => hq i e (List.mem_cons_of_mem _ he)) hkept hw'
      exact ⟨m, List.mem_cons_of_mem _ hm, hr⟩
  | @other pool pool' w v w' ms h ih =>
      cases hv : v (.marker .download) with
      | none => exact ⟨_, List.mem_cons_self, hw, hv⟩
      | some s =>
          have hkept : (v (.marker .download)).isSome := by simp [hv]
          obtain ⟨m, hm, hr⟩ := ih (fun i e he => hq i e (List.mem_cons_of_mem _ he)) hkept hw'
          exact ⟨m, List.mem_cons_of_mem _ hm, hr⟩

theorem marker_eq_of_race (h : Race Call.shared pool w ms pool' w')
    (hq : ∀ i e, .call i e ∈ ms → Operation.download.MayAsk e.question)
    (hcreated : ∀ i, createdWith (.ok ()) ∉ asked i ms)
    (hother : ∀ b a, .other b a ∈ ms → a (.marker .download) = b (.marker .download)) :
    w' (.marker .download) = w (.marker .download) := by
  induction h with
  | refl => rfl
  | @call pool pool' i q next x w v w' ms hi hx h ih =>
      have hv : v = w := by
        refine (Call.shared_cases (hq _ _ List.mem_cons_self) hx).resolve_right fun hc => ?_
        refine hcreated i (mem_asked.mpr ⟨_, List.mem_cons_self, hc.1⟩)
      subst hv
      refine ih (fun i e he => hq i e (List.mem_cons_of_mem _ he)) (fun j hj => ?_)
        fun b a hm => hother b a (List.mem_cons_of_mem _ hm)
      obtain ⟨e, he, hb⟩ := mem_asked.mp hj
      exact hcreated j (mem_asked.mpr ⟨e, List.mem_cons_of_mem _ he, hb⟩)
  | @other pool pool' w v w' ms h ih =>
      rw [← hother w v List.mem_cons_self]
      refine ih (fun i e he => hq i e (List.mem_cons_of_mem _ he)) (fun j hj => ?_)
        fun b a hm => hother b a (List.mem_cons_of_mem _ hm)
      obtain ⟨e, he, hb⟩ := mem_asked.mp hj
      exact hcreated j (mem_asked.mpr ⟨e, List.mem_cons_of_mem _ he, hb⟩)

section Requests

variable (h : Race Call.shared (fun _ => (Staging.download d).run) w ms pool w')

include h

theorem mayAsk_of_race : ∀ i e, .call i e ∈ ms → Operation.download.MayAsk e.question := by
  intro i e he
  have hasks := Operation.download.asks d
  exact hasks.of_mem (h.steps_asked i) e.bare (mem_asked.mpr ⟨e, he, rfl⟩)

theorem done_of_createdWith (hx : createdWith x ∈ asked i ms) :
    pool i = .done (.ok (downloadOutcome x)) :=
  Staging.done_of_created (h.steps_asked i) hx

theorem exists_createdWith {o : DownloadOutcome} (ho : o ≠ .notQueued)
    (hi : pool i = .done (.ok o)) :
    ∃ x, o = downloadOutcome x ∧ createdWith x ∈ asked i ms ∧ ¬Has FindsMissing (asked i ms) ∧
      ReadsAnnouncement (asked i ms) := by
  have hs := h.steps_asked i
  rw [hi] at hs
  rcases Staging.download_finishes d _ _ _ hs with ⟨hn, -⟩ | hx
  · exact absurd hn ho
  · exact hx

theorem started_iff : pool i = .done (.ok .started) ↔ createdWith (.ok ()) ∈ asked i ms := by
  constructor
  · intro hi
    obtain ⟨x, hx, hmem, -⟩ := exists_createdWith h DownloadOutcome.noConfusion hi
    obtain rfl := downloadOutcome_eq_started.mp hx.symm
    exact hmem
  · exact done_of_createdWith h

theorem startedBefore_iff : pool i = .done (.ok .startedBefore) ↔
    ∃ e, e.isAlreadyPresent ∧ createdWith (.error e) ∈ asked i ms := by
  constructor
  · intro hi
    obtain ⟨x, hx, hmem, -⟩ := exists_createdWith h DownloadOutcome.noConfusion hi
    obtain ⟨e, he, rfl⟩ := downloadOutcome_eq_startedBefore.mp hx.symm
    exact ⟨e, he, hmem⟩
  · rintro ⟨e, he, hmem⟩
    rw [done_of_createdWith h hmem, downloadOutcome_eq_startedBefore.mpr ⟨e, he, rfl⟩]

theorem notQueued_of_missing (hi : Has FindsMissing (asked i ms)) :
    (∀ x, createdWith x ∉ asked i ms) ∧
      ∀ x, pool i = .done x → ¬Has FailsToRead (asked i ms) → x = .ok .notQueued := by
  have hs := h.steps_asked i
  constructor
  · intro x hx
    have hne := downloadOutcome_ne_notQueued x
    obtain ⟨y, -, -, hno, -⟩ := exists_createdWith h hne (done_of_createdWith h hx)
    exact hno hi
  · intro x hx hread
    rw [hx] at hs
    have hend := Staging.download_finishes d _ _ _ hs
    cases x with
    | error e => exact absurd (hend hi) hread
    | ok o =>
        rcases hend with ⟨rfl, -⟩ | ⟨y, -, -, hno, -⟩
        · rfl
        · exact absurd hi hno

theorem read_of_createdWith (hx : createdWith x ∈ asked i ms) : ∃ s : Descriptor → String,
    (∀ f ≠ .location, ∃ v a, .call i ⟨.read f, .ok (s f), v, a⟩ ∈ ms ∧
      v (.descriptor f) = some (s f)) ∧
    ∃ a, Announcement.ofTexts (Text.trim (s .type)) (Text.trim (s .version))
      (Text.trim (s .size)) = .ok a := by
  have hne := downloadOutcome_ne_notQueued x
  obtain ⟨-, -, -, -, s, hread, ha⟩ := exists_createdWith h hne (done_of_createdWith h hx)
  refine ⟨s, fun f hf => ?_, ha⟩
  obtain ⟨⟨q, y, v, a⟩, hmem, heq⟩ := mem_asked.mp (hread f hf)
  cases heq
  exact ⟨v, a, hmem, (h.rules_of_mem hmem).2.1 _ rfl⟩

theorem absent_of_notQueued (hi : pool i = .done (.ok .notQueued)) : ∃ f ≠ .location, ∃ c v a,
    .call i ⟨.read f, .error c, v, a⟩ ∈ ms ∧ v (.descriptor f) = none := by
  have hs := h.steps_asked i
  rw [hi] at hs
  rcases Staging.download_finishes d _ _ _ hs with ⟨-, e, he, hmissing⟩ | ⟨x, hx, -, -⟩
  · obtain ⟨⟨q, x, v, a⟩, hmem, rfl⟩ := mem_asked.mp he
    cases q with
    | read f =>
        cases x with
        | ok s => exact hmissing.elim
        | error c =>
            have habsent := (h.rules_of_mem hmem).2.2 c rfl hmissing.2
            exact ⟨f, hmissing.1, c, v, a, hmem, habsent⟩
    | _ => exact hmissing.elim
  · exact absurd hx.symm (downloadOutcome_ne_notQueued x)

theorem removed_between {b a b' a' : Directory} (hms : ms = xs ++
      .call i ⟨.create .download, .ok (), b, a⟩ ::
        (ys ++ .call j ⟨.create .download, .ok (), b', a'⟩ :: zs)) :
    ∃ m ∈ ys, RemovesMarker m := by
  have hq := mayAsk_of_race h
  subst hms
  obtain ⟨mid, v, -, hrest⟩ := h.of_append
  cases hrest with
  | call hi hx hrest =>
      obtain ⟨mid', v', hys, hlast⟩ := hrest.of_append
      cases hlast with
      | call hj hx' _ =>
          -- The first creation left the marker, and the second found none.
          refine exists_removesMarker hys (fun i e he => hq i e (by simp [he])) ?_ hx'.1
          rw [hx.2, Function.update_self]
          rfl

theorem eq_of_started (hkept : ∀ m ∈ ms, ¬RemovesMarker m) (hi : pool i = .done (.ok .started))
    (hj : pool j = .done (.ok .started)) : i = j := by
  by_contra hij
  obtain ⟨b, a, hi⟩ := createdWith_mem_asked.mp ((started_iff h).mp hi)
  obtain ⟨b', a', hj⟩ := createdWith_mem_asked.mp ((started_iff h).mp hj)
  rcases exists_order hi hj (by simp [hij]) with ⟨xs, ys, zs, hms⟩ | ⟨xs, ys, zs, hms⟩
  · obtain ⟨m, hm, hr⟩ := removed_between h hms
    exact hkept m (by simp [hms, hm]) hr
  · obtain ⟨m, hm, hr⟩ := removed_between h hms
    exact hkept m (by simp [hms, hm]) hr

theorem exists_started (hw : w (.marker .download) = none)
    (hother : ∀ b a, .other b a ∈ ms → a (.marker .download) = b (.marker .download))
    (hx : createdWith x ∈ asked i ms) (hok : x = .ok () ∨ ∃ e, x = .error e ∧ e.isAlreadyPresent) :
    ∃ k, pool k = .done (.ok .started) := by
  by_contra hnone
  have hcreated : ∀ k, createdWith (.ok ()) ∉ asked k ms :=
    fun k hk => hnone ⟨k, (started_iff h).mpr hk⟩
  rcases hok with rfl | ⟨e, rfl, he⟩
  · exact hcreated i hx
  · -- This creation found a marker that nobody can have created.
    obtain ⟨b, a, hmem⟩ := createdWith_mem_asked.mp hx
    obtain ⟨xs, ys, rfl⟩ := List.append_of_mem hmem
    obtain ⟨mid, v, hxs, hys⟩ := h.of_append
    have hv : v (.marker .download) = none := by
      have hq := fun i e he => mayAsk_of_race h i e (List.mem_append_left _ he)
      refine (marker_eq_of_race hxs hq ?_ ?_).trans hw
      · intro k hk
        obtain ⟨b, a, hk⟩ := createdWith_mem_asked.mp hk
        exact hcreated k (createdWith_mem_asked.mpr ⟨b, a, by simp [hk]⟩)
      · exact fun b a hm => hother b a (by simp [hm])
    cases hys with
    | call hi hx _ =>
        have hpresent := hx.2 he
        rw [hv] at hpresent
        cases hpresent

end Requests

/-- Any number of requests in one directory, mixed with each other and with what others write there.

A request that found its descriptor incomplete creates nothing and says so, and it was incomplete
then; one that comes to create the marker has read its files with success. A request starts the
download if it created the marker, and finds it started before if the marker was there. Between two
starts somebody removed the marker, so that one request at most starts the download if nobody does.
If others leave the marker alone and it was not there at first, then one starts the download and all
others that come to create it find it started before, provided that no creation fails for another
reason. -/
theorem download_starts_once (d : WorkDir)
    (h : Race Call.shared (fun _ => (Staging.download d).run) w ms pool w') :
    (∀ i, Has FindsMissing (asked i ms) → (∀ x, createdWith x ∉ asked i ms) ∧
      ∀ x, pool i = .done x → ¬Has FailsToRead (asked i ms) → x = .ok .notQueued) ∧
    (∀ i, pool i = .done (.ok .notQueued) → ∃ f ≠ .location, ∃ c v a,
      .call i ⟨.read f, .error c, v, a⟩ ∈ ms ∧ v (.descriptor f) = none) ∧
    (∀ i x, createdWith x ∈ asked i ms → ∃ s : Descriptor → String,
      (∀ f ≠ .location, ∃ v a, .call i ⟨.read f, .ok (s f), v, a⟩ ∈ ms ∧
        v (.descriptor f) = some (s f)) ∧
      ∃ a, Announcement.ofTexts (Text.trim (s .type)) (Text.trim (s .version))
        (Text.trim (s .size)) = .ok a) ∧
    (∀ i, pool i = .done (.ok .started) ↔ createdWith (.ok ()) ∈ asked i ms) ∧
    (∀ i, pool i = .done (.ok .startedBefore) ↔
      ∃ e, e.isAlreadyPresent ∧ createdWith (.error e) ∈ asked i ms) ∧
    (∀ xs ys zs i j b a b' a', ms = xs ++ .call i ⟨.create .download, .ok (), b, a⟩ ::
        (ys ++ .call j ⟨.create .download, .ok (), b', a'⟩ :: zs) → ∃ m ∈ ys, RemovesMarker m) ∧
    ((∀ m ∈ ms, ¬RemovesMarker m) → ∀ i j, pool i = .done (.ok .started) →
      pool j = .done (.ok .started) → i = j) ∧
    ((∀ b a, .other b a ∈ ms → a (.marker .download) = b (.marker .download)) →
      w (.marker .download) = none →
      (∀ i x, createdWith x ∈ asked i ms → x = .ok () ∨ ∃ e, x = .error e ∧ e.isAlreadyPresent) →
      (∃ i x, createdWith x ∈ asked i ms) →
      ∃ k, pool k = .done (.ok .started) ∧
        ∀ i x, i ≠ k → createdWith x ∈ asked i ms → pool i = .done (.ok .startedBefore)) := by
  refine ⟨fun i hi => notQueued_of_missing h hi, fun i hi => absent_of_notQueued h hi,
    fun i x hx => read_of_createdWith h hx, fun i => started_iff h, fun i => startedBefore_iff h,
    fun xs ys zs i j b a b' a' hms => removed_between h hms,
    fun hkept i j hi hj => eq_of_started h hkept hi hj, ?_⟩
  rintro hother hw hok ⟨i, x, hx⟩
  obtain ⟨k, hk⟩ := exists_started h hw hother hx (hok i x hx)
  refine ⟨k, hk, fun j y hj hy => (startedBefore_iff h).mpr ?_⟩
  have hkept : ∀ m ∈ ms, ¬RemovesMarker m := by
    intro m hm hr
    cases m with
    | call => exact hr
    | other b a =>
        have hb := hr.1
        rw [← hother b a hm, hr.2] at hb
        cases hb
  rcases hok j y hy with rfl | ⟨e, rfl, he⟩
  · exact absurd (eq_of_started h hkept ((started_iff h).mpr hy) hk) hj
  · exact ⟨e, he, hy⟩

/-- Both requests have read the descriptor when the first creates the marker. -/
theorem second_request_finds_marker :
    ∃ (w w' : Directory) (ms : List (Move Call.Answer Directory Bool))
      (pool : Bool → Plan Call.Answer (Except Error DownloadOutcome)),
      Race Call.shared (fun _ => (Staging.download ⟨"/data"⟩).run) w ms pool w' ∧
        pool true = .done (.ok .started) ∧ pool false = .done (.ok .startedBefore) := by
  let w : Directory := fun
    | .descriptor .type => some "fw"
    | .descriptor .version => some "1"
    | .descriptor .size => some "8"
    | _ => none
  have hread {f : Descriptor} {s : String} (hs : w (.descriptor f) = some s) :
      Call.shared (.read f) w (.ok s) w :=
    ⟨rfl, fun t ht => by cases ht; exact hs, fun e he => by cases he⟩
  have hlocation : Call.shared (.read .location) w (.error (.number Errno.noEntry)) w :=
    ⟨rfl, (fun t ht => by cases ht), fun _ _ _ => rfl⟩
  have hreads : Steps Call.shared (Staging.download ⟨"/data"⟩).run w _
      Staging.requestDownload.run w :=
    .ask (hread rfl) (.ask (hread rfl) (.ask (hread rfl) (.ask hlocation (.refl _ _))))
  let w' : Directory := Function.update w (.marker .download) (some "")
  have hcreate : Call.shared (.create .download) w (.ok ()) w' := ⟨rfl, rfl⟩
  have hpresent : Call.shared (.create .download) w' (.error (.number Errno.alreadyPresent)) w' :=
    ⟨rfl, fun _ => rfl⟩
  let start : Bool → Plan Call.Answer (Except Error DownloadOutcome) :=
    fun _ => (Staging.download ⟨"/data"⟩).run
  have hfirst : Race Call.shared start w _ _ w := Race.of_steps (i := true) hreads
  have hrace : Race Call.shared start w _ _ _ :=
    hfirst.trans ((Race.of_steps (i := false) hreads).trans
      ((Race.of_steps (i := true) (.ask hcreate (.refl _ _))).trans
        (Race.of_steps (i := false) (.ask hpresent (.refl _ _)))))
  obtain ⟨-, -, -, hstarted, hbefore, -⟩ := download_starts_once ⟨"/data"⟩ hrace
  refine ⟨w, w', _, _, hrace, (hstarted true).mpr ?_,
    (hbefore false).mpr ⟨.number Errno.alreadyPresent, rfl, ?_⟩⟩
  · exact createdWith_mem_asked.mpr ⟨w, w', by simp⟩
  · exact createdWith_mem_asked.mpr ⟨w', w', by simp⟩

end Dualbank
