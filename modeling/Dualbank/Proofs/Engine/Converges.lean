import Dualbank.Proofs.Exit.Success
import Mathlib.Logic.Function.Basic

namespace Dualbank

open Plan Routine Phase CommandLine

/-- What the record and the engine keep: the phase, whether the device rebooted since it was
recorded, and for each image the version that runs and the one written for the next boot. -/
structure Fitted where
  phase : Phase
  rebooted : Bool
  running : Image → Version
  next : Image → Option Version

abbrev FittedEvent := Event Call.Answer Fitted

namespace Fitted

def boot (k : Fitted) : Fitted where
  phase := k.phase
  rebooted := true
  running i := (k.next i).getD (k.running i)
  next _ := none

/-- Of every part, a version is known, and it is at most the one that runs. -/
def Covers (k : Fitted) (parts : List (Image × Package)) : Prop :=
  ∀ part ∈ parts, ∃ v, part.2.version = some v ∧ v.newerThan (k.running part.1) = false

/-- An unattended update of these parts will only have to commit. -/
structure Settled (parts : List (Image × Package)) (k : Fitted) : Prop where
  covers : k.Covers parts
  next : ∀ i, k.next i = none
  phase : k.phase = idle ∨ (∃ t, k.phase = written t) ∧ k.rebooted = true

end Fitted

namespace Call

/-- The record accepts every write and knows of every reboot, and the workflow's files can be
removed. The version of an image that is to be replaced at the next boot is answered freely. -/
def dependable : Rules Answer Fitted
  | readPhase, k, x, k' => x = .ok k.phase ∧ k' = k
  | writePhase p, k, x, k' => x = .ok () ∧ k' = { k with phase := p, rebooted := false }
  | isRebooted _, k, x, k' => (k.rebooted = true → x = .ok true) ∧ k' = k
  | install i p, k, .ok (), k' => ∃ v, (∀ v', p.version = some v' → v = v') ∧
      k' = { k with next := Function.update k.next i (some v) }
  | install _ _, k, .error _, k' => ∃ next, k' = { k with next }
  | installedVersion (.only i), k, x, k' => (k.next i = none → x = .ok (k.running i)) ∧ k' = k
  | remove _, k, x, k' => (∀ c, x = .error c → c.isNotFound) ∧ k' = k
  | _, k, _, k' => k' = k

end Call

open Call (dependable)

def Steady (parts : List (Image × Package)) (e : FittedEvent) : Prop :=
  e.question.Quiet ∧ e.after.Settled parts

variable {k k' : Fitted} {parts : List (Image × Package)} {o : Offer} {t : Target} {d : WorkDir}
  {n : Nat} {ok : FittedEvent → Prop}

theorem Version.newerThan_self (v : Version) : v.newerThan v = false := by
  simp [newerThan]

theorem CommandLine.Stick.exists_version {stick : Stick} :
    ∀ part ∈ stick.offer.parts, ∃ v, part.2.version = some v := by
  have hpackage (file : Option String) (version : Option Version) (p : Package)
      (hp : stick.package? file version = some p) : ∃ v, p.version = some v := by
    rcases file with _ | f <;> rcases version with _ | v <;> cases hp
    exact ⟨v, rfl⟩
  rintro ⟨i, p⟩ hpart
  rcases List.mem_append.mp hpart with h | h
  all_goals
    rw [Option.mem_toList, Option.map_eq_some_iff] at h
    obtain ⟨q, hq, he⟩ := h
    cases he
    exact hpackage _ _ _ hq

namespace Fitted

theorem boot_running_of_next {i : Image} {v : Version} (h : k.next i = some v) :
    k.boot.running i = v := by
  simp [boot, h]

theorem boot_running_of_none {i : Image} (h : k.next i = none) :
    k.boot.running i = k.running i := by
  simp [boot, h]

theorem Covers.boot (h : k.Covers parts) (hnext : ∀ i, k.next i = none) : k.boot.Covers parts := by
  intro part hpart
  rw [boot_running_of_none (hnext _)]
  exact h part hpart

theorem Settled.boot (h : k.Settled parts) : k.boot.Settled parts :=
  ⟨h.covers.boot h.next, fun _ => rfl, h.phase.imp_right fun hp => ⟨hp.1, rfl⟩⟩

theorem Settled.idle (h : k.Settled parts) {b : Bool} :
    { k with phase := idle, rebooted := b }.Settled parts :=
  ⟨h.covers, h.next, .inl rfl⟩

end Fitted

theorem Routine.sureOr_readBack_bind {α : Type} {f : Phase → Routine α} {post : α → Fitted → Prop}
    {fail : Error → Fitted → Prop} (hok : ok ⟨.readPhase, .ok k.phase, k, k⟩)
    (h : SureOr dependable ok (f k.phase) k post fail) :
    SureOr dependable ok (readPhase >>= f) k post fail := by
  rw [readPhase, LawfulMonad.bind_assoc]
  refine sureOr_ask_bind.mpr ?_
  rintro _ _ ⟨rfl, rfl⟩
  exact ⟨hok, h⟩

namespace Update

theorem sureOr_settle_idle (hidle : k.phase = idle) (hok : ok ⟨.readPhase, .ok k.phase, k, k⟩) :
    SureOr dependable ok (settle d (n + 1)) k (fun g k' => g = .allowed ∧ k' = k)
      fun _ _ => False := by
  refine sureOr_readBack_bind hok ?_
  rw [if_pos (isIdle_iff.mpr hidle)]
  exact ⟨rfl, rfl⟩

theorem sureOr_offersNewer (hnext : ∀ i, k.next i = none)
    (hok : ∀ i x, ok ⟨.installedVersion (.only i), x, k, k⟩) :
    SureOr dependable ok (offersNewer parts) k
      (fun b k' => k' = k ∧ (b = false ↔ k.Covers parts)) fun _ _ => False := by
  induction parts with
  | nil => exact ⟨rfl, by simp [Fitted.Covers]⟩
  | cons part rest ih =>
      obtain ⟨i, p⟩ := part
      have hrest (b : Bool) : SureOr dependable ok
          (do return b || (← offersNewer rest) : Routine Bool) k
          (fun b' k' => k' = k ∧ (b' = false ↔ b = false ∧ k.Covers rest)) fun _ _ => False := by
        refine ih.bind ?_
        rintro later v ⟨rfl, hlater⟩
        exact ⟨rfl, by rw [← hlater]; simp⟩
      have hcovers : k.Covers ((i, p) :: rest) ↔
          (∃ v, p.version = some v ∧ v.newerThan (k.running i) = false) ∧ k.Covers rest :=
        List.forall_mem_cons
      rw [offersNewer, hcovers]
      split
      case h_1 hnone =>
        refine (hrest true).mono (fun b k' h => ⟨h.1, h.2.trans ?_⟩) fun _ _ h => h
        simp [hnone]
      case h_2 v hv =>
        rw [installedVersion, LawfulMonad.bind_assoc]
        refine sureOr_ask_bind.mpr ?_
        rintro x k₁ ⟨hx, rfl⟩
        obtain rfl := hx (hnext i)
        refine ⟨hok i _, (hrest _).mono (fun b k' h => ⟨h.1, h.2.trans ?_⟩) fun _ _ h => h⟩
        simp [hv]

structure Takes (parts : List (Image × Package)) (k k' : Fitted) : Prop where
  running : k'.running = k.running
  next : ∀ part ∈ parts, ∀ v, part.2.version = some v → k'.next part.1 = some v
  other : ∀ i ∉ parts.map Prod.fst, k'.next i = k.next i

theorem writeParts_takes {before : Option Image} (hn : (parts.map Prod.fst).Nodup) :
    SureOr dependable (fun _ => True) (writeParts before parts) k (fun _ k' => Takes parts k k')
      fun _ _ => True := by
  induction parts generalizing before k with
  | nil => exact ⟨rfl, by simp, fun _ _ => rfl⟩
  | cons part rest ih =>
      obtain ⟨i, p⟩ := part
      obtain ⟨hi, hn⟩ := List.nodup_cons.mp hn
      rw [writeParts]
      refine sureOr_ask_bind.mpr fun x k₁ hx => ⟨trivial, ?_⟩
      cases x with
      | error e =>
          refine (sure_iff_finishes.mpr giveUp_fails).mono fun x _ hx => ?_
          cases x with
          | ok u => exact (hx rfl).elim
          | error e => exact trivial
      | ok u =>
          obtain ⟨v, hv, rfl⟩ := hx
          refine (ih hn).mono ?_ fun _ _ h => h
          rintro _ k' ⟨hrunning, hnext, hother⟩
          refine ⟨hrunning, List.forall_mem_cons.mpr ⟨fun v' hv' => ?_, hnext⟩, fun j hj => ?_⟩
          -- The image is none of the rest, so the rest leaves what was just written.
          · rw [hother i hi, ← hv v' hv']
            exact Function.update_self i _ _
          · obtain ⟨hji, hj⟩ := not_or.mp (mt List.mem_cons.mpr hj)
            exact (hother j hj).trans (Function.update_of_ne hji _ _)

theorem Takes.settled (h : Takes parts k k') (hv : ∀ part ∈ parts, ∃ v, part.2.version = some v)
    (hp : ∃ t, k'.phase = written t) : k'.boot.Settled parts := by
  refine ⟨fun part hpart => ?_, fun _ => rfl, .inr ⟨hp, rfl⟩⟩
  obtain ⟨v, hv⟩ := hv part hpart
  rw [Fitted.boot_running_of_next (h.next part hpart v hv)]
  exact ⟨v, hv, v.newerThan_self⟩

theorem update_settles (hv : ∀ part ∈ o.parts, ∃ v, part.2.version = some v) :
    SureOr dependable (fun _ => True) (update o) k (fun _ k' => k'.boot.Settled o.parts)
      fun _ _ => True := by
  unfold update
  split
  · exact trivial
  · refine sureOr_readBack_bind trivial ?_
    split
    · refine (writeParts_takes o.nodup_images).bind fun _ k₁ h => ?_
      refine sureOr_ask_bind.mpr ?_
      rintro _ _ ⟨rfl, rfl⟩
      exact ⟨trivial, Takes.settled ⟨h.running, h.next, h.other⟩ hv ⟨_, rfl⟩⟩
    · exact trivial

theorem updateIfNewer_settles (hidle : k.phase = idle) (hnext : ∀ i, k.next i = none)
    (hv : ∀ part ∈ o.parts, ∃ v, part.2.version = some v) :
    SureOr dependable (fun _ => True) (updateIfNewer o) k (fun _ k' => k'.boot.Settled o.parts)
      fun _ _ => True := by
  have hasked : SureOr dependable (fun _ => True) (offersNewer o.parts) k
      (fun b k' => k' = k ∧ (b = false ↔ k.Covers o.parts)) fun _ _ => True :=
    (sureOr_offersNewer hnext fun _ _ => trivial).mono (fun _ _ h => h) fun _ _ _ => trivial
  refine hasked.bind ?_
  rintro b _ ⟨rfl, hb⟩
  cases b with
  | true => exact (update_settles hv).bind fun _ _ h => h
  -- Nothing is newer, so the versions that run now cover the offer.
  | false => exact ⟨(hb.mp rfl).boot hnext, fun _ => rfl, .inl hidle⟩

end Update

theorem Fitted.Settled.steady (h : k.Settled parts) {q : Call} {x : q.Answer} (hq : q.Quiet) :
    Steady parts ⟨q, x, k, k⟩ := ⟨hq, h⟩

namespace WorkDir

theorem remove_dependable {e : Entry} (hok : ∀ x, ok ⟨.remove e, x, k, k⟩) :
    SureOr dependable ok (d.remove e) k (fun _ k' => k' = k) fun _ _ => False := by
  refine sureOr_ask_bind.mpr ?_
  rintro x _ ⟨hx, rfl⟩
  refine ⟨hok x, ?_⟩
  cases x with
  | ok u => exact rfl
  | error c =>
      dsimp only
      rw [if_pos (hx c rfl)]
      exact rfl

theorem forM_remove_dependable {es : List Entry} (hok : ∀ e x, ok ⟨.remove e, x, k, k⟩) :
    SureOr dependable ok (es.forM d.remove) k (fun _ k' => k' = k) fun _ _ => False := by
  induction es with
  | nil => exact rfl
  | cons e es ih =>
      refine (remove_dependable (hok e)).bind ?_
      rintro _ _ rfl
      exact ih

end WorkDir

namespace Update

theorem sureOr_confirm {p : Phase} (h : k.Settled parts) (hp : p.afterCommit = idle) :
    SureOr dependable (Steady parts) (confirm d p) k
      (fun o k' => o = .committed ∧ k'.Settled parts ∧ k'.phase = idle) fun _ _ => False := by
  unfold confirm
  rw [hp]
  refine (WorkDir.forM_remove_dependable fun _ _ => h.steady rfl).bind ?_
  rintro _ _ rfl
  refine sureOr_ask_bind.mpr ?_
  rintro _ _ ⟨rfl, rfl⟩
  exact ⟨⟨rfl, h.idle⟩, rfl, h.idle, rfl⟩

theorem sureOr_commit (h : k.Settled parts) (hp : k.phase = written t) (hr : k.rebooted = true) :
    SureOr dependable (Steady parts) (commit d) k
      (fun o k' => o = .committed ∧ k'.Settled parts ∧ k'.phase = idle) fun _ _ => False := by
  rw [commit_eq]
  refine sureOr_readBack_bind (h.steady rfl) ?_
  rw [hp]
  refine sureOr_bind.mpr (sureOr_ask_bind.mpr ?_)
  rintro x _ ⟨hx, rfl⟩
  obtain rfl := hx hr
  refine ⟨h.steady rfl, (sureOr_ofExcept (.ok true)).mpr ?_⟩
  exact sureOr_confirm (p := written t) h rfl

theorem sureOr_allowAutomatic (h : k.Settled parts) :
    SureOr dependable (Steady parts) (allowAutomatic d) k
      (fun g k' => g = .allowed ∧ k'.Settled parts ∧ k'.phase = idle) fun _ _ => False := by
  rcases h.phase with hidle | ⟨⟨t, ht⟩, hr⟩
  · refine (sureOr_settle_idle hidle (h.steady rfl)).mono ?_ fun _ _ h => h
    rintro g _ ⟨rfl, rfl⟩
    exact ⟨rfl, h, hidle⟩
  · refine sureOr_readBack_bind (h.steady rfl) ?_
    rw [ht]
    refine (sureOr_commit h ht hr).bind ?_
    rintro _ k₁ ⟨rfl, h₁, hidle⟩
    refine (sureOr_settle_idle hidle (h₁.steady rfl)).mono ?_ fun _ _ h => h
    rintro g _ ⟨rfl, rfl⟩
    exact ⟨rfl, h₁, hidle⟩

theorem sureOr_updateIfNewer (h : k.Settled o.parts) :
    SureOr dependable (Steady o.parts) (updateIfNewer o) k
      (fun a k' => a = .upToDate ∧ k' = k) fun _ _ => False := by
  refine (sureOr_offersNewer h.next fun _ _ => h.steady rfl).bind ?_
  rintro b _ ⟨rfl, hb⟩
  rw [hb.mpr h.covers]
  exact ⟨rfl, rfl⟩

end Update

namespace CommandLine

theorem Session.sureOr_say {line : String} (h : k.Settled parts) :
    SureOr dependable (Steady parts) (say line) k (fun _ k' => k' = k) fun _ _ => False := by
  refine sureOr_ask_bind.mpr ?_
  rintro _ _ rfl
  refine ⟨h.steady rfl, ?_⟩
  rintro _ _ rfl
  exact ⟨h.steady rfl, rfl⟩

namespace Command

variable {stick : Stick}

theorem sureOr_automatic (ht : stick.offer.target? = some t) (h : k.Settled stick.offer.parts) :
    SureOr dependable (Steady stick.offer.parts) ((automatic stick).run d n) k
      (fun status k' => status.process = (ResultCode.automatic t .successful).number ∧
        k'.phase = idle) fun _ _ => False := by
  rw [run_automatic ht]
  refine (sureOr_classify (Update.sureOr_allowAutomatic h)).bind ?_
  rintro _ k₁ ⟨_, rfl, rfl, h₁, hidle⟩
  refine (sureOr_classify (Update.sureOr_updateIfNewer h₁)).bind ?_
  rintro _ _ ⟨_, rfl, rfl, rfl⟩
  refine (Session.sureOr_say h₁).bind ?_
  rintro _ _ rfl
  exact ⟨rfl, hidle⟩

/-- The first update is seen from its exit code; the reboot settles the device. -/
theorem settled_of_updated (ht : stick.offer.target? = some t) (hidle : k.phase = idle)
    (hnext : ∀ i, k.next i = none) {es : List FittedEvent} {x : Except Abort ExitStatus}
    (hs : Steps dependable ((automatic stick).run d n).run k es (.done x) k')
    (hx : exitCode x = (ResultCode.automatic t .successful).number) :
    k'.boot.Settled stick.offer.parts := by
  obtain ⟨y, fs, gs, v, rfl, hgate, hend⟩ := automatic_finishes ht es x k' hs
  rcases hend with ⟨rfl, z, ws, ls, u, rfl, hz, htalk, hcode⟩ | ⟨hy, -, hcode⟩
  · have hopen : SureOr dependable (fun _ => True) (Update.allowAutomatic d) k
        (fun g k' => g = .allowed ∧ k' = k) fun _ _ => False :=
      Update.sureOr_settle_idle hidle trivial
    obtain ⟨-, rfl⟩ := hopen.gives_ok ⟨fs, hgate⟩
    obtain ⟨a, rfl⟩ := (codeOf_eq_iff (.automatic t) (updateReport t) (fun _ => rfl)
      (fun _ => rfl) (Report.ofResult_automatic_ne t)).mp (hcode.symm.trans hx)
    rw [htalk.world fun _ _ _ _ _ h => h]
    exact (Update.updateIfNewer_settles hidle hnext Stick.exists_version).gives_ok ⟨ws, hz⟩
  · exact absurd (hcode.symm.trans hx) (gate_code_ne hy)

end Command

end CommandLine

/-- What may lie between two runs: reboots, and more runs of the plan, cut anywhere. -/
inductive Later {α : Type} (p : Plan Call.Answer α) : Fitted → Fitted → Prop
  | refl (k : Fitted) : Later p k k
  | boot {k k' : Fitted} (h : Later p k k') : Later p k k'.boot
  | run {k k' k'' : Fitted} {es : List FittedEvent} {r : Plan Call.Answer α} (h : Later p k k')
      (hs : Steps dependable p k' es r k'') : Later p k k''

theorem Later.settled {α : Type} {p : Plan Call.Answer α} {post : α → Fitted → Prop}
    (h : Later p k k')
    (hp : ∀ k : Fitted, k.Settled parts → Sure dependable (Steady parts) p k post)
    (hk : k.Settled parts) : k'.Settled parts := by
  induction h with
  | refl => exact hk
  | boot _ ih => exact ih.boot
  | run _ hs ih => exact hs.world (fun e he => (((hp _ ih).steps hs).1 e he).2) ih

namespace Call

def comply : (q : Call) → StateM Fitted q.Answer
  | readPhase => fun k => (.ok k.phase, k)
  | writePhase p => fun k => (.ok (), { k with phase := p, rebooted := false })
  | isRebooted _ => fun k => (.ok k.rebooted, k)
  | isBad .. | has _ => fun k => (.ok false, k)
  | install i p => fun k =>
    (.ok (), { k with next := Function.update k.next i (some (p.version.getD ⟨0⟩)) })
  | installedVersion (.only i) => fun k => (.ok (k.running i), k)
  | installedVersion .both => fun k => (.ok ⟨0⟩, k)
  | read _ => fun k => (.ok "", k)
  | inspect _ => fun k => (.ok .other, k)
  | markBad .. | switch _ | reboot | create _ | remove _ => fun k => (.ok (), k)
  | pause | print .. | log _ => fun k => ((), k)

theorem comply_dependable (q : Call) (k : Fitted) :
    dependable q k (q.comply k).1 (q.comply k).2 := by
  cases q with
  | isRebooted f => exact ⟨fun h => congrArg Except.ok h, rfl⟩
  | install i p => exact ⟨_, fun v hv => by rw [hv]; rfl, rfl⟩
  | installedVersion t =>
      cases t with
      | only i => exact ⟨fun _ => rfl, rfl⟩
      | both => exact rfl
  | remove e => exact ⟨nofun, rfl⟩
  | readPhase | writePhase => exact ⟨rfl, rfl⟩
  | _ => exact rfl

end Call

/-- An unattended update from idle ended well, and the device rebooted. Every further run, whatever
lies in between, makes the engine write nothing; it can go on to an end, and its end has the same
exit code and leaves the record idle. -/
theorem unattended_update_converges {stick : Stick} (ht : stick.offer.target? = some t)
    {rebooted : Bool} {running : Image → Version} {es : List FittedEvent}
    {x : Except Abort ExitStatus}
    (hs : Steps dependable ((Command.automatic stick).run d n).run
      ⟨idle, rebooted, running, fun _ => none⟩ es (.done x) k')
    (hx : exitCode x = (ResultCode.automatic t .successful).number) {k₁ : Fitted}
    (hlater : Later ((Command.automatic stick).run d n).run k'.boot k₁) :
    (∀ es r k₂, Steps dependable ((Command.automatic stick).run d n).run k₁ es r k₂ →
      ∀ e ∈ es, e.question.Quiet) ∧
    (∃ x k₂, Gives dependable ((Command.automatic stick).run d n).run k₁ x k₂) ∧
    Finishes dependable ((Command.automatic stick).run d n).run k₁ fun x _ k₂ =>
      exitCode x = (ResultCode.automatic t .successful).number ∧ k₂.phase = idle := by
  have hsure (k : Fitted) (hk : k.Settled stick.offer.parts) :=
    Command.sureOr_automatic (d := d) (n := n) ht hk
  have hsettled : k₁.Settled stick.offer.parts :=
    hlater.settled hsure (Command.settled_of_updated ht rfl (fun _ => rfl) hs hx)
  refine ⟨fun es r k₂ hs e he => (((hsure k₁ hsettled).steps hs).1 e he).1,
    ⟨_, _, gives_stateM Call.comply Call.comply_dependable _ k₁⟩, fun es x k₂ hs => ?_⟩
  have hend := ((hsure k₁ hsettled).steps hs).2
  cases x with
  | ok status => exact hend
  | error e => exact hend.elim

def olderApplication : Stick :=
  ⟨"/media/stick", some "fw.raucb", some ⟨3⟩, some "app.raucb", some ⟨1⟩⟩

/-- The older application is written along with the newer firmware, but only once. -/
theorem older_application_written_once :
    ∃ es x k',
      Steps dependable ((Command.automatic olderApplication).run ⟨"/var/update"⟩ 1).run
        ⟨idle, false, fun _ => ⟨2⟩, fun _ => none⟩ es (.done x) k' ∧
      exitCode x = 45 ∧ k'.next .application = some ⟨1⟩ ∧
      (∀ es r k₂,
        Steps dependable ((Command.automatic olderApplication).run ⟨"/var/update"⟩ 1).run
          k'.boot es r k₂ → ∀ e ∈ es, e.question.Quiet) ∧
      Finishes dependable ((Command.automatic olderApplication).run ⟨"/var/update"⟩ 1).run k'.boot
        fun x _ k₂ => exitCode x = 45 ∧ k₂.phase = idle := by
  obtain ⟨es, hs⟩ := gives_stateM Call.comply Call.comply_dependable
    ((Command.automatic olderApplication).run ⟨"/var/update"⟩ 1).run
    ⟨idle, false, fun _ => ⟨2⟩, fun _ => none⟩
  obtain ⟨hquiet, -, hend⟩ := unattended_update_converges (t := .both) rfl hs (by decide) (.refl _)
  exact ⟨es, _, _, hs, by decide, by decide, hquiet, hend⟩

end Dualbank
