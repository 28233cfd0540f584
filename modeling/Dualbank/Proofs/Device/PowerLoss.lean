import Dualbank.Proofs.Device.Confirmation
import Dualbank.Proofs.Device.Retry
import Dualbank.Proofs.Footprint

namespace Dualbank

open Plan Update

/-- A new boot id, other than the recorded one and that of the running boot as they are read back.
-/
def Board.IsFresh (b : Board) (idFile : String) : Prop :=
  (∀ s, b.value? Record.bootIdVariable = some s → Text.trim s ≠ Text.trim idFile) ∧
    Text.trim (BootEnv.shown b.bootId) ≠ Text.trim idFile

/-- What the commit of a phase `p` may have made of the board by the time it is cut. -/
inductive Interrupted (d : WorkDir) (p : Phase) (b : Board) : Board → Prop
  | early {paths : List String} (h : paths ⊆ d.removedPaths p) : Interrupted d p b (b.without paths)
  | stamped : Interrupted d p b (b.without (d.removedPaths p)).stamp
  | confirmed : Interrupted d p b (b.confirmed d p)

inductive Commits (dev : Device) : Board → List (Except Error CommitOutcome) → Board → Prop
  | nil (b : Board) : Commits dev b [] b
  | cons {b b' b'' : Board} {x : Except Error CommitOutcome} {xs : List (Except Error CommitOutcome)}
      (h : Gives (dev.calls Never) (commit dev.workDir).run b x b') (hr : Commits dev b' xs b'') :
      Commits dev b (x :: xs) b''

structure Settles (dev : Device) (n : Nat) (b c : Board) : Prop where
  phase : c.phase = .ok .idle
  commits : ∀ m xs b', xs.length = n + m → (Commits dev b xs b' ↔
    xs = List.replicate n (.ok .committed) ++ List.replicate m (.ok .notNeeded) ∧ b' = c)

variable {dev : Device} {b b' c : Board} {p : Phase}

section Cut

variable {I : Board → Prop}

theorem Torn.of_length {r : Record} {tool : String} {args : List String}
    (h : Torn r (.run tool args) b b') (ha : args.length ≠ 2) : b' = b := by
  refine h.of_not_set fun name value hq => ha ?_
  obtain ⟨-, rfl⟩ := SysCall.run.inj hq
  rfl

theorem sureOr_performed_remove {e : Entry} {post : Unit → Board → Prop} (hb : I b)
    (hgone : I (b.without [dev.workDir.pathOf e]))
    (hpost : post () (b.without [dev.workDir.pathOf e])) :
    SureOr (SysCall.rules dev.record (Torn dev.record)) (fun e => I e.after)
      (dev.performed (dev.workDir.remove e)) b post fun _ _ => True := by
  rw [Device.performed_remove]
  apply sureOr_ask_bind.mpr
  rintro x b' (hx | ⟨⟨cause, rfl, hc⟩, ht⟩)
  · rcases hx.of_remove with ⟨-, rfl, hc⟩ | ⟨-, rfl, cause, rfl, hc⟩
    · refine ⟨hgone, ?_⟩
      cases x with
      | ok u => exact hpost
      | error cause =>
          dsimp only
          rw [if_pos (hc cause rfl)]
          exact hpost
    · dsimp only
      rw [if_neg hc]
      exact ⟨hb, trivial⟩
  · obtain rfl := ht.of_not_set fun _ _ => SysCall.noConfusion
    dsimp only
    rw [if_neg hc]
    exact ⟨hb, trivial⟩

theorem sureOr_performed_forM_remove {es : List Entry} {post : Unit → Board → Prop}
    (hI : ∀ paths, paths ⊆ es.map dev.workDir.pathOf → I (b.without paths))
    (hpost : post () (b.without (es.map dev.workDir.pathOf))) :
    SureOr (SysCall.rules dev.record (Torn dev.record)) (fun e => I e.after)
      (dev.performed (es.forM dev.workDir.remove)) b post fun _ _ => True := by
  induction es generalizing b with
  | nil =>
      rw [List.map_nil, Board.without_nil] at hpost
      exact hpost
  | cons e es ih =>
      rw [List.map_cons] at hI hpost
      have hcons : (e :: es).forM dev.workDir.remove =
          (do dev.workDir.remove e; es.forM dev.workDir.remove) := rfl
      rw [hcons, Device.performed_bind]
      apply sureOr_bind.mpr
      refine sureOr_performed_remove ?_ (hI _ (by simp)) ?_
      · rw [← b.without_nil]
        exact hI [] (List.nil_subset _)
      · refine ih ?_ ?_
        · intro paths hsub
          rw [Board.without_cons]
          exact hI _ (List.cons_subset_cons _ hsub)
        · rw [Board.without_cons]
          exact hpost

theorem sureOr_performed_writePhase :
    SureOr (SysCall.rules dev.record (Torn dev.record))
      (fun e => Interrupted dev.workDir p b e.after)
      (dev.performed (do Routine.writePhase p.afterCommit; return CommitOutcome.committed))
      (b.without (dev.workDir.removedPaths p)) (fun _ _ => True) fun _ _ => True := by
  have hcleared : Interrupted dev.workDir p b (b.without (dev.workDir.removedPaths p)) :=
    .early (List.Subset.refl _)
  rw [Device.performed_bind, Device.performed_writePhase]
  apply sureOr_bind.mpr
  refine Record.sureOr_writePhase_steps ?_ ?_ ?_ trivial (fun _ _ _ _ => trivial)
    fun _ _ _ _ => trivial
  · rintro x b' (rfl | ht)
    · exact hcleared
    · rw [ht.of_not_set fun _ _ => SysCall.noConfusion]
      exact hcleared
  · rintro x b' (rfl | ht)
    · exact .stamped
    · rcases ht.of_set with rfl | rfl
      · exact hcleared
      · exact .stamped
  · rintro x b' (rfl | ht)
    · exact .confirmed
    · rcases ht.of_set with rfl | rfl
      · exact .stamped
      · exact .confirmed

theorem sureOr_performed_confirm :
    SureOr (SysCall.rules dev.record (Torn dev.record))
      (fun e => Interrupted dev.workDir p b e.after) (dev.performed (confirm dev.workDir p)) b
      (fun _ _ => True) fun _ _ => True := by
  have hwrite := @sureOr_performed_writePhase dev b p
  unfold confirm
  dsimp only
  split
  case isTrue h =>
      have hpaths : dev.workDir.removedPaths p = Entry.all.map dev.workDir.pathOf := if_pos h
      rw [hpaths] at hwrite
      rw [Device.performed_bind]
      apply sureOr_bind.mpr
      refine sureOr_performed_forM_remove (fun paths hsub => .early ?_) hwrite
      rw [hpaths]
      exact hsub
  case isFalse h =>
      have hpaths : dev.workDir.removedPaths p = [] := if_neg h
      rw [hpaths, Board.without_nil] at hwrite
      exact hwrite

/-- Readings leave the board as it is, so only the end of a commit is to be looked at. -/
theorem sureOr_performed_commit (hp : b.phase = .ok p) :
    SureOr (SysCall.rules dev.record (Torn dev.record))
      (fun e => Interrupted dev.workDir p b e.after) (dev.performed (commit dev.workDir)) b
      (fun _ _ => True) fun _ _ => True := by
  have hb : Interrupted dev.workDir p b b := by
    have h : Interrupted dev.workDir p b (b.without []) := .early (List.nil_subset _)
    rwa [Board.without_nil] at h
  have hprint {name : String} {b' : Board}
      (h : b' = b ∨ Torn dev.record (.run dev.record.env.printTool [name]) b b') :
      Interrupted dev.workDir p b b' := by
    rcases h with rfl | ht
    · exact hb
    · rw [ht.of_length (by simp)]
      exact hb
  rw [commit_eq, Device.performed_bind, Device.performed_readPhase]
  apply sureOr_bind.mpr
  refine Record.sureOr_readPhase (fun _ _ => hprint) ?_ (fun _ _ => trivial) (fun _ _ => trivial)
    fun _ _ _ => trivial
  intro p' hp'
  obtain rfl := Except.ok.inj (hp.symm.trans hp')
  split
  · exact trivial
  · dsimp only
    split
    · rw [Device.performed_bind]
      apply sureOr_bind.mpr
      rw [Update.isRebooted, Device.performed_isRebooted]
      refine Record.sureOr_isRebooted (fun _ _ => hprint) ?_ ?_ ?_ fun _ _ _ _ => trivial
      · rintro x b' (rfl | ht)
        · exact hb
        · rw [ht.of_not_set fun _ _ => SysCall.noConfusion]
          exact hb
      · split
        · exact trivial
        · exact sureOr_performed_confirm
      -- A denied boot id counts as a reboot, so the commit goes on.
      · intro b' ht
        rw [ht.of_length (by simp)]
        exact sureOr_performed_confirm
    · exact sureOr_performed_confirm

theorem interrupted_of_steps {es : List (Event SysCall.Answer Board)}
    {rest : SysPlan (Except Error CommitOutcome)} (hp : b.phase = .ok p)
    (hs : Steps (SysCall.rules dev.record (Torn dev.record))
      (dev.perform (commit dev.workDir).run) b es rest b') :
    Interrupted dev.workDir p b b' := by
  refine Sure.world (sureOr_performed_commit hp) hs ?_
  rw [← b.without_nil]
  exact .early (List.nil_subset _)

end Cut

namespace Interrupted

variable {d : WorkDir} {idFile : String}

theorem phase (h : Interrupted d p b b') (hp : b.phase = .ok p) :
    b'.phase = .ok p ∨ b'.phase = .ok p.afterCommit ∧ b' = b.confirmed d p := by
  cases h with
  | early => exact .inl hp
  | stamped => exact .inl ((Board.stamp_phase _).trans hp)
  | confirmed => exact .inr ⟨Board.record_phase _ _, rfl⟩

theorem nodes (h : Interrupted d p b b') {path : String} (hd : b.nodes path ≠ .directory) :
    b'.nodes path ≠ .directory := by
  cases h with
  | early | stamped | confirmed => exact fun hn => hd (Board.directory_of_without hn)

theorem isRebooted (h : Interrupted d p b b') (hf : b.IsFresh idFile) :
    (b'.reboot idFile).isRebooted = true := by
  have hstamped {c : Board} {n : Nat}
      (hc : c.vars Record.bootIdVariable = some ⟨b.bootId, n⟩) :
      (c.reboot idFile).isRebooted = true := by
    have hv : (c.reboot idFile).value? Record.bootIdVariable = some (BootEnv.shown b.bootId) := by
      rw [Board.value?, Board.reboot, hc, Option.map_some]
    rw [Board.isRebooted, hv]
    exact bne_iff_ne.mpr hf.2
  cases h with
  | early =>
      rw [Board.isRebooted]
      split
      case h_1 s hs => exact bne_iff_ne.mpr (hf.1 s hs)
      case h_2 => rfl
  | stamped => exact hstamped (Board.write_vars_self ..)
  | confirmed => exact hstamped (Board.record_bootIdVariable _ _)

end Interrupted

theorem WorkDir.exists_of_mem_removedPaths {d : WorkDir} {path : String}
    (h : path ∈ d.removedPaths p) : ∃ e, d.pathOf e = path := by
  rw [removedPaths] at h
  split at h
  · obtain ⟨e, -, he⟩ := List.mem_map.mp h
    exact ⟨e, he⟩
  · cases h

theorem WorkDir.absent_of_confirmed {d : WorkDir} (h : p.afterCommit = .idle) (e : Entry) :
    (b.confirmed d p).nodes (d.pathOf e) = .absent := by
  have hpaths : d.removedPaths p = Entry.all.map d.pathOf := if_pos (Phase.isIdle_iff.mpr h)
  have hmem : d.pathOf e ∈ d.removedPaths p := by
    rw [hpaths]
    exact List.mem_map_of_mem (Entry.mem_all e)
  exact if_pos hmem

theorem commits_cons {x y : Except Error CommitOutcome} {xs : List (Except Error CommitOutcome)}
    (h : ∀ x b', Gives (dev.calls Never) (commit dev.workDir).run b x b' ↔ x = y ∧ b' = c) :
    Commits dev b (x :: xs) b' ↔ x = y ∧ Commits dev c xs b' := by
  constructor
  · intro hc
    cases hc with
    | cons hx hr =>
        obtain ⟨rfl, rfl⟩ := (h _ _).mp hx
        exact ⟨rfl, hr⟩
  · rintro ⟨rfl, hr⟩
    exact .cons ((h _ _).mpr ⟨rfl, rfl⟩) hr

namespace Settles

theorem zero (hp : b.phase = .ok .idle) : Settles dev 0 b b := by
  refine ⟨hp, fun m xs b' hlen => ?_⟩
  rw [Nat.zero_add] at hlen
  rw [List.replicate_zero, List.nil_append]
  induction m generalizing xs with
  | zero =>
      obtain rfl := List.length_eq_zero_iff.mp hlen
      constructor
      · intro h
        cases h
        exact ⟨rfl, rfl⟩
      · rintro ⟨-, rfl⟩
        exact .nil _
  | succ m ih =>
      obtain ⟨x, xs, rfl⟩ := List.exists_cons_of_length_eq_add_one hlen
      rw [commits_cons fun _ _ => gives_commit_notNeeded hp, ih xs (Nat.succ.inj hlen),
        List.replicate_succ, List.cons.injEq, and_assoc]

theorem succ {n : Nat} (hp : b.phase = .ok p) (hi : p ≠ .idle)
    (hr : p.awaitsReboot → b.isRebooted)
    (hd : ∀ path ∈ dev.workDir.removedPaths p, b.nodes path ≠ .directory)
    (h : Settles dev n (b.confirmed dev.workDir p) c) : Settles dev (n + 1) b c := by
  refine ⟨h.phase, fun m xs b' hlen => ?_⟩
  have hlen : xs.length = n + m + 1 := by omega
  obtain ⟨x, xs, rfl⟩ := List.exists_cons_of_length_eq_add_one hlen
  rw [commits_cons fun _ _ => gives_commit_committed hp hi hr hd,
    h.commits m xs b' (Nat.succ.inj hlen), List.replicate_succ, List.cons_append,
    List.cons.injEq, and_assoc]

end Settles

theorem exists_settles (hp : b.phase = .ok p) (hr : b.isRebooted = true)
    (hd : ∀ e, b.nodes (dev.workDir.pathOf e) ≠ .directory) :
    ∃ n c, n ≤ 2 ∧ Settles dev n b c ∧
      (p ≠ .idle → ∀ e, c.nodes (dev.workDir.pathOf e) = .absent) := by
  have hd' (p : Phase) : ∀ path ∈ dev.workDir.removedPaths p, b.nodes path ≠ .directory := by
    intro path hpath
    obtain ⟨e, rfl⟩ := WorkDir.exists_of_mem_removedPaths hpath
    exact hd e
  have hphase : (b.confirmed dev.workDir p).phase = .ok p.afterCommit := Board.record_phase _ _
  by_cases hi : p = .idle
  · subst hi
    exact ⟨0, b, by omega, .zero hp, fun h => absurd rfl h⟩
  by_cases ha : p.afterCommit = .idle
  · rw [ha] at hphase
    exact ⟨1, _, by omega, .succ hp hi (fun _ => hr) (hd' p) (.zero hphase),
      fun _ => WorkDir.absent_of_confirmed ha⟩
  -- Of a switch, the first commit leaves a phase that no longer waits for a reboot.
  · obtain ⟨t, rfl⟩ : ∃ t, p = .switched t := by
      cases p with
      | switched t => exact ⟨t, rfl⟩
      | _ => exact absurd rfl ha
    have hnodes : (b.confirmed dev.workDir (.switched t)).nodes = b.nodes := by
      rw [Board.confirmed, show dev.workDir.removedPaths (.switched t) = [] from rfl,
        Board.without_nil]
      rfl
    have hnext : Settles dev 1 (b.confirmed dev.workDir (.switched t))
        ((b.confirmed dev.workDir (.switched t)).confirmed dev.workDir (.reverted t)) := by
      refine .succ hphase Phase.noConfusion (absurd · Bool.false_ne_true) ?_
        (.zero (Board.record_phase _ _))
      rw [hnodes]
      exact hd' _
    exact ⟨2, _, by omega, .succ hp hi (fun _ => hr) (hd' _) hnext,
      fun _ => WorkDir.absent_of_confirmed rfl⟩

/-- Power is lost somewhere in a commit, with whatever had failed before in it, and the device comes
back. The next commits succeed, at most two of them, and from then on there is nothing to commit.
The files of the workflow are gone by then, or they were before the record came to rest. -/
theorem commit_survives_power_loss {idFile : String} {es : List (Event SysCall.Answer Board)}
    {rest : SysPlan (Except Error CommitOutcome)} (hp : b.phase = .ok p)
    (hd : ∀ e, b.nodes (dev.workDir.pathOf e) ≠ .directory)
    (hs : Steps (SysCall.rules dev.record (Torn dev.record))
      (dev.perform (commit dev.workDir).run) b es rest b')
    (hf : b.IsFresh idFile) :
    ∃ q n c, b'.phase = .ok q ∧ n ≤ 2 ∧ Settles dev n (b'.reboot idFile) c ∧
      (q ≠ .idle → ∀ e, c.nodes (dev.workDir.pathOf e) = .absent) ∧
      (q = .idle → p ≠ .idle → ∀ e, b'.nodes (dev.workDir.pathOf e) = .absent) := by
  have hcut : Interrupted dev.workDir p b b' := interrupted_of_steps hp hs
  obtain ⟨q, hq, hgone⟩ : ∃ q, b'.phase = .ok q ∧
      (q = .idle → p ≠ .idle → ∀ e, b'.nodes (dev.workDir.pathOf e) = .absent) := by
    rcases hcut.phase hp with hq | ⟨hq, rfl⟩
    · exact ⟨p, hq, fun h hn => absurd h hn⟩
    · exact ⟨_, hq, fun h _ => WorkDir.absent_of_confirmed h⟩
  have hd' : ∀ e, (b'.reboot idFile).nodes (dev.workDir.pathOf e) ≠ .directory :=
    fun e => hcut.nodes (hd e)
  obtain ⟨n, c, hn, hc, habsent⟩ := exists_settles (b := b'.reboot idFile) hq (hcut.isRebooted hf) hd'
  exact ⟨q, n, c, hq, hn, hc, habsent, hgone⟩

def commitCut (n : Nat) : Board :=
  (cut (SysCall.reply plainDevice.record) n
    (plainDevice.perform (commit plainDevice.workDir).run) rebootedBoard).2

/-- Power is lost between the two writes of the record. Without a reboot the phase would wait for
one, and after it the commit is made. -/
theorem commit_survives_half_record :
    rebootedBoard.IsFresh "third\n" ∧
      (commitCut 14).phase = .ok (.written .both) ∧ (commitCut 14).isRebooted = false ∧
      ∃ n c, n ≤ 2 ∧ Settles plainDevice n ((commitCut 14).reboot "third\n") c ∧
        ∀ e, c.nodes (plainDevice.workDir.pathOf e) = .absent := by
  have hp : rebootedBoard.phase = .ok (.written .both) := by decide +kernel
  have hv : rebootedBoard.value? Record.bootIdVariable = some "first" := by decide +kernel
  have hf : rebootedBoard.IsFresh "third\n" := by
    refine ⟨fun s hs => ?_, by decide +kernel⟩
    obtain rfl := Option.some.inj (hv.symm.trans hs)
    decide +kernel
  have hd (e : Entry) : rebootedBoard.nodes (plainDevice.workDir.pathOf e) ≠ .directory := nofun
  have hrules (q : SysCall) (b : Board) :
      SysCall.rules plainDevice.record (Torn plainDevice.record) q b
        (SysCall.reply plainDevice.record q b).1 (SysCall.reply plainDevice.record q b).2 :=
    .inl (SysCall.works_reply plainDevice.record q b)
  obtain ⟨es, hs⟩ := exists_steps_cut hrules 14
    (plainDevice.perform (commit plainDevice.workDir).run) rebootedBoard
  obtain ⟨q, n, c, hq, hn, hc, hgone, -⟩ := commit_survives_power_loss hp hd hs hf
  have hcut : (commitCut 14).phase = .ok (.written .both) := by decide +kernel
  obtain rfl := Except.ok.inj (hcut.symm.trans hq)
  exact ⟨hf, hcut, by decide +kernel, n, c, hn, hc, hgone nofun⟩

end Dualbank
