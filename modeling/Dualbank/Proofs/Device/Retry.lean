import Dualbank.Proofs.Device.Calls

namespace Dualbank

open Plan Update

def WorkDir.removedPaths (d : WorkDir) (p : Phase) : List String :=
  if p.afterCommit.isIdle then Entry.all.map d.pathOf else []

def Board.confirmed (b : Board) (d : WorkDir) (p : Phase) : Board :=
  (b.without (d.removedPaths p)).record p.afterCommit

/-- Every end of a commit, with what it leaves of the board. Of a reading that fails, nothing is
known but that there was one. -/
inductive CommitEnds (d : WorkDir) (sort : SysCall → Prop) (b : Board) :
    Except Error CommitOutcome → Board → Prop
  | notNeeded (hp : b.phase = .ok .idle ∨ ∃ q, sort q) : CommitEnds d sort b (.ok .notNeeded) b
  | pending {p : Phase} (hp : b.phase = .ok p) (ha : p.awaitsReboot) (hr : b.isRebooted = false) :
      CommitEnds d sort b (.ok (.rebootPending p.includesFirmware)) b
  | committed {p : Phase} (hp : b.phase = .ok p) (hi : p ≠ .idle)
      (hr : p.awaitsReboot → b.isRebooted ∨ ∃ q, sort q)
      (hd : ∀ path ∈ d.removedPaths p, b.nodes path ≠ .directory) :
      CommitEnds d sort b (.ok .committed) (b.confirmed d p)
  | unread {e e' : Error} (hp : b.phase = .error e') : CommitEnds d sort b (.error e) b
  | blocked {p : Phase} {e : Error} {path : String} {paths : List String} (hp : b.phase = .ok p)
      (hr : p.awaitsReboot → b.isRebooted ∨ ∃ q, sort q) (hpath : path ∈ d.removedPaths p)
      (hd : b.nodes path = .directory) : CommitEnds d sort b (.error e) (b.without paths)
  | early {q : SysCall} {e : Error} {paths : List String} (hq : sort q)
      (hsub : ∀ p, b.phase = .ok p → paths ⊆ d.removedPaths p) :
      CommitEnds d sort b (.error e) (b.without paths)
  | late {p : Phase} {q : SysCall} {e : Error} (hq : sort q) (hp : b.phase = .ok p) :
      CommitEnds d sort b (.error e) (b.without (d.removedPaths p)).stamp

def EndsCommit (dev : Device) (sort : SysCall → Prop) (b : Board) (r : Routine CommitOutcome)
    (c : Board) : Prop :=
  SureOr (dev.calls (Inert sort)) (fun _ => True) r c
    (fun o b' => CommitEnds dev.workDir sort b (.ok o) b')
    fun e b' => CommitEnds dev.workDir sort b (.error e) b'

variable {dev : Device} {sort : SysCall → Prop} {b b' : Board} {p : Phase}

theorem CommitEnds.unchanged {d : WorkDir} {q : SysCall} {e : Error} (hq : sort q) :
    CommitEnds d sort b (.error e) b := by
  have h : CommitEnds d sort b (.error e) (b.without []) := .early hq fun _ _ => List.nil_subset _
  rwa [Board.without_nil] at h

theorem CommitEnds.early_of_phase {d : WorkDir} {q : SysCall} {e : Error} {paths : List String}
    (hq : sort q) (hp : b.phase = .ok p) (hsub : paths ⊆ d.removedPaths p) :
    CommitEnds d sort b (.error e) (b.without paths) := by
  refine .early hq fun p' hp' => ?_
  obtain rfl := Except.ok.inj (hp.symm.trans hp')
  exact hsub

namespace Update

theorem endsCommit_writePhase (hp : b.phase = .ok p) (hi : p ≠ .idle)
    (hr : p.awaitsReboot → b.isRebooted ∨ ∃ q, sort q)
    (hd : ∀ path ∈ dev.workDir.removedPaths p, b.nodes path ≠ .directory) :
    EndsCommit dev sort b
      (do Routine.writePhase p.afterCommit; return CommitOutcome.committed)
      (b.without (dev.workDir.removedPaths p)) := by
  apply sureOr_bind.mpr
  refine Device.sureOr_writePhase ?_ ?_ fun _ _ hq => .late hq hp
  · exact .committed hp hi hr hd
  · exact fun _ _ hq => .early_of_phase hq hp (List.Subset.refl _)

theorem endsCommit_clear (hp : b.phase = .ok p) (hi : p ≠ .idle)
    (hr : p.awaitsReboot → b.isRebooted ∨ ∃ q, sort q) :
    EndsCommit dev sort b
      (do
        if p.afterCommit.isIdle then dev.workDir.clear
        Routine.writePhase p.afterCommit
        return CommitOutcome.committed) b := by
  split
  case isTrue h =>
      have hpaths : dev.workDir.removedPaths p = Entry.all.map dev.workDir.pathOf := if_pos h
      apply sureOr_bind.mpr
      refine Device.sureOr_forM_remove ?_ ?_ ?_
      · rw [← hpaths]
        exact endsCommit_writePhase hp hi hr
      · rw [← hpaths]
        exact fun e paths path _ hpath hd => .blocked hp hr hpath hd
      · rw [← hpaths]
        exact fun q e paths hq hsub => .early_of_phase hq hp hsub
  case isFalse h =>
      have hpaths : dev.workDir.removedPaths p = [] := if_neg h
      have hwrite := @endsCommit_writePhase dev sort b p hp hi hr
      rw [hpaths, Board.without_nil] at hwrite
      exact hwrite (List.forall_mem_nil _)

theorem endsCommit_commit : EndsCommit dev sort b (commit dev.workDir) b := by
  apply sureOr_bind.mpr
  refine Device.sureOr_readPhase ?_ (fun e he => .unread he) (fun q hq => .notNeeded (.inr ⟨q, hq⟩))
    fun _ _ hq => .unchanged hq
  intro p hp
  split
  case isTrue hi =>
      rw [Phase.isIdle_iff.mp hi] at hp
      exact .notNeeded (.inl hp)
  case isFalse hi =>
      have hi : p ≠ .idle := fun h => hi (Phase.isIdle_iff.mpr h)
      dsimp only
      split
      case isTrue ha =>
          apply sureOr_bind.mpr
          refine Device.sureOr_isRebooted ?_
            (fun q hq => endsCommit_clear hp hi fun _ => .inr ⟨q, hq⟩) fun _ _ hq => .unchanged hq
          cases hr : b.isRebooted with
          | false => exact .pending hp ha hr
          | true => exact endsCommit_clear hp hi fun _ => .inl hr
      case isFalse ha => exact endsCommit_clear hp hi fun h => absurd h ha

theorem commit_ends {x : Except Error CommitOutcome}
    (h : Gives (dev.calls (Inert sort)) (commit dev.workDir).run b x b') :
    CommitEnds dev.workDir sort b x b' := by
  have hs : EndsCommit dev sort b (commit dev.workDir) b := endsCommit_commit
  rw [EndsCommit] at hs
  cases x with
  | ok o => exact hs.gives_ok h
  | error e => exact hs.gives_error h

section Undisturbed

variable {x : Except Error CommitOutcome}

theorem gives_commit_notNeeded (hp : b.phase = .ok .idle) :
    Gives (dev.calls Never) (commit dev.workDir).run b x b' ↔ x = .ok .notNeeded ∧ b' = b := by
  refine SureOr.gives_iff (dev.exists_calls Never) ?_
  apply sureOr_bind.mpr
  refine Device.sureOr_readPhase ?_ (fun e he => ?_) (fun _ => False.elim) fun _ _ => False.elim
  · intro p hp'
    obtain rfl := Except.ok.inj (hp.symm.trans hp')
    exact ⟨rfl, rfl⟩
  · rw [hp] at he
    cases he

theorem gives_commit_pending (hp : b.phase = .ok p) (ha : p.awaitsReboot)
    (hr : b.isRebooted = false) :
    Gives (dev.calls Never) (commit dev.workDir).run b x b' ↔
      x = .ok (.rebootPending p.includesFirmware) ∧ b' = b := by
  refine gives_iff_of_unique (dev.exists_calls Never) fun x b' h => ?_
  have hphase {q : Phase} (hq : b.phase = .ok q) : p = q := Except.ok.inj (hp.symm.trans hq)
  cases commit_ends h with
  | notNeeded hq =>
      obtain rfl := hphase (hq.resolve_right nofun)
      cases ha
  | pending hq _ _ =>
      obtain rfl := hphase hq
      exact ⟨rfl, rfl⟩
  | committed hq _ hn _ | blocked hq hn _ _ =>
      obtain rfl := hphase hq
      exact absurd (hr.symm.trans ((hn ha).resolve_right nofun)) Bool.false_ne_true
  | unread hq =>
      rw [hp] at hq
      cases hq
  | early hq => exact hq.elim
  | late hq => exact hq.elim

theorem gives_commit_committed (hp : b.phase = .ok p) (hi : p ≠ .idle)
    (hr : p.awaitsReboot → b.isRebooted)
    (hd : ∀ path ∈ dev.workDir.removedPaths p, b.nodes path ≠ .directory) :
    Gives (dev.calls Never) (commit dev.workDir).run b x b' ↔
      x = .ok .committed ∧ b' = b.confirmed dev.workDir p := by
  refine gives_iff_of_unique (dev.exists_calls Never) fun x b' h => ?_
  have hphase {q : Phase} (hq : b.phase = .ok q) : p = q := Except.ok.inj (hp.symm.trans hq)
  cases commit_ends h with
  | notNeeded hq => exact absurd (hphase (hq.resolve_right nofun)) hi
  | pending hq ha hn =>
      obtain rfl := hphase hq
      exact absurd (hn.symm.trans (hr ha)) Bool.false_ne_true
  | committed hq =>
      obtain rfl := hphase hq
      exact ⟨rfl, rfl⟩
  | unread hq =>
      rw [hp] at hq
      cases hq
  | blocked hq _ hpath hn =>
      obtain rfl := hphase hq
      exact absurd hn (hd _ hpath)
  | early hq => exact hq.elim
  | late hq => exact hq.elim

end Undisturbed

/-- A commit that would succeed fails, and is tried again once nothing fails any more. It ends as
the first would have, unless the first replaced the boot id of a phase that awaits a reboot: then
it asks for another reboot. -/
theorem commit_after_failure {e : Error} {b₁ b₂ : Board} (hp : b.phase = .ok p)
    (h₁ : Gives (dev.calls Never) (commit dev.workDir).run b (.ok .committed) b₁)
    (h₂ : Gives (dev.calls (Inert sort)) (commit dev.workDir).run b (.error e) b₂) :
    b₂.phase = b.phase ∧
      (b₂.vars Record.bootIdVariable = b.vars Record.bootIdVariable ∨ ¬p.awaitsReboot →
        ∀ x b₃, Gives (dev.calls Never) (commit dev.workDir).run b₂ x b₃ ↔
          x = .ok .committed ∧ b₃ = b₁) ∧
      (b₂.vars Record.bootIdVariable ≠ b.vars Record.bootIdVariable ∧ p.awaitsReboot ∧
          Text.IsWord b.bootId →
        ∀ x b₃, Gives (dev.calls Never) (commit dev.workDir).run b₂ x b₃ ↔
          x = .ok (.rebootPending p.includesFirmware) ∧ b₃ = b₂) := by
  have hphase {q : Phase} (hq : b.phase = .ok q) : p = q := Except.ok.inj (hp.symm.trans hq)
  obtain ⟨hi, hr, hd, rfl⟩ : p ≠ .idle ∧ (p.awaitsReboot → b.isRebooted) ∧
      (∀ path ∈ dev.workDir.removedPaths p, b.nodes path ≠ .directory) ∧
      b₁ = b.confirmed dev.workDir p := by
    cases commit_ends h₁ with
    | committed hq hi hr hd =>
        obtain rfl := hphase hq
        exact ⟨hi, fun ha => (hr ha).resolve_right nofun, hd, rfl⟩
  have hd' (paths : List String) :
      ∀ path ∈ dev.workDir.removedPaths p, (b.without paths).nodes path ≠ .directory :=
    fun path hpath hn => hd path hpath (Board.directory_of_without hn)
  cases commit_ends h₂ with
  | unread hn =>
      rw [hp] at hn
      cases hn
  | blocked hq _ hpath hn =>
      obtain rfl := hphase hq
      exact absurd hn (hd _ hpath)
  | @early _ _ paths _ hsub =>
      -- The record is as it was, and the second commit removes what is left.
      have hp' : (b.without paths).phase = .ok p := hp
      refine ⟨rfl, fun _ x b₃ => ?_, fun h => absurd rfl h.1⟩
      rw [gives_commit_committed hp' hi hr (hd' _), Board.confirmed,
        Board.without_without (hsub _ hp), Board.confirmed]
  | late _ hq =>
      obtain rfl := hphase hq
      -- Beside the new boot id the phase waits again, unless that id was there before.
      have hp' : (b.without (dev.workDir.removedPaths p)).stamp.phase = .ok p :=
        (Board.stamp_phase _).trans hp
      refine ⟨Board.stamp_phase _, fun h x b₃ => ?_, fun ⟨_, ha, hid⟩ x b₃ => ?_⟩
      · have hr' : p.awaitsReboot → (b.without (dev.workDir.removedPaths p)).stamp.isRebooted := by
          intro ha
          have hv := h.resolve_right (not_not_intro ha)
          rw [← hr ha]
          exact Board.isRebooted_congr hv rfl
        rw [gives_commit_committed hp' hi hr' (hd' _), Board.confirmed, Board.stamp_without,
          Board.without_without (List.Subset.refl _), Board.stamp_record, Board.confirmed]
      · exact gives_commit_pending hp' ha
          (Board.isRebooted_of_stamped hid (Board.write_vars_self ..))

def rebootedBoard : Board :=
  (Board.mk (fun _ => none) (fun _ => .file) 0 "first\n" |>.record (.written .both)).reboot
    "second\n"

def commitWithout (q : SysCall) : Except Error CommitOutcome × Board :=
  plainDevice.runBut (· = q) (commit plainDevice.workDir).run rebootedBoard

theorem gives_commitWithout {q : SysCall} {x : Except Error CommitOutcome}
    (h : (commitWithout q).1 = x) :
    Gives (plainDevice.calls (Inert (· = q))) (commit plainDevice.workDir).run rebootedBoard x
      (commitWithout q).2 :=
  Device.gives_runBut (fun _ _ hq => ⟨of_decide_eq_true hq, rfl⟩) h

theorem gives_commit_rebootedBoard :
    Gives (plainDevice.calls Never) (commit plainDevice.workDir).run rebootedBoard (.ok .committed)
      (rebootedBoard.confirmed plainDevice.workDir (.written .both)) := by
  have hp : rebootedBoard.phase = .ok (.written .both) := by decide +kernel
  exact (gives_commit_committed hp (by decide) (fun _ => by decide +kernel) (by decide +kernel)).mpr
    ⟨rfl, rfl⟩

theorem commit_after_failed_removal :
    (commitWithout (.remove "/w/updateInstalled")).2.phase = .ok (.written .both) ∧
      ∀ x b₃, Gives (plainDevice.calls Never) (commit plainDevice.workDir).run
          (commitWithout (.remove "/w/updateInstalled")).2 x b₃ ↔
        x = .ok .committed ∧
          b₃ = rebootedBoard.confirmed plainDevice.workDir (.written .both) := by
  have hp : rebootedBoard.phase = .ok (.written .both) := by decide +kernel
  have he : (commitWithout (.remove "/w/updateInstalled")).1 =
    .error (.io (.removing "/w/updateInstalled") (.number Errno.inputOutput)) := by decide +kernel
  have hv : (commitWithout (.remove "/w/updateInstalled")).2.vars Record.bootIdVariable =
    rebootedBoard.vars Record.bootIdVariable := by decide +kernel
  obtain ⟨hphase, hretry, -⟩ := commit_after_failure hp gives_commit_rebootedBoard
    (gives_commitWithout he)
  exact ⟨hphase.trans hp, hretry (.inl hv)⟩

/-- The phase could not be stored after the boot id was: no second try succeeds before another
reboot. -/
theorem no_commit_after_half_record :
    ¬∀ (b₁ b₂ : Board) (e : Error), Text.IsWord rebootedBoard.bootId →
      Gives (plainDevice.calls Never) (commit plainDevice.workDir).run rebootedBoard
        (.ok .committed) b₁ →
      Gives (plainDevice.calls (Inert (· = .run "fw_setenv" [Record.phaseVariable, "0"])))
        (commit plainDevice.workDir).run rebootedBoard (.error e) b₂ →
      ∀ x b₃, Gives (plainDevice.calls Never) (commit plainDevice.workDir).run b₂ x b₃ →
        x = .ok .committed ∧ b₃ = b₁ := by
  intro h
  have he : (commitWithout (.run "fw_setenv" [Record.phaseVariable, "0"])).1 =
    .error (.bootEnv (.notStarted "fw_setenv" (.number Errno.inputOutput))) := by decide +kernel
  have hp : (commitWithout (.run "fw_setenv" [Record.phaseVariable, "0"])).2.phase =
    .ok (.written .both) := by decide +kernel
  have hpending : Gives (plainDevice.calls Never) (commit plainDevice.workDir).run
      (commitWithout (.run "fw_setenv" [Record.phaseVariable, "0"])).2 (.ok (.rebootPending true))
      (commitWithout (.run "fw_setenv" [Record.phaseVariable, "0"])).2 :=
    (gives_commit_pending hp (by decide) (by decide +kernel)).mpr ⟨rfl, rfl⟩
  have hx := h _ _ _ (by decide +kernel) gives_commit_rebootedBoard (gives_commitWithout he) _ _
    hpending
  cases hx.1

end Update

end Dualbank
