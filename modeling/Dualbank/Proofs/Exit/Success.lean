import Dualbank.Proofs.Exit.Accomplished

namespace Dualbank

open Plan Routine Phase CommandLine
open Call (faithful)

variable {k k' : Held} {t : Target} {d : WorkDir} {n : Nat}

namespace Report

theorem ofResult_update_ne (t : Target) (c : ErrorClass) :
    (ofResult (.update t) (.error c)).number ≠ (ResultCode.update t .successful).number := by
  rcases t with (_ | _) | _ <;> cases c <;> decide

theorem ofResult_rollback_ne (i : Image) (c : ErrorClass) :
    (ofResult (.rollback i) (.error c)).number ≠ (ResultCode.rollback i .successful).number := by
  cases i <;> cases c <;> decide

theorem ofResult_automatic_ne (t : Target) (c : ErrorClass) :
    (ofResult (.automatic t) (.error c)).number ≠ (ResultCode.automatic t .successful).number := by
  rcases t with (_ | _) | _ <;> cases c <;> decide

end Report

namespace CommandLine

theorem codeOf_eq_iff {α : Type} (family : Verdict → ResultCode)
    (report : Except ErrorClass α → Report)
    (hok : ∀ a, (report (.ok a)).exitStatus = .code (family .successful))
    (herror : ∀ c, (report (.error c)).exitStatus = .code (Report.ofResult family (.error c)))
    (hne : ∀ c, (Report.ofResult family (.error c)).number ≠ (family .successful).number)
    {y : Except Error α} : codeOf report y = (family .successful).number ↔ ∃ a, y = .ok a := by
  cases y with
  | ok a =>
      refine iff_of_true ?_ ⟨a, rfl⟩
      rw [codeOf, hok]
      rfl
  | error e =>
      refine iff_of_false ?_ nofun
      rw [codeOf]
      split
      · exact hne .fatal
      · rw [herror]
        exact hne e.errorClass

theorem codeOf_act_iff (family : Verdict → ResultCode) (report : Except ErrorClass Unit → Report)
    (hr : ∀ c, (report c).exitStatus = .code (Report.ofResult family c))
    (hne : ∀ c, (Report.ofResult family (.error c)).number ≠ (family .successful).number)
    {y : Except Error Unit} : codeOf report y = (family .successful).number ↔ y = .ok () :=
  (codeOf_eq_iff family report (fun _ => hr _) (fun _ => hr _) hne).trans
    ⟨fun ⟨_, h⟩ => h, fun h => ⟨(), h⟩⟩

theorem ofCommit_error (c : ErrorClass) :
    (Report.ofCommit (.error c)).number = 22 ∨ (Report.ofCommit (.error c)).number = 23 ∨
      (Report.ofCommit (.error c)).number = 124 := by
  cases c <;> decide

theorem codeOf_commit_error (e : Error) :
    codeOf .commit (.error e) = 22 ∨ codeOf .commit (.error e) = 23 ∨
      codeOf .commit (.error e) = 124 := by
  rw [codeOf]
  split
  · exact .inr (.inr rfl)
  · exact ofCommit_error e.errorClass

theorem codeOf_commit_iff {y : Except Error CommitOutcome} {o : CommitOutcome} :
    codeOf .commit y = codeOf .commit (.ok o) ↔ y = .ok o := by
  constructor
  · intro h
    cases y with
    | error e =>
        rcases codeOf_commit_error e with he | he | he
        all_goals
          rw [he] at h
          rcases o with _ | _ | _ | _ <;> exact absurd h (by decide)
    | ok o' =>
        rcases o with _ | _ | _ | _ <;> rcases o' with _ | _ | _ | _ <;>
          first | rfl | exact absurd h (by decide)
  · rintro rfl
    rfl

namespace Command

theorem update_code {firmware application : Option String}
    (ht : (requested firmware application).target? = some t) :
    Finishes faithful ((update firmware application).run d n).run k fun x es k' =>
      exitCode x = (ResultCode.update t .successful).number ↔
        Accomplishes ((requested firmware application).parts.map Work.ofPart)
          (.written t) es k' := by
  refine (update_reports ht).mono ?_
  rintro x es k' ⟨y, fs, gs, v, rfl, hy, htalk, hx⟩
  rw [hx, codeOf_act_iff (.update t) (.update t) (fun _ => rfl) (Report.ofResult_update_ne t),
    Accomplishes.talk_iff htalk]
  exact Update.update_finishes ht fs y v hy

theorem rollback_code {c : Command} {r : Routine Unit}
    (hc : Finishes faithful (c.run d n).run k (Reports faithful r k (.rollback t)))
    (hr : Finishes faithful r.run k fun x es k' => x = .ok () ↔
      Accomplishes (t.images.map Work.switch) (.switched t) es k' ∧ k'.marker = true) :
    Finishes faithful (c.run d n).run k fun x es k' =>
      exitCode x = (ResultCode.rollback (Report.leading t) .successful).number ↔
        Accomplishes (t.images.map Work.switch) (.switched t) es k' ∧ k'.marker = true := by
  refine hc.mono ?_
  rintro x es k' ⟨y, fs, gs, v, rfl, hy, htalk, hx⟩
  rw [hx, codeOf_act_iff (.rollback (Report.leading t)) (.rollback t) (fun _ => rfl)
    (Report.ofResult_rollback_ne _), Accomplishes.talk_iff htalk, htalk.held_eq]
  exact hr fs y v hy

theorem commit_code : Finishes faithful (commit.run d n).run k fun x es k' =>
    (exitCode x = ResultCode.commitSuccessful.number ↔
      k.phase ≠ idle ∧ k'.phase = k.phase.afterCommit) ∧
    (exitCode x = ResultCode.commitNotNeeded.number ↔
      k.phase = idle ∧ k' = k ∧ ∀ e ∈ es, e.question.Consults) ∧
    ∀ f, exitCode x = (ResultCode.rebootPending f).number ↔
      k.phase.awaitsReboot ∧ k.phase.includesFirmware = f ∧
        Answered es (.isRebooted f) (.ok false) ∧ k' = k ∧ ∀ e ∈ es, e.question.Consults := by
  refine commit_reports.mono ?_
  rintro x es k' ⟨y, fs, gs, v, rfl, hy, htalk, hx⟩
  have hends : CommitResult k y fs v := Update.commit_results d fs y v hy
  have hconsults : (∀ e ∈ fs ++ gs, e.question.Consults) ↔ ∀ e ∈ fs, e.question.Consults :=
    htalk.forall_append_iff fun _ _ => trivial
  rw [hx, htalk.held_eq, hconsults]
  refine ⟨codeOf_commit_iff.trans hends.committed_iff, codeOf_commit_iff.trans hends.notNeeded_iff,
    fun f => ?_⟩
  rw [htalk.answered_append_iff id]
  exact codeOf_commit_iff.trans hends.rebootPending_iff

theorem gate_code_ne {y : Except Error Admission} (hy : y ≠ .ok .allowed) :
    codeOf (gateReport t) y ≠ (ResultCode.automatic t .successful).number := by
  rcases y with e | g
  · rw [codeOf]
    split
    · exact Report.ofResult_automatic_ne t .fatal
    · exact Report.ofResult_automatic_ne t e.errorClass
  · cases g with
    | allowed => exact absurd rfl hy
    | formerFailure i => rcases t with (_ | _) | _ <;> cases i <;> decide
    | formerBootFailure => rcases t with (_ | _) | _ <;> decide
    | rebootPending f => rcases t with (_ | _) | _ <;> cases f <;> decide

theorem upToDate_talk_iff {parts : List (Image × Package)} {es fs : List HeldEvent}
    (h : Talk faithful k fs k') :
    UpToDate parts (es ++ fs) ∧ Unwritten (es ++ fs) ↔ UpToDate parts es ∧ Unwritten es :=
  and_congr (UpToDate.congr fun _ _ _ => h.answered_append_iff id)
    (h.forall_append_iff (P := fun q => q.Quiet ∧ q.Spares) fun _ _ => ⟨rfl, trivial⟩)

theorem automatic_code {stick : Stick} (ht : stick.offer.target? = some t) :
    Finishes faithful ((automatic stick).run d n).run k fun x es k' =>
      exitCode x = (ResultCode.automatic t .successful).number ↔ ∃ fs gs v, es = fs ++ gs ∧
        Steps faithful (Update.allowAutomatic d).run k fs (.done (.ok .allowed)) v ∧
          ((UpToDate stick.offer.parts gs ∧ Unwritten gs) ∨
            Accomplishes (stick.offer.parts.map Work.ofPart) (.written t) gs k') := by
  refine (automatic_finishes ht).mono ?_
  rintro x es k' ⟨y, fs, gs, v, rfl, hgate, hrest⟩
  have hunique : (∃ fs' gs' v', fs ++ gs = fs' ++ gs' ∧
      Steps faithful (Update.allowAutomatic d).run k fs' (.done (.ok .allowed)) v' ∧
        ((UpToDate stick.offer.parts gs' ∧ Unwritten gs') ∨
          Accomplishes (stick.offer.parts.map Work.ofPart) (.written t) gs' k')) ↔
      y = .ok .allowed ∧ ((UpToDate stick.offer.parts gs ∧ Unwritten gs) ∨
        Accomplishes (stick.offer.parts.map Work.ofPart) (.written t) gs k') := by
    constructor
    · rintro ⟨fs', gs', v', hes, hgate', hdone⟩
      obtain ⟨rfl, rfl, -⟩ := hgate.done_unique hgate' hes
      obtain rfl := List.append_cancel_left hes
      exact ⟨rfl, hdone⟩
    · rintro ⟨rfl, hdone⟩
      exact ⟨fs, gs, v, rfl, hgate, hdone⟩
  rw [hunique]
  rcases hrest with ⟨rfl, z, hs, ls, u, rfl, hz, htalk, hx⟩ | ⟨hy, -, hx⟩
  · have hcode := codeOf_eq_iff (.automatic t) (updateReport t) (fun _ => rfl) (fun _ => rfl)
      (Report.ofResult_automatic_ne t) (y := z)
    rw [hx, hcode, upToDate_talk_iff htalk, Accomplishes.talk_iff htalk]
    exact Iff.trans (Update.updateIfNewer_finishes ht hs z u hz) (and_iff_right rfl).symm
  · rw [hx]
    exact iff_of_false (gate_code_ne hy) fun h => hy h.1

end Command

end CommandLine

theorem Call.exists_faithful (q : Call) (k : Held) : ∃ x k', faithful q k x k' := by
  obtain ⟨x⟩ := q.nonempty_answer
  cases q with
  | readPhase => exact ⟨.ok k.phase, k, rfl, rfl⟩
  | writePhase p => exact ⟨.ok (), { k with phase := p }, rfl⟩
  | create m =>
      cases m with
      | rollback =>
          cases hm : k.marker with
          | false => exact ⟨.ok (), { k with marker := true }, hm, rfl⟩
          | true =>
              have hpresent : (OsError.number Errno.alreadyPresent).isAlreadyPresent := rfl
              exact ⟨.error (.number Errno.alreadyPresent), k, iff_of_true hpresent hm, rfl⟩
      | _ => exact ⟨x, k, rfl⟩
  | remove e =>
      rcases e with (_ | _ | _ | _ | _) | _
      case marker.rollback => exact ⟨.ok (), { k with marker := false }, rfl⟩
      all_goals exact ⟨x, k, rfl⟩
  | _ => exact ⟨x, k, rfl⟩

/-- In every run of a command to its end, which each of its runs goes on to, the exit code of a
success stands for what was done: all parts written in order, all images switched in order and the
marker set, the commit made. The other codes of a commit stand for a record that was left as it
was. -/
theorem exit_codes_of_success (d : WorkDir) (n : Nat) (k : Held) :
    (∀ firmware application t, (Command.requested firmware application).target? = some t →
      Finishes faithful ((Command.update firmware application).run d n).run k fun x es k' =>
        exitCode x = (ResultCode.update t .successful).number ↔
          Accomplishes ((Command.requested firmware application).parts.map Work.ofPart)
            (.written t) es k') ∧
    (∀ t (c : Command), c = .rollback t ∨ c = .switchSlot t →
      Finishes faithful (c.run d n).run k fun x es k' =>
        exitCode x = (ResultCode.rollback (Report.leading t) .successful).number ↔
          Accomplishes (t.images.map Work.switch) (.switched t) es k' ∧ k'.marker = true) ∧
    (Finishes faithful (Command.commit.run d n).run k fun x es k' =>
      (exitCode x = ResultCode.commitSuccessful.number ↔
        k.phase ≠ idle ∧ k'.phase = k.phase.afterCommit) ∧
      (exitCode x = ResultCode.commitNotNeeded.number ↔
        k.phase = idle ∧ k' = k ∧ ∀ e ∈ es, e.question.Consults) ∧
      ∀ f, exitCode x = (ResultCode.rebootPending f).number ↔
        k.phase.awaitsReboot ∧ k.phase.includesFirmware = f ∧
          Answered es (.isRebooted f) (.ok false) ∧ k' = k ∧ ∀ e ∈ es, e.question.Consults) ∧
    (∀ stick t, stick.offer.target? = some t →
      Finishes faithful ((Command.automatic stick).run d n).run k fun x es k' =>
        exitCode x = (ResultCode.automatic t .successful).number ↔ ∃ fs gs v, es = fs ++ gs ∧
          Steps faithful (Update.allowAutomatic d).run k fs (.done (.ok .allowed)) v ∧
            ((UpToDate stick.offer.parts gs ∧ Unwritten gs) ∨
              Accomplishes (stick.offer.parts.map Work.ofPart) (.written t) gs k')) ∧
    ∀ c : Command, ∃ x k', Gives faithful (c.run d n).run k x k' := by
  refine ⟨fun _ _ _ ht => Command.update_code ht, ?_, Command.commit_code,
    fun _ _ ht => Command.automatic_code ht, fun c => exists_gives Call.exists_faithful _ k⟩
  rintro t c (rfl | rfl)
  · exact Command.rollback_code Command.rollback_reports (Update.rollback_finishes t)
  · exact Command.rollback_code Command.switchSlot_reports (Update.switchSlot_finishes t)

end Dualbank
