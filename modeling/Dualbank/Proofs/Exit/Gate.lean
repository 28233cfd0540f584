import Dualbank.Proofs.Exit.Session
import Dualbank.Proofs.Phase.Rounds
import Dualbank.Proofs.Plan.Race

namespace Dualbank

open Plan Update CommandLine

variable {W : Type} {rules : Rules Call.Answer W} {d : WorkDir} {w w' v : W} {n : Nat}
  {stick : Stick} {t : Target} {es : List (Event Call.Answer W)}

namespace Call

def Installs (q : Call) : Prop := ∃ i p, q = install i p

theorem Installs.not_ofCommit {q : Call} (h : q.Installs) : ¬q.OfCommit := by
  obtain ⟨i, p, rfl⟩ := h
  exact id

theorem Installs.not_isPrint {q : Call} (h : q.Installs) : ¬q.IsPrint := by
  obtain ⟨i, p, rfl⟩ := h
  exact id

end Call

theorem automatic_number_ne_unhandled (t : Target) (verdict : Verdict) :
    (ResultCode.automatic t verdict).number ≠ ResultCode.unhandled.number := by
  rcases t with (_ | _) | _ <;> cases verdict <;> decide

/-- The number of questions an admission asks at most: each round reads, commits and clears. -/
theorem allowAutomatic_length_le {q : Plan Call.Answer (Except Error Admission)}
    (hs : Steps rules (allowAutomatic d).run w es q w') : es.length ≤ 40 := by
  have hall : AsksAtMost (fun _ => true) (allowAutomatic d).run
      (maxForcedCommits * (12 * 1 + 1) + 1) :=
    settle_asksAtMost d (fun _ _ => Nat.le_refl 1) (fun _ => Nat.le_refl 1) maxForcedCommits
  have := hall.countP_le hs
  rwa [List.countP_true] at this

theorem allowAutomatic_writes_le {q : Plan Call.Answer (Except Error Admission)}
    (hs : Steps rules (allowAutomatic d).run w es q w') :
    es.countP (fun e => e.question.isWrite) ≤ maxForcedCommits := by
  have hwrites : AsksAtMost Call.isWrite (allowAutomatic d).run
      (maxForcedCommits * (12 * 0 + 1) + 0) := by
    refine settle_asksAtMost d (fun q hq => ?_) (fun _ => Nat.le_refl 1) maxForcedCommits
    rw [hq]
    exact Nat.le_refl 0
  exact hwrites.countP_le hs

theorem steps_automatic_of_contractViolation (ht : stick.offer.target? = some t) {f : ContractFault}
    (hs : Steps rules (allowAutomatic d).run w es (.done (.error (.contractViolation f))) v) :
    Steps rules ((Command.automatic stick).run d n).run w es
      (.done (.error (.failed "Allowing automatic update failed" (.contractViolation f)))) v := by
  rw [Command.run_run_automatic ht]
  exact hs.bind _

theorem allowed_before_install {q : Plan Call.Answer (Except Abort ExitStatus)}
    (hs : Steps rules ((Command.automatic stick).run d n).run w es q w')
    {e : Event Call.Answer W} (he : e ∈ es) (hi : e.question.Installs) : ∃ fs gs v, es = fs ++ gs ∧ e ∈ gs ∧
      Steps rules (allowAutomatic d).run w fs (.done (.ok .allowed)) v := by
  cases ht : stick.offer.target? with
  | none =>
      rw [Command.run_automatic_of_none ht] at hs
      cases hs
      cases he
  | some t =>
      have hcommits {fs : List (Event Call.Answer W)}
          {r : Plan Call.Answer (Except Error Admission)} {u : W}
          (h : Steps rules (allowAutomatic d).run w fs r u) : e ∉ fs := fun hmem =>
        hi.not_ofCommit ((Operation.allowAutomatic.asks d).of_mem h e hmem)
      rw [Command.run_run_automatic ht] at hs
      rcases Steps.bind_cases hs with ⟨r, -, h⟩ | ⟨y, v, fs, gs, rfl, h, hgs⟩
      · exact absurd he (hcommits h)
      · have hmem : e ∈ gs := (List.mem_append.mp he).resolve_left (hcommits h)
        by_cases hy : y = .ok .allowed
        · subst hy
          exact ⟨fs, gs, v, rfl, hmem, h⟩
        · have hprints := (Command.afterAllowing_prints (o := stick.offer) (t := t) hy).asks
          exact absurd (hprints.of_mem hgs e hmem) hi.not_isPrint

/-- Whatever store, oracle, engine and work directory answer, an admission asks at most 40
questions, at most three of them writes, and comes to an end if it is answered. What it ends in is
justified by the answers it got. A breach of contract ends the whole command with that error, whose
exit code is none of an unattended update; and the engine installs only after an admission that
allowed it. -/
theorem admission_trusts_no_store (rules : Rules Call.Answer W) (d : WorkDir) (w : W) :
    (∀ es q w', Steps rules (allowAutomatic d).run w es q w' →
      es.countP (fun e => e.question.isWrite) ≤ maxForcedCommits ∧ es.length ≤ 40 ∧
        ((∀ q v, ∃ x v', rules q v x v') → ∃ x v, Gives rules q w' x v)) ∧
    (∀ es x w', Steps rules (allowAutomatic d).run w es (.done x) w' →
      Justified rules d w es x w') ∧
    (∀ (stick : Stick) (n : Nat) fs f v, stick.offer.target?.isSome →
      Steps rules (allowAutomatic d).run w fs (.done (.error (.contractViolation f))) v →
      ∀ gs x w', Steps rules ((Command.automatic stick).run d n).run w (fs ++ gs) (.done x) w' ↔
        gs = [] ∧ w' = v ∧
          x = .error (.failed "Allowing automatic update failed" (.contractViolation f))) ∧
    (∀ abort t verdict, exitCode (.error abort) ≠ (ResultCode.automatic t verdict).number) ∧
    ∀ (stick : Stick) (n : Nat) es q w',
      Steps rules ((Command.automatic stick).run d n).run w es q w' →
      ∀ e ∈ es, e.question.Installs → ∃ fs gs v, es = fs ++ gs ∧ e ∈ gs ∧
        Steps rules (allowAutomatic d).run w fs (.done (.ok .allowed)) v := by
  refine ⟨fun es q w' hs => ?_, fun es x w' hs => justified_of_steps hs,
    fun stick n fs f v ht hs gs x w' => ?_, ?_, fun stick n es q w' hs e he hi => ?_⟩
  · exact ⟨allowAutomatic_writes_le hs, allowAutomatic_length_le hs, fun h => exists_gives h q w'⟩
  · obtain ⟨t, ht⟩ := Option.isSome_iff_exists.mp ht
    have habort := steps_automatic_of_contractViolation (n := n) ht hs
    constructor
    · intro h
      obtain ⟨hes, rfl, rfl⟩ := Steps.done_unique h habort (List.append_nil _)
      exact ⟨List.append_right_eq_self.mp hes, rfl, rfl⟩
    · rintro ⟨rfl, rfl, rfl⟩
      rw [List.append_nil]
      exact habort
  · exact fun abort t verdict => (automatic_number_ne_unhandled t verdict).symm
  · exact allowed_before_install hs he hi

end Dualbank
