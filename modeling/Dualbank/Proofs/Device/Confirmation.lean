import Dualbank.Proofs.Device.FailedReading
import Dualbank.Proofs.Plan.Finishes

namespace Dualbank

open Plan Record

/-- A call that fails changes nothing, or it is the setting tool and stored the value all the
same. -/
def Torn (r : Record) (q : SysCall) (b b' : Board) : Prop :=
  b' = b ∨ ∃ name value, q = .run r.env.setTool [name, value] ∧ b' = b.write name value

/-- A device from its first boot on. The record is written, each time up to any point, and the
device reboots; nothing is asked of the new boot id but that it is a word. -/
inductive Life (r : Record) : Board → Prop
  | start {b : Board} (hid : Text.IsWord b.bootId) (hp : b.vars phaseVariable = none)
      (hi : b.vars bootIdVariable = none) : Life r b
  | written {b b' : Board} {p : Phase} {es : List (Event SysCall.Answer Board)}
      {rest : SysPlan (Except Error Unit)} (h : Life r b)
      (hs : Steps (SysCall.rules r (Torn r)) (r.writePhase p).run b es rest b') : Life r b'
  | rebooted {b : Board} {idFile : String} (h : Life r b)
      (hid : Text.IsWord (b.reboot idFile).bootId) : Life r (b.reboot idFile)

/-- A stored boot id is that of the boot in which it was stored, and a stored phase is not younger
than the boot id beside it. The boot id goes first in each write, and keeps this wherever one stops.
-/
structure Board.Dated (b : Board) : Prop where
  isWord : Text.IsWord b.bootId
  bootId : ∀ c, b.vars bootIdVariable = some c →
    c.boot ≤ b.boot ∧ (c.boot = b.boot → c.value = b.bootId)
  phase : ∀ c, b.vars phaseVariable = some c → (∃ p : Phase, c.value = p.encode) ∧
    ∃ c', b.vars bootIdVariable = some c' ∧ c.boot ≤ c'.boot

variable {r : Record} {b b' : Board}

theorem Torn.of_not_set {q : SysCall} (h : Torn r q b b')
    (hq : ∀ name value, q ≠ .run r.env.setTool [name, value]) : b' = b := by
  rcases h with rfl | ⟨name, value, rfl, _⟩
  · rfl
  · exact (hq name value rfl).elim

theorem Torn.of_set {name value : String} (h : Torn r (.run r.env.setTool [name, value]) b b') :
    b' = b ∨ b' = b.write name value := by
  rcases h with rfl | ⟨_, _, hq, rfl⟩
  · exact .inl rfl
  · obtain ⟨-, hargs⟩ := SysCall.run.inj hq
    obtain ⟨rfl, hvalue⟩ := List.cons.inj hargs
    obtain ⟨rfl, -⟩ := List.cons.inj hvalue
    exact .inr rfl

namespace Board.Dated

theorem stamp (h : b.Dated) : b.stamp.Dated where
  isWord := h.isWord
  bootId := by
    intro c hc
    rw [Board.stamp, write_vars_self] at hc
    obtain rfl := Option.some.inj hc
    exact ⟨le_refl _, fun _ => rfl⟩
  phase := by
    intro c hc
    rw [Board.stamp, write_vars_of_ne _ (by decide)] at hc
    obtain ⟨hp, c', hc', hle⟩ := h.phase c hc
    exact ⟨hp, ⟨b.bootId, b.boot⟩, write_vars_self .., hle.trans (h.bootId c' hc').1⟩

theorem record (h : b.Dated) (p : Phase) : (b.record p).Dated where
  isWord := h.isWord
  bootId := by
    intro c hc
    rw [record_bootIdVariable] at hc
    obtain rfl := Option.some.inj hc
    exact ⟨le_refl _, fun _ => rfl⟩
  phase := by
    intro c hc
    rw [record_phaseVariable] at hc
    obtain rfl := Option.some.inj hc
    exact ⟨⟨p, rfl⟩, ⟨b.bootId, b.boot⟩, record_bootIdVariable .., le_refl _⟩

theorem reboot {idFile : String} (h : b.Dated) (hid : Text.IsWord (b.reboot idFile).bootId) :
    (b.reboot idFile).Dated where
  isWord := hid
  bootId := by
    intro c hc
    have hlt : c.boot < b.boot + 1 := Nat.lt_succ_of_le (h.bootId c hc).1
    exact ⟨hlt.le, fun he => absurd he hlt.ne⟩
  phase := h.phase

theorem writePhase (h : b.Dated) (p : Phase) :
    SureOr (SysCall.rules r (Torn r)) (fun e => e.after.Dated) (r.writePhase p) b (fun _ _ => True)
      fun _ _ => True := by
  refine sureOr_writePhase_steps ?_ ?_ ?_ trivial (fun _ _ _ _ => trivial) fun _ _ _ _ => trivial
  · rintro x b' (rfl | hb)
    · exact h
    · rw [hb.of_not_set fun _ _ => SysCall.noConfusion]
      exact h
  -- A torn write of the boot id leaves a board that was in order before or is in order now.
  · rintro x b' (rfl | hb)
    · exact h.stamp
    · rcases hb.of_set with rfl | rfl
      · exact h
      · exact h.stamp
  · rintro x b' (rfl | hb)
    · exact h.record p
    · rcases hb.of_set with rfl | rfl
      · exact h.stamp
      · exact h.record p

theorem lt_boot {c : Cell} (h : b.Dated) (hr : b.isRebooted)
    (hc : b.vars phaseVariable = some c) : c.boot < b.boot := by
  obtain ⟨-, c', hc', hle⟩ := h.phase c hc
  obtain ⟨hle', hid⟩ := h.bootId c' hc'
  refine hle.trans_lt (lt_of_le_of_ne hle' ?_)
  intro he
  have hv : b.vars bootIdVariable = some ⟨b.bootId, c'.boot⟩ := by rw [hc', ← hid he]
  rw [isRebooted_of_stamped h.isWord hv] at hr
  exact Bool.false_ne_true hr

end Board.Dated

theorem Life.dated (h : Life r b) : b.Dated := by
  induction h with
  | start hid hp hi =>
      refine ⟨hid, fun c hc => ?_, fun c hc => ?_⟩
      · rw [hi] at hc
        cases hc
      · rw [hp] at hc
        cases hc
  | written h hs ih => exact (ih.writePhase _).world hs ih
  | rebooted h hid ih => exact ih.reboot hid

namespace Record

/-- The printing tool fails and says that a variable which is set is not defined. -/
def Denies (r : Record) (name : String) : Event SysCall.Answer Board → Prop
  | ⟨.run tool args, .ok f, b, _⟩ =>
    tool = r.env.printTool ∧ args = [name] ∧ ¬f.status.isSuccess ∧
      Text.contains "not defined" f.err ∧ b.vars name ≠ none
  | _ => False

theorem not_denies_of_works {name : String} {x : Except OsError Finished}
    (h : SysCall.Works r (.run r.env.printTool [name]) b x b') :
    ¬r.Denies name ⟨.run r.env.printTool [name], x, b, b'⟩ := by
  obtain ⟨f, rfl, hf⟩ := h.1 rfl
  rintro ⟨-, -, hs, -, hset⟩
  obtain ⟨c, hc⟩ := Option.ne_none_iff_exists'.mp hset
  rw [hc] at hf
  exact hs hf.1

theorem not_denies_of_never {name : String} {e : Event SysCall.Answer Board}
    (h : SysCall.rules r Never e.question e.before e.answer e.after) : ¬r.Denies name e := by
  obtain ⟨q, x, b, b'⟩ := e
  have hw := h.resolve_right fun hf => hf.2.1
  intro hd
  cases q with
  | run tool args =>
      cases x with
      | error e => exact hd
      | ok f =>
          obtain ⟨rfl, rfl, -⟩ := id hd
          exact not_denies_of_works hw hd
  | _ => exact hd

theorem finishesOr_read {name : String} (hn : BootEnv.isName name) :
    FinishesOr (SysCall.rules r (Torn r)) (r.env.read name) b
      (fun v? es b' => b' = b ∧
        ((v? = b.value? name ∧ ∀ e ∈ es, ¬r.Denies name e) ∨
          v? = none ∧ ∃ e ∈ es, r.Denies name e))
      fun _ _ _ => True := by
  have hc : BootEnv.checkName name = .ok () := if_pos hn
  rw [BootEnv.read, hc]
  apply finishesOr_bind.mpr
  apply (finishesOr_ofExcept _).mpr
  apply finishesOr_bind.mpr
  apply finishesOr_ask_bind.mpr
  intro x b' hx
  obtain rfl : b = b' := by
    rcases hx with ⟨-, rfl⟩ | ⟨-, ht⟩
    · rfl
    · exact (ht.of_not_set fun _ _ => by simp).symm
  cases x with
  | error e => exact finishesOr_throw.mpr trivial
  | ok f =>
      apply finishesOr_pure.mpr
      apply (finishesOr_ofExcept _).mpr
      rcases hx with hx | ⟨hs, -⟩
      · have hno := not_denies_of_works hx
        rw [BootEnv.readingOf_of_prints hn (hx.1 rfl)]
        exact ⟨rfl, .inl ⟨rfl, by simpa using hno⟩⟩
      · have hs : ¬f.status.isSuccess := hs
        rw [BootEnv.readingOf_of_failed hs]
        by_cases hd : Text.contains "not defined" f.err
        · rw [if_pos hd]
          refine ⟨rfl, ?_⟩
          by_cases hset : b.vars name = none
          · refine .inl ⟨?_, by simp [Denies, hset]⟩
            rw [Board.value?, hset, Option.map_none]
          · exact .inr ⟨rfl, _, List.mem_singleton_self _, rfl, rfl, hs, hd, hset⟩
        · rw [if_neg hd]
          trivial

theorem finishesOr_readPhase :
    FinishesOr (SysCall.rules r (Torn r)) r.readPhase b
      (fun p es _ => b.phase = .ok p ∨ p = .idle ∧ ∃ e ∈ es, r.Denies phaseVariable e)
      fun _ _ _ => True := by
  apply finishesOr_bind.mpr
  apply finishesOr_adapt.mpr
  refine (finishesOr_read isName_phaseVariable).mono ?_ fun _ _ _ _ => trivial
  rintro v? es b ⟨rfl, ⟨rfl, -⟩ | ⟨rfl, hes⟩⟩
  · cases hv : b.value? phaseVariable with
    | none => exact finishesOr_pure.mpr (.inl (by rw [Board.phase, hv]))
    | some s =>
        apply (finishesOr_ofExcept _).mpr
        have hb : b.phase = Phase.read s := by rw [Board.phase, hv]
        cases hs : Phase.read s with
        | ok p => exact .inl (hb.trans hs)
        | error e => trivial
  · exact finishesOr_pure.mpr (.inr ⟨rfl, by simpa using hes⟩)

theorem finishesOr_isRebooted :
    FinishesOr (SysCall.rules r (Torn r)) r.isRebooted b
      (fun y es _ => y = true ↔ b.isRebooted = true ∨ ∃ e ∈ es, r.Denies bootIdVariable e)
      fun _ _ _ => True := by
  apply finishesOr_bind.mpr
  apply finishesOr_adapt.mpr
  refine (finishesOr_read isName_bootIdVariable).mono ?_ fun _ _ _ _ => trivial
  rintro v? es b ⟨rfl, ⟨rfl, hes⟩ | ⟨rfl, hes⟩⟩
  · cases hv : b.value? bootIdVariable with
    | none => exact finishesOr_pure.mpr (by simp [Board.isRebooted, hv])
    | some s =>
        apply finishesOr_bind.mpr
        apply finishesOr_ask_bind.mpr
        intro x b' hx
        rcases hx with ⟨hid, rfl⟩ | ⟨⟨e, rfl⟩, -⟩
        · obtain rfl := hid rfl
          refine finishesOr_pure.mpr (finishesOr_pure.mpr ?_)
          have hb : b'.isRebooted = (Text.trim s != b'.bootId) := by rw [Board.isRebooted, hv]
          rw [hb]
          refine (or_iff_left ?_).symm
          simpa [Denies] using hes
        · exact finishesOr_throw.mpr trivial
  · exact finishesOr_pure.mpr (by simpa using .inr hes)

theorem goesOn_isRebooted {f : Finished} (hf : ¬f.status.isSuccess)
    (hd : Text.contains "not defined" f.err) :
    GoesOn r.isRebooted.run (.run r.env.printTool [bootIdVariable]) (.ok f)
      (.done (.ok true)) := by
  have hc : BootEnv.checkName bootIdVariable = .ok () := if_pos isName_bootIdVariable
  rw [isRebooted, BootEnv.read, hc]
  refine ⟨_, rfl, ?_⟩
  change ((inEnv (MonadExcept.ofExcept (BootEnv.readingOf r.env.printTool bootIdVariable f)) >>=
    fun v => _ : DevicePlan Bool)).run = _
  rw [BootEnv.readingOf_of_failed hf, if_pos hd]
  rfl

end Record

/-- At any point of its life, a device has no phase without a boot id. What it reads is the phase
that was written, and it hears of a reboot only after one, unless the printing tool denies the
variable in question: a phase that is denied reads as idle, and a boot id that is denied counts as a
reboot, in whatever boot the phase was written. -/
theorem Life.confirmed_of_reboot_or_denial (h : Life r b) :
    (b.vars phaseVariable ≠ none → b.vars bootIdVariable ≠ none) ∧
      ∀ c, b.vars phaseVariable = some c →
        (∀ p es b', Steps (SysCall.rules r (Torn r)) r.readPhase.run b es (.done (.ok p)) b' →
          c.value = p.encode ∨ p = .idle ∧ ∃ e ∈ es, r.Denies phaseVariable e) ∧
        ∀ y es b', Steps (SysCall.rules r (Torn r)) r.isRebooted.run b es (.done (.ok y)) b' →
          (y = true → c.boot < b.boot ∨ ∃ e ∈ es, r.Denies bootIdVariable e) ∧
            ((∃ e ∈ es, r.Denies bootIdVariable e) → y = true) := by
  have hd := h.dated
  constructor
  · intro hp
    obtain ⟨c, hc⟩ := Option.ne_none_iff_exists'.mp hp
    obtain ⟨-, c', hc', -⟩ := hd.phase c hc
    exact Option.ne_none_iff_exists'.mpr ⟨c', hc'⟩
  · intro c hc
    constructor
    · intro p es b' hs
      obtain ⟨⟨q, hq⟩, -⟩ := hd.phase c hc
      have hb : b.phase = .ok q := Board.phase_of_encoded (n := c.boot) (by rw [hc, ← hq])
      refine (finishesOr_readPhase es _ b' hs).imp_left fun hp => ?_
      obtain rfl := Except.ok.inj (hb.symm.trans hp)
      exact hq
    · intro y es b' hs
      have hy := finishesOr_isRebooted es _ b' hs
      exact ⟨fun h => (hy.mp h).imp_left fun hr => hd.lt_boot hr hc, fun h => hy.mpr (.inr h)⟩

def firstBoard : Board :=
  (Board.mk (fun _ => none) (fun _ => .absent) 0 "first\n").record (.written .both)

theorem life_firstBoard : Life plainDevice.record firstBoard := by
  obtain ⟨es, hs⟩ := gives_writePhase plainDevice.record (Torn plainDevice.record)
    (Board.mk (fun _ => none) (fun _ => .absent) 0 "first\n") (.written .both)
  exact .written (.start (by decide) rfl rfl) hs

theorem confirmed_of_reboot_once :
    ∃ es, Life plainDevice.record (firstBoard.reboot "second\n") ∧
      Steps (SysCall.rules plainDevice.record (Torn plainDevice.record))
        plainDevice.record.isRebooted.run (firstBoard.reboot "second\n") es (.done (.ok true))
        (firstBoard.reboot "second\n") ∧
      (∀ e ∈ es, ¬plainDevice.record.Denies bootIdVariable e) ∧
      ∃ c, firstBoard.vars phaseVariable = some c ∧ c.value = "3" ∧
        c.boot < (firstBoard.reboot "second\n").boot := by
  have hl : Life plainDevice.record (firstBoard.reboot "second\n") :=
    .rebooted life_firstBoard (by decide)
  have hc : firstBoard.vars phaseVariable = some ⟨"3", 0⟩ := Board.record_phaseVariable _ _
  have hr : (firstBoard.reboot "second\n").isRebooted = true := by decide +kernel
  obtain ⟨es, hs⟩ := gives_isRebooted_iff.mpr ⟨(congrArg Except.ok hr).symm, rfl⟩
  have hno : ∀ e ∈ es, ¬plainDevice.record.Denies bootIdVariable e :=
    fun e he => not_denies_of_never (hs.rules_of_mem e he)
  have hs : Steps (SysCall.rules plainDevice.record (Torn plainDevice.record)) _ _ _ _ _ :=
    hs.mono SysCall.rules_of_never
  have hboot := ((hl.confirmed_of_reboot_or_denial.2 _ hc).2 _ _ _ hs).1 rfl
  refine ⟨es, hl, hs, hno, _, hc, rfl, hboot.resolve_right ?_⟩
  rintro ⟨e, he, hd⟩
  exact hno e he hd

/-- The tool reports about something other than the boot id, and the first boot counts as one after
a reboot. -/
theorem confirmed_in_first_boot :
    ¬∀ (r : Record) (b : Board), Life r b → ∀ p b₁ b₂,
      Gives (SysCall.rules r (Torn r)) r.readPhase.run b (.ok p) b₁ →
      Gives (SysCall.rules r (Torn r)) r.isRebooted.run b (.ok true) b₂ →
      ∀ c, b.vars phaseVariable = some c → c.value = p.encode → c.boot ≠ b.boot := by
  intro h
  have hc : firstBoard.vars phaseVariable = some ⟨"3", 0⟩ := Board.record_phaseVariable _ _
  have hp : firstBoard.phase = .ok (.written .both) := Board.phase_of_encoded (n := 0) hc
  have hread := gives_readPhase plainDevice.record (Torn plainDevice.record) firstBoard
  rw [hp] at hread
  have hf : ¬Device.foreignReport.status.isSuccess := by decide
  have hd : Text.contains "not defined" Device.foreignReport.err := by decide +kernel
  obtain ⟨next, hnext, hdone⟩ := goesOn_isRebooted (r := plainDevice.record) hf hd
  have hreboot : Gives (SysCall.rules plainDevice.record (Torn plainDevice.record))
      plainDevice.record.isRebooted.run firstBoard (.ok true) firstBoard := by
    rw [hnext]
    refine gives_ask.mpr ⟨.ok Device.foreignReport, firstBoard, .inr ⟨nofun, .inl rfl⟩, ?_⟩
    exact hdone ▸ gives_done.mpr ⟨rfl, rfl⟩
  exact h _ _ life_firstBoard _ _ _ hread hreboot _ hc rfl rfl

end Dualbank
