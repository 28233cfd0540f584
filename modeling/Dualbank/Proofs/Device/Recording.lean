import Dualbank.Proofs.Device.Board

namespace Dualbank

open Plan

namespace Board

/-- The phase that is read of the variables; without one nothing is pending. -/
def phase (b : Board) : Except Error Phase :=
  match b.value? Record.phaseVariable with
  | some s => Phase.read s
  | none => .ok .idle

def isRebooted (b : Board) : Bool :=
  match b.value? Record.bootIdVariable with
  | some s => Text.trim s != b.bootId
  | none => true

def stamp (b : Board) : Board := b.write Record.bootIdVariable b.bootId

def record (b : Board) (p : Phase) : Board := b.stamp.write Record.phaseVariable p.encode

@[simp] theorem record_phaseVariable (b : Board) (p : Phase) :
    (b.record p).vars Record.phaseVariable = some ⟨p.encode, b.boot⟩ := write_vars_self ..

@[simp] theorem record_bootIdVariable (b : Board) (p : Phase) :
    (b.record p).vars Record.bootIdVariable = some ⟨b.bootId, b.boot⟩ := by
  rw [record, write_vars_of_ne _ (by decide), stamp, write_vars_self]

@[simp] theorem stamp_phase (b : Board) : b.stamp.phase = b.phase := by
  rw [phase, phase, value?, value?, stamp, write_vars_of_ne _ (by decide)]

theorem phase_of_encoded {b : Board} {p : Phase} {n : Nat}
    (h : b.vars Record.phaseVariable = some ⟨p.encode, n⟩) : b.phase = .ok p := by
  have hv : b.value? Record.phaseVariable = some p.encode := by
    rw [value?, h, Option.map_some, BootEnv.shown_eq p.isWord_encode]
  simp only [phase, hv, Phase.read, p.decode?_encode]

@[simp] theorem record_phase (b : Board) (p : Phase) : (b.record p).phase = .ok p :=
  phase_of_encoded (record_phaseVariable b p)

theorem isRebooted_congr {b b' : Board}
    (hv : b'.vars Record.bootIdVariable = b.vars Record.bootIdVariable) (hid : b'.bootId = b.bootId) :
    b'.isRebooted = b.isRebooted := by
  rw [isRebooted, isRebooted, value?, value?, hv, hid]

theorem isRebooted_of_stamped {b : Board} {n : Nat} (h : Text.IsWord b.bootId)
    (hv : b.vars Record.bootIdVariable = some ⟨b.bootId, n⟩) : b.isRebooted = false := by
  simp only [isRebooted, value?, hv, Option.map_some, BootEnv.shown_eq h, h.trim_eq,
    bne_self_eq_false]

theorem record_record (b : Board) (p p' : Phase) : (b.record p).record p' = b.record p' := by
  simp only [record, stamp, write, bootId, Board.mk.injEq, and_true]
  funext name
  by_cases hp : name = Record.phaseVariable
  · subst hp
    simp
  · by_cases hi : name = Record.bootIdVariable
    · subst hi
      simp [hp]
    · simp [hp, hi]

theorem stamp_record (b : Board) (p : Phase) : b.stamp.record p = b.record p := by
  simp only [record, stamp, write, bootId, Function.update_idem]

end Board

variable {r : Record} {failing : SysCall → Board → Board → Prop} {b : Board}

namespace BootEnv

theorem not_mem_of_isName {name : String} (h : isName name) : '\n' ∉ name.toList := by
  intro hn
  have ha : name.toList.any (fun c => c = '=' || Text.isBlank c) :=
    List.any_eq_true.mpr ⟨'\n', hn, by decide⟩
  simp [isName, ha] at h

theorem readingOf_of_prints {tool name : String} {f : Finished} (hn : isName name)
    (h : Prints name (b.vars name) (.ok f)) : readingOf tool name f = .ok (b.value? name) := by
  obtain ⟨_, hf, h⟩ := h
  obtain rfl := Except.ok.inj hf
  rw [readingOf, Board.value?]
  cases hv : b.vars name with
  | some c =>
      rw [hv] at h
      obtain ⟨hs, ho⟩ := h
      rw [if_pos hs, ho, valueOf?_printed (not_mem_of_isName hn), Option.map_some]
  | none =>
      rw [hv] at h
      obtain ⟨hs, he⟩ := h
      rw [if_neg hs, if_pos he, Option.map_none]

theorem sureOr_run {rules : Rules SysCall.Answer Board} {ok : Event SysCall.Answer Board → Prop}
    {tool : String} {args : List String} {post : Finished → Board → Prop}
    {fail : BootEnvError → Board → Prop} :
    SureOr rules ok (run tool args) b post fail ↔
      ∀ x b', rules (.run tool args) b x b' → ok ⟨.run tool args, x, b, b'⟩ ∧
        match x with
        | .ok f => post f b'
        | .error e => fail (.notStarted tool e) b' := by
  refine sureOr_bind.trans ?_
  refine forall_congr' fun x => forall_congr' fun b' => imp_congr_right fun _ =>
    and_congr_right fun _ => ?_
  cases x with
  | ok f => exact Iff.rfl
  | error e => exact Iff.rfl

theorem sureOr_read {name : String} (hn : isName name) {ok : Event SysCall.Answer Board → Prop}
    {post : Option String → Board → Prop} {fail : BootEnvError → Board → Prop}
    (hok : ∀ x b', b' = b ∨ failing (.run r.env.printTool [name]) b b' →
      ok ⟨.run r.env.printTool [name], x, b, b'⟩)
    (hpost : post (b.value? name) b)
    (hdenied : ∀ b', failing (.run r.env.printTool [name]) b b' → post none b')
    (hfail : ∀ e b', failing (.run r.env.printTool [name]) b b' → fail e b') :
    SureOr (SysCall.rules r failing) ok (r.env.read name) b post fail := by
  have hc : checkName name = .ok () := if_pos hn
  rw [read, hc]
  apply sureOr_bind.mpr
  apply sureOr_bind.mpr
  apply sureOr_run.mpr
  intro x b' hx
  rcases hx with ⟨hp, rfl⟩ | ⟨hs, hf⟩
  · refine ⟨hok _ _ (.inl rfl), ?_⟩
    have hp := hp rfl
    obtain ⟨f, rfl, _⟩ := id hp
    apply (sureOr_ofExcept _).mpr
    rw [readingOf_of_prints hn hp]
    exact hpost
  · refine ⟨hok _ _ (.inr hf), ?_⟩
    cases x with
    | error e => exact hfail _ _ hf
    | ok f =>
        apply (sureOr_ofExcept _).mpr
        have hs : ¬f.status.isSuccess := hs
        rw [readingOf, if_neg hs]
        by_cases hd : Text.contains "not defined" f.err
        · rw [if_pos hd]
          exact hdenied _ hf
        · rw [if_neg hd]
          exact hfail _ _ hf

theorem sureOr_write {name value : String} (hn : isName name)
    {ok : Event SysCall.Answer Board → Prop} {post : Unit → Board → Prop}
    {fail : BootEnvError → Board → Prop}
    (hok : ∀ x b', b' = b.write name value ∨ failing (.run r.env.setTool [name, value]) b b' →
      ok ⟨.run r.env.setTool [name, value], x, b, b'⟩)
    (hpost : post () (b.write name value))
    (hfail : ∀ e b', failing (.run r.env.setTool [name, value]) b b' → fail e b') :
    SureOr (SysCall.rules r failing) ok (r.env.write name value) b post fail := by
  have hc : checkName name = .ok () := if_pos hn
  rw [write, set, hc]
  apply sureOr_bind.mpr
  apply sureOr_bind.mpr
  apply sureOr_run.mpr
  intro x b' hx
  rcases hx with hx | ⟨hs, hf⟩
  · rw [Option.toList_some, SysCall.Works, if_pos rfl] at hx
    obtain ⟨hs, rfl⟩ := hx
    refine ⟨hok _ _ (.inl rfl), ?_⟩
    cases x with
    | error e => exact hs.elim
    | ok f =>
        have hs : f.status.isSuccess := hs
        dsimp only
        rw [if_pos hs]
        exact hpost
  · refine ⟨hok _ _ (.inr hf), ?_⟩
    cases x with
    | error e => exact hfail _ _ hf
    | ok f =>
        have hs : ¬f.status.isSuccess := hs
        dsimp only
        rw [if_neg hs]
        exact hfail _ _ hf

end BootEnv

namespace Record

theorem isName_phaseVariable : BootEnv.isName phaseVariable := by decide +kernel

theorem isName_bootIdVariable : BootEnv.isName bootIdVariable := by decide +kernel

theorem sureOr_inEnv {α : Type} {rules : Rules SysCall.Answer Board}
    {ok : Event SysCall.Answer Board → Prop} {p : BootEnvPlan α} {post : α → Board → Prop}
    {fail : Error → Board → Prop} :
    SureOr rules ok (inEnv p) b post fail ↔ SureOr rules ok p b post fun e => fail (.bootEnv e) :=
  sureOr_adapt

theorem sureOr_currentBootId {ok : Event SysCall.Answer Board → Prop}
    {post : String → Board → Prop} {fail : Error → Board → Prop}
    (hok : ∀ x b', b' = b ∨ failing (.readText r.bootIdPath) b b' →
      ok ⟨.readText r.bootIdPath, x, b, b'⟩)
    (hpost : post b.bootId b)
    (hfail : ∀ e b', failing (.readText r.bootIdPath) b b' → fail e b') :
    SureOr (SysCall.rules r failing) ok r.currentBootId b post fail := by
  apply sureOr_bind.mpr
  intro x b' hx
  rcases hx with ⟨hs, rfl⟩ | ⟨⟨e, rfl⟩, hf⟩
  · obtain rfl := hs rfl
    exact ⟨hok _ _ (.inl rfl), hpost⟩
  · exact ⟨hok _ _ (.inr hf), hfail _ _ hf⟩

theorem sureOr_readPhase {ok : Event SysCall.Answer Board → Prop} {post : Phase → Board → Prop}
    {fail : Error → Board → Prop}
    (hok : ∀ x b', b' = b ∨ failing (.run r.env.printTool [phaseVariable]) b b' →
      ok ⟨.run r.env.printTool [phaseVariable], x, b, b'⟩)
    (hpost : ∀ p, b.phase = .ok p → post p b) (hread : ∀ e, b.phase = .error e → fail e b)
    (hdenied : ∀ b', failing (.run r.env.printTool [phaseVariable]) b b' → post .idle b')
    (hfail : ∀ e b', failing (.run r.env.printTool [phaseVariable]) b b' → fail e b') :
    SureOr (SysCall.rules r failing) ok r.readPhase b post fail := by
  apply sureOr_bind.mpr
  apply sureOr_inEnv.mpr
  refine BootEnv.sureOr_read isName_phaseVariable hok ?_ hdenied fun e b' => hfail _ b'
  rw [Board.phase] at hpost hread
  cases hv : b.value? phaseVariable with
  | none => exact hpost .idle (by rw [hv])
  | some s =>
      apply (sureOr_ofExcept _).mpr
      rw [hv] at hpost hread
      cases hs : Phase.read s with
      | ok p => exact hpost p hs
      | error e => exact hread e hs

theorem sureOr_isRebooted {ok : Event SysCall.Answer Board → Prop} {post : Bool → Board → Prop}
    {fail : Error → Board → Prop}
    (hok : ∀ x b', b' = b ∨ failing (.run r.env.printTool [bootIdVariable]) b b' →
      ok ⟨.run r.env.printTool [bootIdVariable], x, b, b'⟩)
    (hid : ∀ x b', b' = b ∨ failing (.readText r.bootIdPath) b b' →
      ok ⟨.readText r.bootIdPath, x, b, b'⟩)
    (hpost : post b.isRebooted b)
    (hdenied : ∀ b', failing (.run r.env.printTool [bootIdVariable]) b b' → post true b')
    (hfail : ∀ q e b', failing q b b' → fail e b') :
    SureOr (SysCall.rules r failing) ok r.isRebooted b post fail := by
  apply sureOr_bind.mpr
  apply sureOr_inEnv.mpr
  refine BootEnv.sureOr_read isName_bootIdVariable hok ?_ hdenied fun e b' => hfail _ _ b'
  rw [Board.isRebooted] at hpost
  cases hv : b.value? bootIdVariable with
  | none =>
      rw [hv] at hpost
      exact hpost
  | some s =>
      rw [hv] at hpost
      apply sureOr_bind.mpr
      exact sureOr_currentBootId hid hpost (hfail _)

theorem sureOr_writePhase_steps {p : Phase} {ok : Event SysCall.Answer Board → Prop}
    {post : Unit → Board → Prop} {fail : Error → Board → Prop}
    (hid : ∀ x b', b' = b ∨ failing (.readText r.bootIdPath) b b' →
      ok ⟨.readText r.bootIdPath, x, b, b'⟩)
    (hstamp : ∀ x b', b' = b.stamp ∨ failing (.run r.env.setTool [bootIdVariable, b.bootId]) b b' →
      ok ⟨.run r.env.setTool [bootIdVariable, b.bootId], x, b, b'⟩)
    (hrecord : ∀ x b', b' = b.record p ∨
        failing (.run r.env.setTool [phaseVariable, p.encode]) b.stamp b' →
      ok ⟨.run r.env.setTool [phaseVariable, p.encode], x, b.stamp, b'⟩)
    (hpost : post () (b.record p)) (hfail : ∀ q e b', failing q b b' → fail e b')
    (hfail' : ∀ q e b', failing q b.stamp b' → fail e b') :
    SureOr (SysCall.rules r failing) ok (r.writePhase p) b post fail := by
  apply sureOr_bind.mpr
  refine sureOr_currentBootId hid ?_ (hfail _)
  apply sureOr_bind.mpr
  apply sureOr_inEnv.mpr
  refine BootEnv.sureOr_write isName_bootIdVariable hstamp ?_ fun e b' => hfail _ _ b'
  apply sureOr_inEnv.mpr
  exact BootEnv.sureOr_write isName_phaseVariable hrecord hpost fun e b' => hfail' _ _ b'

theorem sureOr_writePhase {p : Phase} {post : Unit → Board → Prop} {fail : Error → Board → Prop}
    (hpost : post () (b.record p)) (hfail : ∀ q e b', failing q b b' → fail e b')
    (hfail' : ∀ q e b', failing q b.stamp b' → fail e b') :
    SureOr (SysCall.rules r failing) (fun _ => True) (r.writePhase p) b post fail :=
  sureOr_writePhase_steps (fun _ _ _ => trivial) (fun _ _ _ => trivial) (fun _ _ _ => trivial) hpost
    hfail hfail'

def counter (s : Slot) : Image → String
  | .firmware => s!"BOOT_{s.text}_LEFT"
  | .application => s!"APP_{s.text}_LEFT"

theorem slotVariable_only (s : Slot) (i : Image) : slotVariable s (.only i) = .ok (counter s i) := by
  cases i with
  | firmware => rfl
  | application => rfl

theorem isName_counter (s : Slot) (i : Image) : BootEnv.isName (counter s i) := by
  rcases s with _ | _ <;> rcases i with _ | _ <;> decide +kernel

theorem counter_inj {s s' : Slot} {i i' : Image} :
    counter s i = counter s' i' ↔ s = s' ∧ i = i' := by
  rcases s with _ | _ <;> rcases i with _ | _ <;> rcases s' with _ | _ <;>
    rcases i' with _ | _ <;> decide +kernel

theorem counter_ne_phaseVariable (s : Slot) (i : Image) : counter s i ≠ phaseVariable := by
  rcases s with _ | _ <;> rcases i with _ | _ <;> decide +kernel

theorem counter_ne_bootIdVariable (s : Slot) (i : Image) : counter s i ≠ bootIdVariable := by
  rcases s with _ | _ <;> rcases i with _ | _ <;> decide +kernel

end Record

def Board.isBad (b : Board) (s : Slot) (i : Image) : Bool :=
  (b.value? (Record.counter s i)).any fun v => Text.trim v = Record.slotBad

namespace Record

variable {b' : Board}

theorem gives_readPhase_iff {x : Except Error Phase} :
    Gives (SysCall.rules r Never) r.readPhase.run b x b' ↔ x = b.phase ∧ b' = b := by
  refine SureOr.gives_iff (SysCall.exists_rules r Never) ?_
  exact sureOr_readPhase (fun _ _ _ => trivial) (fun _ hp => ⟨hp.symm, rfl⟩)
    (fun _ he => ⟨he.symm, rfl⟩) (fun _ hf => hf.1.elim) fun _ _ hf => hf.1.elim

theorem gives_isRebooted_iff {x : Except Error Bool} :
    Gives (SysCall.rules r Never) r.isRebooted.run b x b' ↔ x = .ok b.isRebooted ∧ b' = b := by
  refine SureOr.gives_iff (SysCall.exists_rules r Never) ?_
  exact sureOr_isRebooted (fun _ _ _ => trivial) (fun _ _ _ => trivial) ⟨rfl, rfl⟩
    (fun _ hf => hf.1.elim) fun _ _ _ hf => hf.1.elim

theorem gives_writePhase_iff {p : Phase} {x : Except Error Unit} :
    Gives (SysCall.rules r Never) (r.writePhase p).run b x b' ↔ x = .ok () ∧ b' = b.record p := by
  refine SureOr.gives_iff (SysCall.exists_rules r Never) ?_
  exact sureOr_writePhase ⟨rfl, rfl⟩ (fun _ _ _ hf => hf.1.elim) fun _ _ _ hf => hf.1.elim

theorem gives_markBad_iff {i : Image} {s : Slot} {x : Except Error Unit} :
    Gives (SysCall.rules r Never) (r.markBad (.only i) s).run b x b' ↔
      x = .ok () ∧ b' = b.write (counter s i) slotBad := by
  refine SureOr.gives_iff (SysCall.exists_rules r Never) ?_
  rw [markBad, slotVariable_only]
  apply sureOr_bind.mpr
  apply (sureOr_ofExcept _).mpr
  apply sureOr_inEnv.mpr
  exact BootEnv.sureOr_write (isName_counter s i) (fun _ _ _ => trivial) ⟨rfl, rfl⟩
    fun _ _ hf => hf.1.elim

theorem gives_isBad_iff {i : Image} {s : Slot} {x : Except Error Bool} :
    Gives (SysCall.rules r Never) (r.isBad (.only i) s).run b x b' ↔
      x = .ok (b.isBad s i) ∧ b' = b := by
  refine SureOr.gives_iff (SysCall.exists_rules r Never) ?_
  rw [isBad, slotVariable_only]
  apply sureOr_bind.mpr
  apply (sureOr_ofExcept _).mpr
  apply sureOr_bind.mpr
  apply sureOr_inEnv.mpr
  exact BootEnv.sureOr_read (isName_counter s i) (fun _ _ _ => trivial) ⟨rfl, rfl⟩
    (fun _ hf => hf.1.elim) fun _ _ hf => hf.1.elim

/-- A slot of both images is no slot, and no tool is run for it. -/
theorem gives_markBad_both_iff {s : Slot} {x : Except Error Unit} :
    Gives (SysCall.rules r Never) (r.markBad .both s).run b x b' ↔
      x = .error (.invalidParameter .slotOfBoth) ∧ b' = b := gives_done

theorem gives_isBad_both_iff {s : Slot} {x : Except Error Bool} :
    Gives (SysCall.rules r Never) (r.isBad .both s).run b x b' ↔
      x = .error (.invalidParameter .slotOfBoth) ∧ b' = b := gives_done

theorem gives_readPhase (r : Record) (failing : SysCall → Board → Board → Prop) (b : Board) :
    Gives (SysCall.rules r failing) r.readPhase.run b b.phase b :=
  (gives_readPhase_iff.mpr ⟨rfl, rfl⟩).mono SysCall.rules_of_never

theorem gives_writePhase (r : Record) (failing : SysCall → Board → Board → Prop) (b : Board)
    (p : Phase) :
    Gives (SysCall.rules r failing) (r.writePhase p).run b (.ok ()) (b.record p) :=
  (gives_writePhase_iff.mpr ⟨rfl, rfl⟩).mono SysCall.rules_of_never

end Record

end Dualbank
