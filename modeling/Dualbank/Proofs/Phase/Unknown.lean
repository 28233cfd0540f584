import Dualbank.CommandLine.Run
import Dualbank.Proofs.Footprint
import Dualbank.Proofs.Plan.Gives

namespace Dualbank

open Plan Routine

namespace Call

def unknown (v : String) : Rules Answer Unit
  | readPhase, _, x, _ => x = Phase.read v
  | has .rollback, _, x, _ => x = .ok true
  | _, _, _, _ => True

/-- Makes the engine or the device do something, or writes to the record, a slot or the work
directory. -/
def Acts : Call → Prop
  | writePhase _ | markBad .. | install .. | switch _ | reboot | create _ | remove _ => True
  | _ => False

theorem exists_unknown (v : String) (q : Call) (w : Unit) : ∃ x w', unknown v q w x w' := by
  obtain ⟨x⟩ := q.nonempty_answer
  cases q with
  | readPhase => exact ⟨Phase.read v, w, rfl⟩
  | has m =>
      cases m with
      | rollback => exact ⟨.ok true, w, rfl⟩
      | _ => exact ⟨x, w, trivial⟩
  | _ => exact ⟨x, w, trivial⟩

end Call

def Still (e : Event Call.Answer Unit) : Prop := ¬e.question.Acts

/-- With the record at `v`, every run ends as `x` without having done anything. -/
structure Blocked {α : Type} (v : String) (p : Plan Call.Answer α) (x : α) : Prop where
  still : ∀ es q w, Steps (Call.unknown v) p () es q w → ∀ e ∈ es, Still e
  ends : ∀ y w, Gives (Call.unknown v) p () y w ↔ y = x

namespace Operation

/-- Does nothing without the phase. An update without a package fails before it is read, and one
that depends on the versions may come to an end without it. -/
def NeedsPhase : Operation → Prop
  | update o => o.target?.isSome
  | allowAutomatic | commit | rollback _ | switchSlot _ | apply => True
  | _ => False

end Operation

namespace CommandLine

def Command.endWithoutPhase? : Command → Option (Except Abort ExitStatus)
  | update firmware application =>
    let offer : Offer := ⟨firmware.map (⟨·, none⟩), application.map (⟨·, none⟩)⟩
    some (offer.target?.elim (.error .noPackage) fun t => .ok (.code (.update t .progressError)))
  | commit => some (.ok (.code .commitNotAllowed))
  | rollback t | switchSlot t => some (.ok (.code (.rollback (Report.leading t) .progressError)))
  | automatic stick =>
    some (stick.offer.target?.elim (.error (.noPackageOnStick stick.mount)) fun t =>
      .ok (.code (.automatic t .progressError)))
  | _ => none

end CommandLine

def ResultCode.Succeeds : ResultCode → Prop
  | update _ .successful | rollback _ .successful | automatic _ .successful | commitSuccessful
  | commitNotNeeded | automaticAllowed | applySuccessful | slotSuccessful => True
  | _ => False

variable {v : String} {α β : Type}

theorem Blocked.of_sure {p : Plan Call.Answer α} {x : α}
    (h : Sure (Call.unknown v) Still p () fun y _ => y = x) :
    Blocked v p x := by
  refine ⟨fun es q w hs => (h.steps hs).1, fun y w => ?_⟩
  have hy : ∀ y w, Gives (Call.unknown v) p () y w → y = x ∧ w = () :=
    fun y w hg => ⟨h.gives hg, rfl⟩
  rw [gives_iff_of_unique (Call.exists_unknown v) hy]
  exact and_iff_left rfl

def Refused (v : String) (r : Routine α) : Prop :=
  SureOr (Call.unknown v) Still r () (fun _ _ => False)
    fun e _ => e = .unknownPhase v

theorem Refused.blocked {r : Routine α} (h : Refused v r) :
    Blocked v r.run (.error (.unknownPhase v)) := by
  refine .of_sure (Sure.mono h ?_)
  intro x w hx
  cases x with
  | ok a => exact hx.elim
  | error e => exact congrArg _ hx

theorem refused_readPhase_bind (h : Phase.decode? v = none) (f : Phase → Routine α) :
    Refused v (readPhase >>= f) := by
  have hread : Phase.read v = .error (.unknownPhase v) := by
    rw [Phase.read, h]
  apply sureOr_bind.mpr
  apply sureOr_ask_bind.mpr
  rintro x ⟨⟩ rfl
  refine ⟨id, ?_⟩
  rw [hread]
  exact rfl

theorem Update.update_refused (h : Phase.decode? v = none) {o : Offer} {t : Target}
    (ht : o.target? = some t) : Refused v (update o) := by
  unfold update
  rw [ht]
  exact refused_readPhase_bind h _

theorem Operation.refused (op : Operation) (hop : op.NeedsPhase) (h : Phase.decode? v = none)
    (d : WorkDir) : Refused v (op.routine d) := by
  cases op with
  | update o =>
      obtain ⟨t, ht⟩ := Option.isSome_iff_exists.mp hop
      exact Update.update_refused h ht
  | allowAutomatic | commit | rollback t | switchSlot t => exact refused_readPhase_bind h _
  | apply =>
      -- The marker is looked for before the phase is read.
      apply sureOr_bind.mpr
      apply sureOr_ask_bind.mpr
      rintro x ⟨⟩ rfl
      exact ⟨id, refused_readPhase_bind h _⟩
  | updateIfNewer | download | progress | install => exact hop.elim

theorem Update.updateIfNewer_refused (h : Phase.decode? v = none) (o : Offer) :
    SureOr (Call.unknown v) Still (updateIfNewer o) ()
      (fun y _ => y = .upToDate) fun _ _ => True := by
  have hasks : Asks (fun q => ¬q.Acts) (offersNewer o.parts).run := offersNewer_asks fun _ _ => id
  have hversions : SureOr (Call.unknown v) Still (offersNewer o.parts) ()
      (fun _ _ => True) fun _ _ => True :=
    hasks.sureOr (fun _ _ _ _ hq _ _ => ⟨hq, trivial⟩) trivial
  -- The versions leave nothing to do or an update, which is refused like any other.
  refine hversions.bind fun newer _ _ => ?_
  cases newer with
  | false => exact rfl
  | true =>
      refine sureOr_bind.mpr ?_
      cases ht : o.target? with
      | none =>
          unfold update
          rw [ht]
          exact trivial
      | some t =>
          exact (update_refused h ht).mono (fun _ _ hx => hx.elim) fun _ _ _ => trivial

namespace CommandLine

open Session

def Tells (v : String) (s : Session α) (a : α) : Prop :=
  SureOr (Call.unknown v) Still s () (fun y _ => y = a) fun _ _ => False

namespace Tells

variable {s : Session α} {a : α} {b : β}

theorem pure (a : α) : Tells v (pure a) a := rfl

theorem bind {f : α → Session β} (h : Tells v s a) (hf : Tells v (f a) b) :
    Tells v (s >>= f) b := by
  refine SureOr.bind h ?_
  rintro y ⟨⟩ rfl
  exact hf

theorem map (g : α → β) (h : Tells v s a) : Tells v (g <$> s) (g a) := by
  refine sureOr_map.mpr (h.mono ?_ fun _ _ hx => hx)
  rintro y _ rfl
  rfl

theorem blocked (h : Tells v s a) : Blocked v s.run (.ok a) := by
  refine .of_sure (Sure.mono h ?_)
  intro x w hx
  cases x with
  | ok y => exact congrArg _ hx
  | error e => exact hx.elim

end Tells

theorem complain_tells (line : String) : Tells v (complain line) () :=
  fun _ _ _ => ⟨id, fun _ _ _ => ⟨id, rfl⟩⟩

theorem classify_tells {context : String} {r : Routine α} (h : Refused v r) :
    Tells v (classify context r) (.error .notAllowed) := by
  refine sureOr_bind.mpr (sureOr_lift.mpr (Sure.mono h ?_))
  rintro x ⟨⟩ hx
  cases x with
  | ok a => exact hx.elim
  | error e =>
      obtain rfl : e = .unknownPhase v := hx
      exact (complain_tells _).bind (.pure _)

theorem act_tells {name success : String} {r : Routine Unit} (h : Refused v r) :
    Tells v (act name success r) (.error .notAllowed) :=
  (classify_tells h).bind (.pure _)

theorem automatic_tells (h : Phase.decode? v = none) (d : WorkDir) {stick : Stick} {t : Target}
    (ht : stick.offer.target? = some t) :
    Tells v (automatic d stick) (.automatic t (.error .notAllowed)) := by
  unfold automatic
  rw [ht]
  exact (classify_tells (Operation.refused .allowAutomatic trivial h d)).bind (.pure _)

theorem act_map_tells {name success : String} {r : Routine Unit} (h : Refused v r)
    (report : Except ErrorClass Unit → Report) :
    Tells v (some <$> report <$> act name success r) (some (report (.error .notAllowed))) :=
  ((act_tells h).map report).map some

theorem Command.blocked_of_report {d : WorkDir} {attempts : Nat} {c : Command} {r : Report}
    (h : Tells v (c.report d attempts) (some r)) :
    Blocked v (c.run d attempts).run (.ok r.exitStatus) :=
  Tells.blocked (h.bind (.pure _))

theorem Command.blocked (h : Phase.decode? v = none) (d : WorkDir) (attempts : Nat) {c : Command}
    {x : Except Abort ExitStatus} (hc : c.endWithoutPhase? = some x) :
    Blocked v (c.run d attempts).run x := by
  cases c with
  | update firmware application =>
      rcases firmware with _ | f <;> rcases application with _ | a
      all_goals obtain rfl := Option.some.inj hc
      case none.none => exact .of_sure rfl
      all_goals
        exact blocked_of_report (r := .update _ (.error .notAllowed))
          (act_map_tells (Update.update_refused h rfl) _)
  | commit =>
      obtain rfl := Option.some.inj hc
      exact blocked_of_report (r := .commit (.error .notAllowed))
        ((classify_tells (Operation.refused .commit trivial h d)).bind (.pure _))
  | rollback t =>
      obtain rfl := Option.some.inj hc
      exact blocked_of_report (r := .rollback t (.error .notAllowed))
        (act_map_tells (Operation.refused (.rollback t) trivial h d) _)
  | switchSlot t =>
      obtain rfl := Option.some.inj hc
      exact blocked_of_report (r := .rollback t (.error .notAllowed))
        (act_map_tells (Operation.refused (.switchSlot t) trivial h d) _)
  | automatic stick =>
      obtain rfl := Option.some.inj hc
      cases ht : stick.offer.target? with
      | none =>
          have hrun : ((automatic stick).run d attempts).run =
              .done (.error (.noPackageOnStick stick.mount)) := by
            unfold run report
            dsimp only
            unfold CommandLine.automatic
            rw [ht]
            rfl
          rw [hrun]
          exact .of_sure rfl
      | some t =>
          exact blocked_of_report (r := .automatic t (.error .notAllowed))
            ((automatic_tells h d ht).map some)
  | _ => cases hc

theorem Command.not_succeeds {c : Command} {x : Except Abort ExitStatus} {status : ExitStatus}
    (hc : c.endWithoutPhase? = some x) (hx : x = .ok status) :
    ∃ code, status = .code code ∧ ¬code.Succeeds := by
  subst hx
  cases c with
  | update firmware application =>
      rcases firmware with _ | f <;> rcases application with _ | a
      all_goals cases hc
      all_goals exact ⟨_, rfl, id⟩
  | commit | rollback | switchSlot =>
      cases hc
      exact ⟨_, rfl, id⟩
  | automatic stick =>
      have hc := Option.some.inj hc
      cases ht : stick.offer.target? with
      | none =>
          rw [ht] at hc
          cases hc
      | some t =>
          rw [ht] at hc
          cases hc
          exact ⟨_, rfl, id⟩
  | _ => cases hc

end CommandLine

/-- A record that is no phase blocks whatever needs the phase: every run ends in the error that
names the record, and nothing was done before. An update that depends on the versions may find that
there is nothing to do, or fails. On the command line none of this looks like a success. -/
theorem unknown_phase_blocks (v : String) (h : Phase.decode? v = none) (d : WorkDir)
    (attempts : Nat) :
    (∀ op : Operation, op.NeedsPhase → Blocked v (op.routine d).run (.error (.unknownPhase v))) ∧
    (∀ o, (∀ es q w, Steps (Call.unknown v) (Update.updateIfNewer o).run () es q w →
        ∀ e ∈ es, Still e) ∧
      (∃ x w, Gives (Call.unknown v) (Update.updateIfNewer o).run () x w) ∧
      ∀ x w, Gives (Call.unknown v) (Update.updateIfNewer o).run () x w →
        x = .ok .upToDate ∨ ∃ e, x = .error e) ∧
    ∀ (c : CommandLine.Command) x, c.endWithoutPhase? = some x →
      Blocked v (c.run d attempts).run x ∧
        ∀ status, x = .ok status → ∃ code, status = .code code ∧ ¬code.Succeeds := by
  refine ⟨fun op hop => (op.refused hop h d).blocked, fun o => ?_, fun c x hc => ?_⟩
  · have ho := Update.updateIfNewer_refused h o
    refine ⟨fun es q w hs => (Sure.steps ho hs).1,
      exists_gives (Call.exists_unknown v) _ (), fun x w hg => ?_⟩
    cases x with
    | ok y => exact .inl (congrArg _ (ho.gives_ok hg))
    | error e => exact .inr ⟨e, rfl⟩
  · exact ⟨c.blocked h d attempts hc, fun status hx => c.not_succeeds hc hx⟩

theorem thirteen_blocks_commit :
    Phase.decode? "13" = none ∧
      Blocked "13" (Update.commit ⟨"/data"⟩).run (.error (.unknownPhase "13")) ∧
      Blocked "13" (CommandLine.Command.commit.run ⟨"/data"⟩ 3).run
        (.ok (.code .commitNotAllowed)) := by
  have h : Phase.decode? "13" = none := by decide
  obtain ⟨hop, -, hcommand⟩ := unknown_phase_blocks "13" h ⟨"/data"⟩ 3
  exact ⟨h, hop .commit trivial, (hcommand .commit _ rfl).1⟩

end Dualbank
