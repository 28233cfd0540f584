import Dualbank.CommandLine.Run
import Dualbank.Proofs.Plan.Past

namespace Dualbank

open Plan

namespace Call

def IsPrint : Call → Prop
  | print .. => True
  | _ => False

theorem IsPrint.exists_eq {q : Call} (h : q.IsPrint) : ∃ s l, q = print s l := by
  cases q with
  | print s l => exact ⟨s, l, rfl⟩
  | _ => exact h.elim

end Call

open Call (IsPrint)

variable {W α β γ : Type} {rules : Rules Call.Answer W} {w w' w'' : W}
  {es fs : List (Event Call.Answer W)}

structure Talk (rules : Rules Call.Answer W) (w : W) (es : List (Event Call.Answer W)) (w' : W) :
    Prop where
  prints : ∀ e ∈ es, e.question.IsPrint
  world : (∀ s l v x v', rules (.print s l) v x v' → v' = v) → w' = w

def Plan.PrintsThen (a : α) : Plan Call.Answer α → Prop
  | .done b => b = a
  | .ask q next => q.IsPrint ∧ ∀ x, PrintsThen a (next x)

namespace Talk

theorem nil : Talk rules w [] w := ⟨List.forall_mem_nil _, fun _ => rfl⟩

theorem cons {q : Call} {x : q.Answer} (hq : q.IsPrint) (hx : rules q w x w')
    (h : Talk rules w' es w'') : Talk rules w (⟨q, x, w, w'⟩ :: es) w'' := by
  refine ⟨List.forall_mem_cons.mpr ⟨hq, h.prints⟩, fun hr => (h.world hr).trans ?_⟩
  obtain ⟨s, l, rfl⟩ := hq.exists_eq
  exact hr s l w x w' hx

theorem append (h : Talk rules w es w') (h' : Talk rules w' fs w'') : Talk rules w (es ++ fs) w'' :=
  ⟨fun e he => (List.mem_append.mp he).elim (h.prints e) (h'.prints e),
    fun hr => (h'.world hr).trans (h.world hr)⟩

theorem answered_append_iff (h : Talk rules w fs w') {q : Call} {x : q.Answer}
    (hq : ¬q.IsPrint) : Answered (es ++ fs) q x ↔ Answered es q x := by
  refine answered_append.trans (or_iff_left (not_answered ?_))
  rintro e he rfl
  exact hq (h.prints e he)

theorem forall_append_iff (h : Talk rules w fs w') {P : Call → Prop} (hp : ∀ s l, P (.print s l)) :
    (∀ e ∈ es ++ fs, P e.question) ↔ ∀ e ∈ es, P e.question := by
  rw [List.forall_mem_append]
  refine and_iff_left fun e he => ?_
  obtain ⟨s, l, hq⟩ := (h.prints e he).exists_eq
  rw [hq]
  exact hp s l

end Talk

namespace Plan.PrintsThen

variable {p : Plan Call.Answer α} {a : α}

theorem finishes (h : p.PrintsThen a) :
    Finishes rules p w fun b es w' => b = a ∧ Talk rules w es w' := by
  induction p generalizing w with
  | done b =>
      obtain rfl : b = a := h
      exact finishes_done.mpr ⟨rfl, .nil⟩
  | ask q next ih =>
      refine finishes_ask.mpr fun x v hx es b w' hs => ?_
      obtain ⟨rfl, ht⟩ := ih x (h.2 x) es b w' hs
      exact ⟨rfl, .cons h.1 hx ht⟩

theorem bind {f : α → Plan Call.Answer β} {b : β} (h : p.PrintsThen a)
    (hf : (f a).PrintsThen b) : (p >>= f).PrintsThen b := by
  induction p with
  | done c =>
      obtain rfl : c = a := h
      exact hf
  | ask q next ih => exact ⟨h.1, fun x => ih x (h.2 x)⟩

theorem asks (h : p.PrintsThen a) : Asks IsPrint p := by
  induction p with
  | done b => exact trivial
  | ask q next ih => exact ⟨h.1, fun x => ih x (h.2 x)⟩

end Plan.PrintsThen

namespace CommandLine

open Session

def Says (s : Session α) (a : α) : Prop := s.run.PrintsThen (.ok a)

theorem printsThen_bind {s : Session α} {f : α → Session β} {g : α → β} {z : Except Abort α}
    (h : s.run.PrintsThen z) (hf : ∀ a, z = .ok a → Says (f a) (g a)) :
    (s >>= f).run.PrintsThen (g <$> z) := by
  cases z with
  | ok a => exact PrintsThen.bind h (hf a rfl)
  | error e => exact PrintsThen.bind h rfl

theorem says_pure {a : α} : Says (pure a) a := rfl

theorem says_print {stream : Stream} {line : String} : Says (print stream line) () :=
  ⟨trivial, fun _ => rfl⟩

theorem Says.bind {s : Session α} {f : α → Session β} {a : α} {b : β} (h : Says s a)
    (hf : Says (f a) b) : Says (s >>= f) b := PrintsThen.bind h hf

theorem says_say {line : String} : Says (say line) () := says_print.bind says_print

theorem says_complain {line : String} : Says (complain line) () := says_print.bind says_print

/-- A run of the routine and then lines; `result` says how the whole ends after the routine. -/
def Ends (rules : Rules Call.Answer W) (r : Routine α) (w : W)
    (result : Except Error α → Except Abort β) (x : Except Abort β)
    (es : List (Event Call.Answer W)) (w' : W) : Prop :=
  ∃ y fs gs v, es = fs ++ gs ∧ Steps rules r.run w fs (.done y) v ∧ Talk rules v gs w' ∧
    x = result y

def classified (context : String) : Except Error α → Except Abort (Except ErrorClass α)
  | .ok a => .ok (.ok a)
  | .error e =>
    if e.errorClass = .fatal then .error (.failed context e) else .ok (.error e.errorClass)

variable {r : Routine α} {context : String} {result : Except Error α → Except Abort β}

theorem ends_of_says {s : Except Error α → Session β}
    (h : ∀ y, ((s y).run.PrintsThen (result y))) :
    Finishes rules (ExceptT.lift r.run >>= s : Session β).run w (Ends rules r w result) := by
  refine finishes_bind.mpr (finishes_bind.mpr ?_)
  intro fs y v hs
  refine finishes_done.mpr ?_
  intro gs x w' hx
  obtain ⟨rfl, ht⟩ := (h y).finishes gs x w' hx
  exact ⟨y, fs, gs, v, congrArg (· ++ gs) (List.append_nil fs), hs, ht, rfl⟩

theorem classified_eq_ok {y : Except Error α} {a : α} (h : classified context y = .ok (.ok a)) :
    y = .ok a := by
  cases y with
  | ok b => exact congrArg Except.ok (Except.ok.inj (Except.ok.inj h))
  | error e =>
      dsimp only [classified] at h
      split at h <;> cases h

def tell (context : String) : Except Error α → Session (Except ErrorClass α)
  | .ok a => return .ok a
  | .error e => do
    if e.errorClass = .fatal then throw (.failed context e)
    complain s!"{context}: {e.message}"
    return .error e.errorClass

theorem classify_eq : classify context r = ExceptT.lift r.run >>= tell context := rfl

theorem sureOr_classify {ok : Event Call.Answer W → Prop} {post : α → W → Prop}
    (h : SureOr rules ok r w post fun _ _ => False) :
    SureOr rules ok (classify context r) w (fun x w' => ∃ a, x = .ok a ∧ post a w')
      fun _ _ => False := by
  rw [classify_eq]
  refine sureOr_bind.mpr (sureOr_lift.mpr (Sure.mono h ?_))
  intro x w' hx
  cases x with
  | ok a => exact ⟨a, rfl, hx⟩
  | error e => exact hx.elim

theorem tell_prints (context : String) (y : Except Error α) :
    (tell context y).run.PrintsThen (classified context y) := by
  cases y with
  | ok a => exact rfl
  | error e =>
      unfold tell classified
      dsimp only
      split
      · exact rfl
      · exact says_complain.bind says_pure

theorem classify_ends : Finishes rules (classify context r).run w
    (Ends rules r w (classified context)) := ends_of_says (tell_prints context)

theorem ends_bind {s : Session β} {f : β → Session γ} {g : β → γ}
    {result' : Except Error α → Except Abort γ}
    (h : Finishes rules s.run w (Ends rules r w result)) (hf : ∀ b, Says (f b) (g b))
    (hr : ∀ y, g <$> result y = result' y) :
    Finishes rules (s >>= f).run w (Ends rules r w result') := by
  refine finishes_bind.mpr ?_
  intro es x v hs fs z w' hz
  obtain ⟨y, es, gs, u, rfl, hy, ht, rfl⟩ := h es x v hs
  have hg := hr y
  cases hb : result y with
  | ok b =>
      rw [hb] at hz hg
      obtain ⟨rfl, ht'⟩ := (hf b).finishes fs z w' hz
      exact ⟨y, es, gs ++ fs, u, List.append_assoc .., hy, ht.append ht', hg⟩
  | error a =>
      rw [hb] at hz hg
      cases hz
      exact ⟨y, es, gs, u, List.append_nil _, hy, ht, hg⟩

def exitCode : Except Abort ExitStatus → Nat
  | .ok status => status.process
  | .error _ => ResultCode.unhandled.number

def codeOf (report : Except ErrorClass α → Report) : Except Error α → Nat
  | .ok a => (report (.ok a)).exitStatus.process
  | .error e =>
    if e.errorClass = .fatal then ResultCode.unhandled.number
    else (report (.error e.errorClass)).exitStatus.process

theorem exitCode_classified {report : Except ErrorClass α → Report} {y : Except Error α} :
    exitCode ((fun c => (report c).exitStatus) <$> classified context y) = codeOf report y := by
  cases y with
  | ok a => exact rfl
  | error e =>
      unfold classified codeOf
      dsimp only
      split
      · exact rfl
      · exact rfl

def Reports (rules : Rules Call.Answer W) (r : Routine α) (w : W)
    (report : Except ErrorClass α → Report) (x : Except Abort ExitStatus)
    (es : List (Event Call.Answer W)) (w' : W) : Prop :=
  ∃ y fs gs v, es = fs ++ gs ∧ Steps rules r.run w fs (.done y) v ∧ Talk rules v gs w' ∧
    exitCode x = codeOf report y

theorem act_ends {name success : String} {r : Routine Unit} :
    Finishes rules (act name success r).run w (Ends rules r w (classified s!"{name} failed")) := by
  refine ends_bind (g := id) classify_ends ?_ fun y => id_map _
  intro result
  dsimp only
  split
  · exact says_print.bind says_pure
  · exact says_pure

theorem reports_of_ends {report : Except ErrorClass α → Report} {s : Session (Except ErrorClass α)}
    {f : Except ErrorClass α → Session ExitStatus}
    (h : Finishes rules s.run w (Ends rules r w (classified context)))
    (hf : ∀ c, Says (f c) (report c).exitStatus) :
    Finishes rules (s >>= f).run w (Reports rules r w report) := by
  refine (ends_bind h hf fun _ => rfl).mono ?_
  rintro x es w' ⟨y, fs, gs, v, hes, hs, ht, rfl⟩
  exact ⟨y, fs, gs, v, hes, hs, ht, exitCode_classified⟩

namespace Command

variable {d : WorkDir} {n : Nat} {t : Target}

def requested (firmware application : Option String) : Offer :=
  ⟨firmware.map (⟨·, none⟩), application.map (⟨·, none⟩)⟩

theorem reports_of_act {c : Command} {r : Routine Unit} {report : Except ErrorClass Unit → Report}
    (name success : String) (h : c.run d n = (do
      let result ← act name success r
      return (report result).exitStatus)) :
    Finishes rules (c.run d n).run w (Reports rules r w report) := by
  rw [h]
  exact reports_of_ends act_ends fun _ => says_pure

theorem update_reports {firmware application : Option String}
    (ht : (requested firmware application).target? = some t) :
    Finishes rules ((update firmware application).run d n).run w
      (Reports rules (Update.update (requested firmware application)) w (.update t)) := by
  refine reports_of_act s!"{t.capitalized} update" "successful" ?_
  unfold requested at ht ⊢
  simp [run, Command.report, ht]

theorem rollback_reports : Finishes rules ((rollback t).run d n).run w
    (Reports rules (Update.rollback t) w (.rollback t)) :=
  reports_of_act s!"{t.capitalized} rollback" "successful" (by simp [run, Command.report])

theorem switchSlot_reports : Finishes rules ((switchSlot t).run d n).run w
    (Reports rules (Update.switchSlot t) w (.rollback t)) :=
  reports_of_act s!"{t.capitalized} slot switch" "successful" (by simp [run, Command.report])

theorem commit_reports : Finishes rules (commit.run d n).run w
    (Reports rules (Update.commit d) w .commit) := by
  have hrun : commit.run d n = (do
      let result ← classify "Commit failed" (Update.commit d)
      match result with
      | .ok outcome => do
        print .stdout (commitText outcome)
        return (Report.commit result).exitStatus
      | .error _ => return (Report.commit result).exitStatus) := by
    simp only [run, Command.report, LawfulMonad.bind_assoc]
    refine congrArg _ (funext fun result => ?_)
    cases result with
    | ok o => simp
    | error c => simp
  rw [hrun]
  refine reports_of_ends classify_ends ?_
  intro c
  cases c with
  | ok outcome => exact says_print.bind says_pure
  | error c => exact says_pure

def gateReport (t : Target) : Except ErrorClass Admission → Report
  | .ok g => .admission g
  | .error c => .automatic t (.error c)

def updateReport (t : Target) (c : Except ErrorClass AutomaticOutcome) : Report :=
  .automatic t (c.map fun _ => ())

/-- An unattended update that was let start updates, and one that was not prints why. -/
def RunsAutomatic (rules : Rules Call.Answer W) (d : WorkDir) (o : Offer) (t : Target) (w : W)
    (x : Except Abort ExitStatus) (es : List (Event Call.Answer W)) (w' : W) : Prop :=
  ∃ y fs gs v, es = fs ++ gs ∧ Steps rules (Update.allowAutomatic d).run w fs (.done y) v ∧
    ((y = .ok .allowed ∧ Reports rules (Update.updateIfNewer o) v (updateReport t) x gs w') ∨
    (y ≠ .ok .allowed ∧ Talk rules v gs w' ∧ exitCode x = codeOf (gateReport t) y))

def updateStatus (o : Offer) (t : Target) : Session ExitStatus := do
  let name := s!"Automatic {t.text} update"
  let result ← classify s!"{name} failed" (Update.updateIfNewer o)
  match result with
  | .ok .updated => say s!"{name} successful"
  | .ok .upToDate => say s!"{t.capitalized} is up to date"
  | .error _ => pure ()
  return (updateReport t result).exitStatus

theorem updateStatus_reports {o : Offer} : Finishes rules (updateStatus o t).run w
    (Reports rules (Update.updateIfNewer o) w (updateReport t)) := by
  refine reports_of_ends classify_ends ?_
  intro c
  rcases c with c | (_ | _)
  · exact says_pure.bind says_pure
  · exact says_say.bind says_pure
  · exact says_say.bind says_pure

def afterAdmission (o : Offer) (t : Target) : Except ErrorClass Admission → Session ExitStatus
  | .ok .allowed => updateStatus o t
  | .ok g => do
    say s!"Automatic update not allowed: {admissionText g}"
    return (Report.admission g).exitStatus
  | .error c => return (Report.automatic t (.error c)).exitStatus

theorem afterAdmission_says {o : Offer} {c : Except ErrorClass Admission} (hc : c ≠ .ok .allowed) :
    Says (afterAdmission o t c) (gateReport t c).exitStatus := by
  rcases c with c | g
  · exact says_pure
  · cases g with
    | allowed => exact absurd rfl hc
    | formerFailure | formerBootFailure | rebootPending => exact says_say.bind says_pure

theorem run_automatic {stick : Stick} (ht : stick.offer.target? = some t) :
    (automatic stick).run d n =
      classify "Allowing automatic update failed" (Update.allowAutomatic d) >>=
        afterAdmission stick.offer t := by
  simp only [run, Command.report, CommandLine.automatic, ht, LawfulMonad.bind_assoc,
    map_eq_pure_bind]
  refine congrArg _ (funext fun admission => ?_)
  rcases admission with c | (_ | i | _ | f)
  case ok.allowed =>
    simp only [afterAdmission, updateStatus, LawfulMonad.bind_assoc]
    refine congrArg _ (funext fun result => ?_)
    rcases result with c | (_ | _) <;> simp [updateReport, Except.map]
  all_goals simp [afterAdmission]

theorem run_automatic_of_none {stick : Stick} (ht : stick.offer.target? = none) :
    (automatic stick).run d n = throw (.noPackageOnStick stick.mount) := by
  simp only [run, Command.report, CommandLine.automatic, ht]
  rfl

def afterAllowing (o : Offer) (t : Target) (y : Except Error Admission) : Session ExitStatus :=
  tell "Allowing automatic update failed" y >>= afterAdmission o t

theorem run_run_automatic {stick : Stick} (ht : stick.offer.target? = some t) :
    ((automatic stick).run d n).run =
      (Update.allowAutomatic d).run >>= fun y => (afterAllowing stick.offer t y).run := by
  rw [run_automatic ht, classify_eq, LawfulMonad.bind_assoc]
  exact ExceptT.run_bind_lift _ _

theorem afterAllowing_prints {o : Offer} {y : Except Error Admission} (hy : y ≠ .ok .allowed) :
    (afterAllowing o t y).run.PrintsThen ((fun c => (gateReport t c).exitStatus) <$>
      classified "Allowing automatic update failed" y) := by
  refine printsThen_bind (tell_prints _ y) fun c hc => afterAdmission_says fun h => hy ?_
  exact classified_eq_ok (hc.trans (congrArg Except.ok h))

theorem automatic_finishes {stick : Stick} (ht : stick.offer.target? = some t) :
    Finishes rules ((automatic stick).run d n).run w
      (RunsAutomatic rules d stick.offer t w) := by
  rw [run_run_automatic ht]
  refine finishes_bind.mpr ?_
  intro fs y v hs gs x w' hx
  by_cases hy : y = .ok .allowed
  · subst hy
    exact ⟨.ok .allowed, fs, gs, v, rfl, hs, .inl ⟨rfl, updateStatus_reports gs x w' hx⟩⟩
  · obtain ⟨rfl, ht⟩ := (afterAllowing_prints hy).finishes gs x w' hx
    exact ⟨y, fs, gs, v, rfl, hs, .inr ⟨hy, ht, exitCode_classified⟩⟩

end Command

end CommandLine

end Dualbank
