import Dualbank.CommandLine.Run
import Dualbank.Proofs.Footprint

namespace Dualbank

open Plan Routine

inductive Work
  | install (i : Image) (p : Package)
  | switch (i : Image)
  deriving DecidableEq, Repr

namespace Work

def image : Work → Image
  | install i _ | switch i => i

def ofPart (x : Image × Package) : Work := install x.1 x.2

end Work

namespace Call

def work? : Call → Option Work
  | install i p => some (.install i p)
  | switch i => some (.switch i)
  | _ => none

def Quiet (q : Call) : Prop := q.work? = none

def isDone : (q : Call) → q.Answer → Bool
  | install .., x => x.isOk
  | switch _, x => x.isOk
  | _, _ => true

def workAfter (q : Call) (x : q.Answer) (works : List Work) : List Work :=
  match q.work? with
  | none => works
  | some _ => if q.isDone x then works.tail else []

end Call

open Call (Quiet)

variable {W α β : Type} {works : List Work}

def WorksThrough : List Work → Plan Call.Answer α → Prop
  | _, .done _ => True
  | works, .ask q next => (∀ c, q.work? = some c → works.head? = some c) ∧
      ∀ x, WorksThrough (q.workAfter x works) (next x)

def worked (es : List (Event Call.Answer W)) : List (Work × Bool) :=
  es.filterMap fun e => e.question.work?.map (·, e.question.isDone e.answer)

/-- The list was followed from its start, and all of it succeeded but perhaps the last. -/
structure Follow (works : List Work) (es : List (Event Call.Answer W)) : Prop where
  order : (worked es).map Prod.fst <+: works
  done : ∀ c ∈ (worked es).dropLast, c.2

theorem Call.workAfter_of_quiet {q : Call} (h : q.Quiet) (x : q.Answer) :
    q.workAfter x works = works := by
  unfold Call.workAfter
  rw [h]

theorem Call.workAfter_of_work {q : Call} {c : Work} (h : q.work? = some c) (x : q.Answer) :
    q.workAfter x works = if q.isDone x then works.tail else [] := by
  unfold Call.workAfter
  rw [h]

section Worked

variable {q : Call} {x : q.Answer} {w w' : W} {es : List (Event Call.Answer W)}

theorem worked_cons_of_quiet (h : q.Quiet) : worked (⟨q, x, w, w'⟩ :: es) = worked es := by
  have h : q.work? = none := h
  simp [worked, h]

theorem worked_cons_of_work {c : Work} (h : q.work? = some c) :
    worked (⟨q, x, w, w'⟩ :: es) = (c, q.isDone x) :: worked es := by
  simp [worked, h]

end Worked

theorem done_of_mem_dropLast_cons {c : Work} {cs : List (Work × Bool)}
    (h : ∀ d ∈ cs.dropLast, d.2) : ∀ d ∈ ((c, true) :: cs).dropLast, d.2 := by
  cases cs with
  | nil => exact nofun
  | cons c' cs =>
      rw [List.dropLast_cons_of_ne_nil (List.cons_ne_nil _ _)]
      exact List.forall_mem_cons.mpr ⟨rfl, h⟩

namespace WorksThrough

theorem steps {rules : Rules Call.Answer W} {p q : Plan Call.Answer α} {w w' : W}
    {es : List (Event Call.Answer W)} (h : WorksThrough works p) (hs : Steps rules p w es q w') :
    Follow works es := by
  induction hs generalizing works with
  | refl => exact ⟨List.nil_prefix, nofun⟩
  | @ask q next x w w' w'' es p hx hs ih =>
      obtain ⟨hhead, hnext⟩ := h
      obtain ⟨hp, hd⟩ := ih (hnext x)
      cases hq : q.work? with
      | none =>
          have hw : worked (⟨q, x, w, w'⟩ :: es) = worked es := worked_cons_of_quiet hq
          rw [Call.workAfter_of_quiet hq] at hp
          exact ⟨hw ▸ hp, hw ▸ hd⟩
      | some c =>
          have hw : worked (⟨q, x, w, w'⟩ :: es) = (c, q.isDone x) :: worked es :=
            worked_cons_of_work hq
          obtain ⟨rest, rfl⟩ : ∃ rest, works = c :: rest :=
            List.head?_eq_some_iff.mp (hhead c hq)
          rw [Call.workAfter_of_work hq] at hp
          cases hdone : q.isDone x with
          | true =>
              rw [hdone, if_pos rfl] at hp
              rw [hdone] at hw
              exact ⟨hw ▸ List.cons_prefix_cons.mpr ⟨rfl, hp⟩, hw ▸ done_of_mem_dropLast_cons hd⟩
          -- After a failure there is no work left, so this was the last of it.
          | false =>
              rw [hdone, if_neg Bool.false_ne_true, List.prefix_nil, List.map_eq_nil_iff] at hp
              rw [hp] at hw
              exact ⟨hw ▸ List.cons_prefix_cons.mpr ⟨rfl, List.nil_prefix⟩, hw ▸ nofun⟩

theorem asks_bind {p : Plan Call.Answer α} {f : α → Plan Call.Answer β} (h : Asks Quiet p)
    (hf : ∀ a, WorksThrough works (f a)) : WorksThrough works (p >>= f) := by
  induction p with
  | done a => exact hf a
  | ask q next ih =>
      obtain ⟨hq, hnext⟩ := h
      refine ⟨fun c hc => ?_, fun x => ?_⟩
      · rw [hq] at hc
        cases hc
      · rw [Call.workAfter_of_quiet hq]
        exact ih x (hnext x)

theorem of_asks {p : Plan Call.Answer α} (h : Asks Quiet p) : WorksThrough works p := by
  have hdone : WorksThrough works (p >>= .done) := asks_bind h fun _ => trivial
  rwa [bind_done] at hdone

theorem bind_asks {p : Plan Call.Answer α} {f : α → Plan Call.Answer β} (h : WorksThrough works p)
    (hf : ∀ a, Asks Quiet (f a)) : WorksThrough works (p >>= f) := by
  induction p generalizing works with
  | done a => exact of_asks (hf a)
  | ask q next ih => exact ⟨h.1, fun x => ih x (h.2 x)⟩

variable {ε : Type} {r : ExceptT ε (Plan Call.Answer) α} {f : α → ExceptT ε (Plan Call.Answer) β}

theorem asks_run_bind (h : Asks Quiet r.run) (hf : ∀ a, WorksThrough works (f a).run) :
    WorksThrough works (r >>= f).run := by
  apply asks_bind h
  intro x
  cases x with
  | ok a => exact hf a
  | error e => exact trivial

theorem run_bind_asks (h : WorksThrough works r.run) (hf : ∀ a, Asks Quiet (f a).run) :
    WorksThrough works (r >>= f).run := by
  apply bind_asks h
  intro x
  cases x with
  | ok a => exact hf a
  | error e => exact trivial

end WorksThrough

namespace Update

theorem writeParts_works {parts : List (Image × Package)} {before : Option Image} :
    WorksThrough (parts.map Work.ofPart) (writeParts before parts).run := by
  induction parts generalizing before with
  | nil => exact trivial
  | cons part rest ih =>
      refine ⟨fun c hc => hc, fun x => ?_⟩
      -- After a success the rest of the list is left, after a failure none of it.
      cases x with
      | ok u => exact ih
      | error e => exact .of_asks (giveUp_asks (fun _ => rfl) fun _ => rfl)

theorem update_works (o : Offer) : WorksThrough (o.parts.map Work.ofPart) (update o).run := by
  unfold update
  split
  · exact trivial
  · apply WorksThrough.asks_run_bind (readPhase_asks rfl)
    intro p
    split
    · exact writeParts_works.run_bind_asks fun _ => writePhase_asks rfl
    · exact trivial

theorem updateIfNewer_works (o : Offer) :
    WorksThrough (o.parts.map Work.ofPart) (updateIfNewer o).run := by
  apply WorksThrough.asks_run_bind (offersNewer_asks fun _ _ => rfl)
  intro newer
  split
  · exact (update_works o).run_bind_asks fun _ => trivial
  · exact trivial

theorem switchImages_works {is : List Image} {before : Option Image} :
    WorksThrough (is.map Work.switch) (switchImages before is).run := by
  induction is generalizing before with
  | nil => exact trivial
  | cons i rest ih =>
      refine ⟨fun c hc => hc, fun x => ?_⟩
      cases x with
      | ok u => exact ih
      | error e =>
          cases before with
          | none => exact trivial
          | some w =>
              have h : Asks Quiet (recordSwitch (.only w)).run :=
                recordSwitch_asks (fun _ => rfl) rfl
              exact .of_asks (Plan.asks_run_bind h fun _ => trivial)

theorem switchTarget_works (t : Target) :
    WorksThrough (t.images.map Work.switch) (switchTarget t).run :=
  switchImages_works.run_bind_asks fun _ => recordSwitch_asks (fun _ => rfl) rfl

end Update

namespace Operation

def work : Operation → List Work
  | update o | updateIfNewer o => o.parts.map Work.ofPart
  | rollback t | switchSlot t => t.images.map Work.switch
  | _ => []

def UsesEngine : Operation → Prop
  | update _ | updateIfNewer _ | rollback _ | switchSlot _ => True
  | _ => False

theorem asks_quiet {op : Operation} (h : ¬op.UsesEngine) (d : WorkDir) :
    Asks Quiet (op.routine d).run := by
  refine (op.asks d).mono fun q hq => ?_
  cases op with
  | update | updateIfNewer | rollback | switchSlot => exact absurd trivial h
  | allowAutomatic | commit | download | progress | install | apply =>
      cases q with
      | install | switch => exact hq.elim
      | _ => rfl

theorem allowAutomatic_quiet (d : WorkDir) : Asks Quiet (Update.allowAutomatic d).run :=
  @asks_quiet .allowAutomatic not_false d

def target? : Operation → Option Target
  | update o | updateIfNewer o => o.target?
  | rollback t | switchSlot t => some t
  | _ => none

theorem map_image_work {op : Operation} {t : Target} (h : op.target? = some t) :
    op.work.map Work.image = t.images := by
  cases op with
  | update o | updateIfNewer o =>
      rw [work, List.map_map, ← Offer.map_fst_parts h]
      rfl
  | rollback t' | switchSlot t' =>
      obtain rfl := Option.some.inj h
      rw [work, List.map_map]
      exact List.map_id _
  | _ => cases h

theorem worksThrough (op : Operation) (d : WorkDir) : WorksThrough op.work (op.routine d).run := by
  cases op with
  | update o => exact Update.update_works o
  | updateIfNewer o => exact Update.updateIfNewer_works o
  | rollback t | switchSlot t =>
      apply WorksThrough.asks_run_bind (readPhase_asks rfl)
      intro p
      split
      · exact Update.switchTarget_works t
      · exact trivial
  | allowAutomatic | commit | download | progress | install | apply =>
      refine .of_asks (asks_quiet ?_ d)
      exact not_false

end Operation

namespace CommandLine

open Session

variable {sort : Call → Prop}

theorem print_asks {stream : Stream} {line : String} (h : ∀ s l, sort (.print s l)) :
    Asks sort (print stream line).run := ⟨h _ _, fun _ => trivial⟩

theorem say_asks {line : String} (h : ∀ s l, sort (.print s l)) : Asks sort (say line).run :=
  Plan.asks_run_bind (print_asks h) fun _ => print_asks h

theorem complain_asks {line : String} (h : ∀ s l, sort (.print s l)) :
    Asks sort (complain line).run :=
  Plan.asks_run_bind (print_asks h) fun _ => print_asks h

theorem classified_asks {context : String} (h : ∀ s l, sort (.print s l)) (x : Except Error α) :
    Asks sort
      (match x with
        | .ok a => return .ok a
        | .error e => do
          if e.errorClass = .fatal then throw (.failed context e)
          complain s!"{context}: {e.message}"
          return .error e.errorClass : Session (Except ErrorClass α)).run := by
  cases x with
  | ok a => exact trivial
  | error e =>
      dsimp only
      split
      · exact trivial
      · exact Plan.asks_run_bind (complain_asks h) fun _ => trivial

theorem classify_asks {context : String} {r : Routine α} (hr : Asks sort r.run)
    (h : ∀ s l, sort (.print s l)) : Asks sort (classify context r).run :=
  Plan.asks_run_bind (asks_bind hr fun _ => trivial) (classified_asks h)

theorem classify_works {context : String} {r : Routine α} (h : WorksThrough works r.run) :
    WorksThrough works (classify context r).run :=
  WorksThrough.run_bind_asks (h.bind_asks fun _ => trivial) (classified_asks fun _ _ => rfl)

/-- An unattended update commits what is pending, which is none of the engine's work. -/
theorem automatic_works (d : WorkDir) (stick : Stick) :
    WorksThrough (stick.offer.parts.map Work.ofPart) (automatic d stick).run := by
  have hprint : ∀ s l, Quiet (.print s l) := fun _ _ => rfl
  unfold automatic
  split
  · apply WorksThrough.asks_run_bind (classify_asks (Operation.allowAutomatic_quiet d) hprint)
    intro admission
    split
    · exact trivial
    · apply WorksThrough.run_bind_asks (classify_works (Update.updateIfNewer_works _))
      intro outcome
      split
      · exact trivial
      · exact Plan.asks_run_bind (say_asks hprint) fun _ => trivial
      · exact Plan.asks_run_bind (say_asks hprint) fun _ => trivial
    · exact .of_asks (Plan.asks_run_bind (say_asks hprint) fun _ => trivial)
  · exact trivial

end CommandLine

end Dualbank
