import Dualbank.Proofs.Exit.Success

namespace Dualbank

open Plan Routine

/-- The answers of the engine to each write, of the record to each phase, and of the work directory
to the creation of a rollback marker while there is none. -/
structure Responses where
  engine : Work → Except EngineError Unit
  record : Phase → Except Error Unit
  creation : Except OsError Unit
  absent : ∀ e, creation = .error e → e.isAlreadyPresent = false

def Responses.firmwareOnly (e : EngineError) : Responses where
  engine c := if c.image = .firmware then .ok () else .error e
  record _ := .ok ()
  creation := .ok ()
  absent := nofun

namespace Call

def fits (a : Responses) : (q : Call) → Held → q.Answer → Prop
  | writePhase p, _, x => x = a.record p
  | install i p, _, x => x = a.engine (.install i p)
  | switch i, _, x => x = a.engine (.switch i)
  | create .rollback, k, x => k.marker = false → x = a.creation
  | _, _, _ => True

def responding (a : Responses) : Rules Answer Held := fun q k x k' =>
  faithful q k x k' ∧ q.fits a k x

def isFiled : Call → Bool
  | writePhase _ | create _ | remove _ => true
  | _ => false

end Call

open Call (faithful responding)

def filed {W : Type} (es : List (Event Call.Answer W)) : List Call :=
  (es.map Event.question).filter Call.isFiled

def completed {W : Type} (es : List (Event Call.Answer W)) : List Image :=
  ((worked es).filter Prod.snd).map fun c => c.1.image

/-- How far a list of work goes: what is done of it, and the work that fails. -/
inductive Goes (a : Responses) : List Work → List Work → Option (Work × EngineError) → Prop
  | nil : Goes a [] [] none
  | failed {c : Work} {e : EngineError} (h : a.engine c = .error e) (rest : List Work) :
      Goes a (c :: rest) [] (some (c, e))
  | done {c : Work} {rest done : List Work} {f : Option (Work × EngineError)}
      (h : a.engine c = .ok ()) (hrest : Goes a rest done f) : Goes a (c :: rest) (c :: done) f

variable {W : Type} {a : Responses} {k : Held} {works done : List Work}
  {f : Option (Work × EngineError)}

theorem Call.responding_faithful (a : Responses) (q : Call) (k : Held) (x : q.Answer) (k' : Held)
    (h : responding a q k x k') : faithful q k x k' := h.1

theorem Call.exists_responding (a : Responses) (q : Call) (k : Held) :
    ∃ x k', responding a q k x k' := by
  cases q with
  | writePhase p =>
      cases h : a.record p with
      | ok u => exact ⟨.ok (), { k with phase := p }, rfl, h.symm⟩
      | error e => exact ⟨.error e, k, rfl, h.symm⟩
  | install i p => exact ⟨a.engine (.install i p), k, rfl, rfl⟩
  | switch i => exact ⟨a.engine (.switch i), k, rfl, rfl⟩
  | create m =>
      cases m with
      | rollback =>
          cases hm : k.marker with
          | true =>
              have hpresent : (OsError.number Errno.alreadyPresent).isAlreadyPresent := rfl
              exact ⟨.error (.number Errno.alreadyPresent), k,
                ⟨iff_of_true hpresent hm, rfl⟩, fun h => by rw [hm] at h; cases h⟩
          | false =>
              cases h : a.creation with
              | ok u => exact ⟨.ok (), { k with marker := true }, ⟨hm, rfl⟩, fun _ => h.symm⟩
              | error e =>
                  have hother := a.absent e h
                  exact ⟨.error e, k, ⟨by simp [hother, hm], rfl⟩, fun _ => h.symm⟩
      | _ =>
          obtain ⟨x, k', hx⟩ := Call.exists_faithful (.create _) k
          exact ⟨x, k', hx, trivial⟩
  | _ =>
      obtain ⟨x, k', hx⟩ := Call.exists_faithful _ k
      exact ⟨x, k', hx, trivial⟩

section Filed

variable {q : Call} {x : q.Answer} {w w' : W} {es fs : List (Event Call.Answer W)}

theorem filed_cons_of_not_isFiled (h : q.isFiled = false) :
    filed (⟨q, x, w, w'⟩ :: es) = filed es := by
  simp [filed, h]

theorem filed_append : filed (es ++ fs) = filed es ++ filed fs := by
  simp [filed]

theorem worked_cons_readPhase {x : Except Error Phase} :
    worked (⟨.readPhase, x, w, w'⟩ :: es) = worked es :=
  worked_cons_of_quiet (rfl : Call.work? .readPhase = none)

end Filed

namespace Goes

theorem exists_of_failed {c : Work} {e : EngineError} (h : Goes a works done (some (c, e))) :
    ∃ rest, works = done ++ c :: rest ∧ a.engine c = .error e := by
  generalize hf : some (c, e) = f at h
  induction h with
  | nil => cases hf
  | failed h rest =>
      cases hf
      exact ⟨rest, rfl, h⟩
  | done h hrest ih =>
      obtain ⟨rest, rfl, he⟩ := ih hf
      exact ⟨rest, rfl, he⟩

theorem ok_of_mem (h : Goes a works done f) : ∀ c ∈ done, a.engine c = .ok () := by
  induction h with
  | nil | failed => simp
  | done h hrest ih => exact List.forall_mem_cons.mpr ⟨h, ih⟩

theorem eq_of_none (h : Goes a works done none) : done = works := by
  generalize hf : (none : Option (Work × EngineError)) = f at h
  induction h with
  | nil => rfl
  | failed => cases hf
  | done h hrest ih => rw [ih hf]

theorem of_forall_ok (h : Goes a works done f) (hok : ∀ c ∈ works, a.engine c = .ok ()) :
    done = works ∧ f = none := by
  induction h with
  | nil => exact ⟨rfl, rfl⟩
  | failed h => cases h.symm.trans (hok _ List.mem_cons_self)
  | done h hrest ih =>
      obtain ⟨rfl, hf⟩ := ih fun c hc => hok c (List.mem_cons_of_mem _ hc)
      exact ⟨rfl, hf⟩

theorem of_append {first rest : List Work} {c : Work} {e : EngineError}
    (h : Goes a (first ++ c :: rest) done f) (hok : ∀ d ∈ first, a.engine d = .ok ())
    (hc : a.engine c = .error e) : done = first ∧ f = some (c, e) := by
  induction first generalizing done with
  | nil =>
      cases h with
      | failed h => exact ⟨rfl, by rw [Except.error.inj (h.symm.trans hc)]⟩
      | done h => cases h.symm.trans hc
  | cons d first ih =>
      obtain ⟨hd, hfirst⟩ := List.forall_mem_cons.mp hok
      cases h with
      | failed h => cases h.symm.trans hd
      | done h hrest =>
          obtain ⟨rfl, hf⟩ := ih hrest hfirst
          exact ⟨rfl, hf⟩

end Goes

def attempted (done : List Work) (f : Option (Work × EngineError)) : List (Work × Bool) :=
  done.map (·, true) ++ f.toList.map fun c => (c.1, false)

theorem completed_of_attempted {es : List HeldEvent} (h : worked es = attempted done f) :
    completed es = done.map Work.image := by
  have hfailed : (f.toList.map fun c => (c.1, false)).filter Prod.snd = [] := by
    cases f <;> rfl
  rw [completed, h, attempted, List.filter_append, hfailed, List.append_nil, List.filter_map,
    List.filter_eq_self.mpr (by simp), List.map_map]
  rfl

/-- What a failure leaves behind, given the image whose work was done last, the work that failed and
its error: an end, what was filed, and a state. -/
abbrev Handling :=
  Option Image → Work → EngineError → Except Error Unit → List Call → Held → Prop

def GoneThrough (a : Responses) (works : List Work) (before : Option Image)
    (ended : Except Error Unit → List Call → Held → Prop) (handled : Handling)
    (x : Except Error Unit) (es : List HeldEvent) (k' : Held) : Prop :=
  ∃ done f, Goes a works done f ∧ worked es = attempted done f ∧
    (f = none → ended x (filed es) k') ∧
    ∀ c e, f = some (c, e) → handled ((done.getLast?.map Work.image).or before) c e x (filed es) k'

namespace GoneThrough

variable {before : Option Image} {ended : Except Error Unit → List Call → Held → Prop}
  {handled : Handling} {x : Except Error Unit} {es : List HeldEvent} {k' : Held} {c : Work}

theorem nil (h : ended x [] k') : GoneThrough a [] before ended handled x [] k' :=
  ⟨[], none, .nil, rfl, fun _ => h, fun _ _ hf => nomatch hf⟩

theorem cons_done {q : Call} {y : q.Answer} (hq : q.work? = some c) (hy : q.isDone y = true)
    (hf : q.isFiled = false) (hc : a.engine c = .ok ())
    (h : GoneThrough a works (some c.image) ended handled x es k') :
    GoneThrough a (c :: works) before ended handled x (⟨q, y, k, k⟩ :: es) k' := by
  obtain ⟨done, f, hgoes, hworked, hended, hhandled⟩ := h
  refine ⟨c :: done, f, .done hc hgoes, ?_, ?_, fun d e hfail => ?_⟩
  · rw [worked_cons_of_work hq, hy, hworked]
    rfl
  · rwa [filed_cons_of_not_isFiled hf]
  -- The image done last is the last of the rest, or the one at the head.
  · have hlast : (((c :: done).getLast?.map Work.image).or before) =
        (done.getLast?.map Work.image).or (some c.image) := by
      rw [List.getLast?_cons]
      cases done.getLast? <;> rfl
    rw [filed_cons_of_not_isFiled hf, hlast]
    exact hhandled d e hfail

theorem cons_failed {q : Call} {y : q.Answer} {e : EngineError} (hq : q.work? = some c)
    (hy : q.isDone y = false) (hf : q.isFiled = false) (hc : a.engine c = .error e)
    (hquiet : worked es = []) (h : handled before c e x (filed es) k') :
    GoneThrough a (c :: works) before ended handled x (⟨q, y, k, k⟩ :: es) k' := by
  refine ⟨[], some (c, e), .failed hc _, ?_, nofun, ?_⟩
  · rw [worked_cons_of_work hq, hy, hquiet]
    rfl
  · rintro _ _ ⟨⟩
    rw [filed_cons_of_not_isFiled hf]
    exact h

theorem cons_readPhase {y : Except Error Phase}
    (h : GoneThrough a works before ended handled x es k') :
    GoneThrough a works before ended handled x (⟨.readPhase, y, k, k⟩ :: es) k' := by
  unfold GoneThrough
  rw [worked_cons_readPhase, filed_cons_of_not_isFiled rfl]
  exact h

/-- Nothing is filed while the list is gone through, so what follows tells the end of it all. -/
theorem bind {r : Routine Unit} {g : Unit → Routine Unit}
    (hr : Finishes (responding a) r.run k (GoneThrough a works none
      (fun x cs k' => x = .ok () ∧ cs = [] ∧ k' = k) handled))
    (hg : Finishes (responding a) (g ()).run k fun x es k' =>
      worked es = [] ∧ ended x (filed es) k')
    (hne : ∀ {w c e x cs k'}, handled w c e x cs k' → x ≠ .ok ()) :
    Finishes (responding a) (r >>= g).run k (GoneThrough a works none ended handled) := by
  refine finishes_bind.mpr fun es y v hy => ?_
  obtain ⟨done, f, hgoes, hworked, hended, hhandled⟩ := hr es y v hy
  cases f with
  | none =>
      obtain ⟨rfl, hfiled, rfl⟩ := hended rfl
      refine hg.mono ?_
      rintro x fs k' ⟨hquiet, hstored⟩
      refine ⟨done, none, hgoes, ?_, fun _ => ?_, fun _ _ hf => nomatch hf⟩
      · rw [worked_append, hworked, hquiet, List.append_nil]
      · rwa [filed_append, hfiled]
  | some failure =>
      have hfailed := hhandled failure.1 failure.2 rfl
      cases y with
      | ok u => exact absurd rfl (hne hfailed)
      | error e =>
          refine finishes_done.mpr ⟨done, some failure, hgoes, ?_, nofun, ?_⟩
          · rw [List.append_nil, hworked]
          · rintro _ _ ⟨⟩
            rw [List.append_nil]
            exact hfailed

end GoneThrough

end Dualbank
