import Dualbank.Proofs.Plan.Finishes
import Dualbank.Update

namespace Dualbank

open Plan Routine

variable {W α β : Type} {versions : Image → Except EngineError Version}
  {rules : Rules Call.Answer W} {part : Image × Package} {parts first rest : List (Image × Package)}
  {w w' : W} {es : List (Event Call.Answer W)} {e : EngineError} {o : Offer}

namespace Call

/-- The engine tells the versions that run, and looking does nothing; all else is answered in any
way. -/
def withVersions (versions : Image → Except EngineError Version) (rules : Rules Answer W) :
    Rules Answer W
  | installedVersion (.only i), w, x, w' => x = versions i ∧ w' = w
  | q, w, x, w' => rules q w x w'

end Call

open Call (withVersions)

def Unreadable (versions : Image → Except EngineError Version) (part : Image × Package)
    (e : EngineError) : Prop :=
  part.2.version.isSome ∧ versions part.1 = .error e

def Current (versions : Image → Except EngineError Version) (part : Image × Package) : Prop :=
  ∃ v u, part.2.version = some v ∧ versions part.1 = .ok u ∧ v.number ≤ u.number

def isNewer (versions : Image → Except EngineError Version) (part : Image × Package) : Bool :=
  part.2.version.all fun v => (versions part.1).toOption.all v.newerThan

def looks (versions : Image → Except EngineError Version) (w : W)
    (parts : List (Image × Package)) : List (Event Call.Answer W) :=
  (parts.filter fun part => part.2.version.isSome).map fun part =>
    ⟨.installedVersion (.only part.1), versions part.1, w, w⟩

theorem looks_cons_none {i : Image} {p : Package} (h : p.version = none) :
    looks versions w ((i, p) :: rest) = looks versions w rest := by
  simp [looks, h]

theorem looks_cons_some {i : Image} {p : Package} {v : Version} (h : p.version = some v) :
    looks versions w ((i, p) :: rest) =
      ⟨.installedVersion (.only i), versions i, w, w⟩ :: looks versions w rest := by
  simp [looks, h]

theorem any_isNewer_eq_false_iff (h : ∀ part ∈ parts, ∀ e, ¬Unreadable versions part e) :
    parts.any (isNewer versions) = false ↔ ∀ part ∈ parts, Current versions part := by
  rw [List.any_eq_false]
  refine forall_congr' fun part => forall_congr' fun hpart => ?_
  have hread := h part hpart
  cases hv : part.2.version with
  | none => simp [isNewer, Current, hv]
  | some v =>
      cases hu : versions part.1 with
      | error e => exact absurd ⟨by simp [hv], hu⟩ (hread e)
      | ok u => simp [isNewer, Current, hv, hu, Except.toOption, Version.newerThan]

theorem exists_first_unreadable (versions : Image → Except EngineError Version)
    (parts : List (Image × Package)) :
    (∀ part ∈ parts, ∀ e, ¬Unreadable versions part e) ∨ ∃ first part rest e,
      parts = first ++ part :: rest ∧ (∀ part ∈ first, ∀ e, ¬Unreadable versions part e) ∧
        Unreadable versions part e := by
  induction parts with
  | nil => exact .inl (by simp)
  | cons part rest ih =>
      by_cases hpart : ∃ e, Unreadable versions part e
      · obtain ⟨e, he⟩ := hpart
        exact .inr ⟨[], part, rest, e, rfl, by simp, he⟩
      · rw [not_exists] at hpart
        rcases ih with hrest | ⟨first, last, rest, e, rfl, hfirst, he⟩
        · exact .inl (List.forall_mem_cons.mpr ⟨hpart, hrest⟩)
        · exact .inr ⟨part :: first, last, rest, e, rfl,
            List.forall_mem_cons.mpr ⟨hpart, hfirst⟩, he⟩

namespace Update

theorem steps_installedVersion_bind {i : Image} {u : Version} {f : Version → Routine β}
    {y : Except Error β} (h : versions i = .ok u) :
    Steps (withVersions versions rules) (installedVersion (.only i) >>= f).run w es (done y) w' ↔
      ∃ fs, es = ⟨.installedVersion (.only i), versions i, w, w⟩ :: fs ∧
        Steps (withVersions versions rules) (f u).run w fs (done y) w' := by
  rw [installedVersion, LawfulMonad.bind_assoc, Routine.ask, steps_ask_bind_iff]
  constructor
  · rintro ⟨x, v, fs, rfl, ⟨rfl, rfl⟩, hs⟩
    rw [h] at hs
    exact ⟨fs, rfl, hs⟩
  · rintro ⟨fs, rfl, hs⟩
    refine ⟨_, w, fs, rfl, ⟨rfl, rfl⟩, ?_⟩
    rw [h]
    exact hs

theorem steps_installedVersion_bind_error {i : Image} {f : Version → Routine β}
    {y : Except Error β} (h : versions i = .error e) :
    Steps (withVersions versions rules) (installedVersion (.only i) >>= f).run w es (done y) w' ↔
      es = [⟨.installedVersion (.only i), versions i, w, w⟩] ∧ y = .error (.engine e) ∧ w' = w := by
  rw [installedVersion, LawfulMonad.bind_assoc, Routine.ask, steps_ask_bind_iff]
  constructor
  · rintro ⟨x, v, fs, rfl, ⟨rfl, rfl⟩, hs⟩
    rw [h] at hs
    cases hs
    exact ⟨rfl, rfl, rfl⟩
  · rintro ⟨rfl, rfl, rfl⟩
    refine ⟨_, w', [], rfl, ⟨rfl, rfl⟩, ?_⟩
    rw [h]
    exact .refl _ _

theorem offersNewer_cons_none {i : Image} {p : Package} {f : Bool → Routine β}
    (h : p.version = none) : offersNewer ((i, p) :: rest) >>= f =
      offersNewer rest >>= fun later => f (true || later) := by
  simp [offersNewer, h]

theorem offersNewer_cons_some {i : Image} {p : Package} {v : Version} {f : Bool → Routine β}
    (h : p.version = some v) : offersNewer ((i, p) :: rest) >>= f =
      installedVersion (.only i) >>= fun u =>
        offersNewer rest >>= fun later => f (v.newerThan u || later) := by
  simp [offersNewer, h]

/-- The loop goes through all parts, and what follows is told whether one of them is newer. -/
theorem steps_offersNewer_bind (h : ∀ part ∈ parts, ∀ e, ¬Unreadable versions part e)
    {f : Bool → Routine β} {y : Except Error β} :
    Steps (withVersions versions rules) (offersNewer parts >>= f).run w es (done y) w' ↔
      ∃ fs, es = looks versions w parts ++ fs ∧
        Steps (withVersions versions rules) (f (parts.any (isNewer versions))).run w fs
          (done y) w' := by
  induction parts generalizing es f with
  | nil => simp [offersNewer, looks]
  | cons part rest ih =>
      obtain ⟨i, p⟩ := part
      obtain ⟨hpart, hrest⟩ := List.forall_mem_cons.mp h
      cases hv : p.version with
      | none =>
          rw [offersNewer_cons_none hv, ih hrest, looks_cons_none hv]
          simp [isNewer, hv]
      | some v =>
          cases hu : versions i with
          | error e => exact absurd ⟨by simp [hv], hu⟩ (hpart e)
          | ok u =>
              have hnewer : isNewer versions (i, p) = v.newerThan u := by
                simp [isNewer, hv, hu, Except.toOption]
              simp only [offersNewer_cons_some hv, steps_installedVersion_bind hu, ih hrest,
                looks_cons_some hv, List.any_cons, hnewer]
              constructor
              · rintro ⟨_, rfl, fs, rfl, hs⟩
                exact ⟨fs, rfl, hs⟩
              · rintro ⟨fs, rfl, hs⟩
                exact ⟨_, rfl, fs, rfl, hs⟩

/-- The first part that cannot be read ends the loop, whatever was found before. -/
theorem steps_offersNewer_bind_error (h : ∀ part ∈ first, ∀ e, ¬Unreadable versions part e)
    (he : Unreadable versions part e) {f : Bool → Routine β} {y : Except Error β} :
    Steps (withVersions versions rules) (offersNewer (first ++ part :: rest) >>= f).run w es
        (done y) w' ↔
      es = looks versions w (first ++ [part]) ∧ y = .error (.engine e) ∧ w' = w := by
  induction first generalizing es f with
  | nil =>
      obtain ⟨i, p⟩ := part
      obtain ⟨v, hv⟩ := Option.isSome_iff_exists.mp he.1
      rw [List.nil_append, offersNewer_cons_some hv, steps_installedVersion_bind_error he.2,
        List.nil_append, looks_cons_some hv]
      rfl
  | cons before first ih =>
      obtain ⟨i, p⟩ := before
      obtain ⟨hbefore, hfirst⟩ := List.forall_mem_cons.mp h
      rw [List.cons_append, List.cons_append]
      cases hv : p.version with
      | none => rw [offersNewer_cons_none hv, ih hfirst, looks_cons_none hv]
      | some v =>
          cases hu : versions i with
          | error e => exact absurd ⟨by simp [hv], hu⟩ (hbefore e)
          | ok u =>
              simp only [offersNewer_cons_some hv, steps_installedVersion_bind hu, ih hfirst,
                looks_cons_some hv]
              constructor
              · rintro ⟨_, rfl, rfl, hy⟩
                exact ⟨rfl, hy⟩
              · rintro ⟨rfl, hy⟩
                exact ⟨_, rfl, rfl, hy⟩

section Readable

variable (h : ∀ part ∈ o.parts, ∀ e, ¬Unreadable versions part e)
  {x : Except Error AutomaticOutcome}
include h

theorem steps_updateIfNewer_of_current (hc : ∀ part ∈ o.parts, Current versions part) :
    Steps (withVersions versions rules) (updateIfNewer o).run w es (done x) w' ↔
      es = looks versions w o.parts ∧ x = .ok .upToDate ∧ w' = w := by
  rw [updateIfNewer, steps_offersNewer_bind h, (any_isNewer_eq_false_iff h).mpr hc]
  simp only [Bool.false_eq_true, if_false, steps_pure_iff]
  constructor
  · rintro ⟨fs, rfl, rfl, hx⟩
    exact ⟨List.append_nil _, hx⟩
  · rintro ⟨rfl, hx⟩
    exact ⟨[], (List.append_nil _).symm, rfl, hx⟩

theorem steps_updateIfNewer_of_newer (hn : ¬∀ part ∈ o.parts, Current versions part) :
    Steps (withVersions versions rules) (updateIfNewer o).run w es (done x) w' ↔
      ∃ fs y, es = looks versions w o.parts ++ fs ∧
        Steps (withVersions versions rules) (update o).run w fs (done y) w' ∧
          x = y.map fun _ => .updated := by
  have hnewer : o.parts.any (isNewer versions) = true := by
    rwa [← any_isNewer_eq_false_iff h, Bool.not_eq_false] at hn
  rw [updateIfNewer, steps_offersNewer_bind h, hnewer]
  simp only [if_true, steps_map_iff, exists_and_left]

end Readable

/-- A version that cannot be looked up is the error of an automatic update, the first of them, even
after a newer one was seen. If all are looked up and none is newer, nothing is to be done. In both
cases nothing but versions is asked for. In all others the run is one of the whole update, after
the looks. -/
theorem updateIfNewer_exactly (versions : Image → Except EngineError Version)
    (rules : Rules Call.Answer W) (o : Offer) (w : W) :
    ((∃ part ∈ o.parts, ∃ e, Unreadable versions part e) →
      ∃ first part rest e, o.parts = first ++ part :: rest ∧
        (∀ part ∈ first, ∀ e, ¬Unreadable versions part e) ∧ Unreadable versions part e ∧
          ∀ es x w', Steps (withVersions versions rules) (updateIfNewer o).run w es (done x) w' ↔
            es = looks versions w (first ++ [part]) ∧ x = .error (.engine e) ∧ w' = w) ∧
    ((∀ part ∈ o.parts, ∀ e, ¬Unreadable versions part e) →
      ((∀ part ∈ o.parts, Current versions part) → ∀ es x w',
        Steps (withVersions versions rules) (updateIfNewer o).run w es (done x) w' ↔
          es = looks versions w o.parts ∧ x = .ok .upToDate ∧ w' = w) ∧
      ((¬∀ part ∈ o.parts, Current versions part) → ∀ es x w',
        Steps (withVersions versions rules) (updateIfNewer o).run w es (done x) w' ↔
          ∃ fs y, es = looks versions w o.parts ++ fs ∧
            Steps (withVersions versions rules) (update o).run w fs (done y) w' ∧
              x = y.map fun _ => .updated)) := by
  refine ⟨fun hread => ?_, fun h => ⟨fun hc es x w' => steps_updateIfNewer_of_current h hc,
    fun hn es x w' => steps_updateIfNewer_of_newer h hn⟩⟩
  rcases exists_first_unreadable versions o.parts with
    hall | ⟨first, part, rest, e, hparts, hfirst, he⟩
  · obtain ⟨part, hpart, e, he⟩ := hread
    exact absurd he (hall part hpart e)
  · refine ⟨first, part, rest, e, hparts, hfirst, he, fun es x w' => ?_⟩
    rw [updateIfNewer, hparts]
    exact steps_offersNewer_bind_error hfirst he

end Update

end Dualbank
