import Dualbank.Proofs.Plan.Sure
import Dualbank.Staging

namespace Dualbank

open Plan Routine

abbrev Directory := Entry → Option String

namespace Call

def AboutFiles : Call → Prop
  | has _ | create _ | remove _ | read _ | inspect _ | pause => True
  | _ => False

end Call

variable {sort : Call → Prop} {d : WorkDir}

namespace WorkDir

theorem has_asks {m : Marker} (h : sort (.has m)) : Asks sort (d.has m).run := by
  apply asks_run_bind ((asks_run_ask _).mpr h)
  intro x
  cases x with
  | ok b => exact trivial
  | error e => exact trivial

theorem create_asks {m : Marker} (h : sort (.create m)) : Asks sort (create m).run := by
  apply asks_run_bind ((asks_run_ask _).mpr h)
  intro x
  cases x with
  | ok b => exact trivial
  | error e => exact trivial

theorem remove_asks {e : Entry} (h : sort (.remove e)) : Asks sort (d.remove e).run := by
  apply asks_run_bind ((asks_run_ask _).mpr h)
  intro x
  cases x with
  | ok b => exact trivial
  | error cause =>
      dsimp only
      split
      · exact trivial
      · exact trivial

theorem forM_asks {es : List Entry} (h : ∀ e ∈ es, sort (.remove e)) :
    Asks sort (es.forM d.remove).run := by
  induction es with
  | nil => exact trivial
  | cons e es ih =>
      obtain ⟨he, hes⟩ := List.forall_mem_cons.mp h
      exact asks_run_bind (remove_asks he) fun _ => ih hes

theorem clear_asks (h : ∀ e, sort (.remove e)) : Asks sort d.clear.run := forM_asks fun e _ => h e

theorem read_asks {f : Descriptor} (h : sort (.read f)) : Asks sort (d.read f).run := by
  apply asks_run_bind ((asks_run_ask _).mpr h)
  intro x
  cases x with
  | ok s => exact trivial
  | error cause =>
      dsimp only
      split
      · exact trivial
      · exact trivial

theorem location_asks (h : sort (.read .location)) : Asks sort d.location.run :=
  asks_run_bind (read_asks h) fun _ => trivial

end WorkDir

namespace Staging

open WorkDir

theorem announced_asks (h : ∀ f, sort (.read f)) : Asks sort (announced d).run := by
  apply asks_run_bind (read_asks (h .type))
  intro type
  apply asks_run_bind (read_asks (h .version))
  intro version
  apply asks_run_bind (read_asks (h .size))
  intro size
  split
  · cases Announcement.ofTexts _ _ _ with
    | ok a =>
        apply asks_run_bind (asks_run_pure a)
        intro announcement
        exact asks_run_bind (location_asks (h .location)) fun _ => trivial
    | error e => exact trivial
  · exact trivial

theorem download_asks (hr : ∀ f, sort (.read f)) (hc : sort (.create .download)) :
    Asks sort (download d).run := by
  apply asks_run_bind (announced_asks hr)
  intro a
  split
  · exact trivial
  · apply asks_run_bind (create_asks hc)
    intro x
    split <;> exact trivial

theorem awaitLocation_asks (hr : sort (.read .location)) (hp : sort .pause) (n : Nat) :
    Asks sort (awaitLocation d n).run := by
  induction n with
  | zero => exact location_asks hr
  | succ n ih =>
      apply asks_run_bind (location_asks hr)
      intro l
      split
      · exact trivial
      · exact asks_run_bind ((asks_run_ask _).mpr hp) fun _ => ih

theorem artifactSize_asks {path : String} (h : sort (.inspect path)) :
    Asks sort (artifactSize path).run := by
  apply asks_run_bind ((asks_run_ask _).mpr h)
  intro x
  split
  · exact trivial
  · exact trivial
  · split <;> exact trivial

theorem progress_asks {n : Nat} (hh : sort (.has .download)) (hr : ∀ f, sort (.read f))
    (hp : sort .pause) (hi : ∀ path, sort (.inspect path)) : Asks sort (progress d n).run := by
  apply asks_run_bind (has_asks hh)
  intro b
  split
  · exact trivial
  · apply asks_run_bind (announced_asks hr)
    intro a
    split
    · exact trivial
    · split
      · exact trivial
      · apply asks_run_bind (awaitLocation_asks (hr .location) hp (n - 1))
        intro path
        split
        · exact trivial
        · exact asks_run_bind (artifactSize_asks (hi _)) fun _ => trivial

theorem install_asks (hr : sort (.read .location)) (hh : sort (.has .installed))
    (hc : sort (.create .install)) : Asks sort (install d).run := by
  apply asks_run_bind (location_asks hr)
  intro l
  split
  · exact trivial
  · apply asks_run_bind (has_asks hh)
    intro b
    split
    · exact trivial
    · apply asks_run_bind (create_asks hc)
      intro x
      split <;> exact trivial

end Staging

end Dualbank
