import Dualbank.Device.Answer
import Dualbank.Proofs.Device.Recording
import Dualbank.Staging

namespace Dualbank

open Plan Routine

namespace Board

def without (b : Board) (paths : List String) : Board :=
  { b with nodes := fun path => if path ∈ paths then .absent else b.nodes path }

theorem stamp_without (b : Board) (paths : List String) :
    b.stamp.without paths = (b.without paths).stamp := rfl

@[simp] theorem without_nil (b : Board) : b.without [] = b := by simp [without]

theorem without_without {b : Board} {paths paths' : List String} (h : paths ⊆ paths') :
    (b.without paths).without paths' = b.without paths' := by
  simp only [without, Board.mk.injEq, true_and, and_true]
  funext path
  by_cases hp : path ∈ paths'
  · rw [if_pos hp, if_pos hp]
  · rw [if_neg hp, if_neg hp, if_neg fun hq => hp (h hq)]

theorem without_cons (b : Board) (path : String) (paths : List String) :
    (b.without [path]).without paths = b.without (path :: paths) := by
  simp only [without, Board.mk.injEq, true_and, and_true]
  funext path'
  by_cases hp : path' ∈ paths
  · simp [hp]
  · simp [hp]

theorem directory_of_without {b : Board} {paths : List String} {path : String}
    (h : (b.without paths).nodes path = .directory) : b.nodes path = .directory := by
  by_cases hp : path ∈ paths
  · simp [without, hp] at h
  · simpa [without, hp] using h

theorem directory_of_not_mem {b : Board} {paths : List String} {path : String} (hp : path ∉ paths)
    (h : b.nodes path = .directory) : (b.without paths).nodes path = .directory := by
  simp only [without, if_neg hp, h]

theorem put_absent (b : Board) (path : String) : b.put path .absent = b.without [path] := by
  simp only [put, without, Board.mk.injEq, true_and, and_true]
  funext path'
  by_cases hp : path' = path
  · subst hp
    simp
  · simp [hp]

theorem without_of_absent {b : Board} {path : String} (h : b.nodes path = .absent) :
    b.without [path] = b := by
  rw [← put_absent, put, ← h, Function.update_eq_self]

end Board

theorem SysCall.Works.of_remove {r : Record} {path : String} {b b' : Board} {x : Except OsError Unit}
    (h : Works r (.remove path) b x b') :
    (b.nodes path ≠ .directory ∧ b' = b.without [path] ∧ ∀ e, x = .error e → e.isNotFound) ∨
      (b.nodes path = .directory ∧ b' = b ∧ ∃ e, x = .error e ∧ ¬e.isNotFound) := by
  rw [Works] at h
  cases hn : b.nodes path with
  | absent =>
      rw [hn] at h
      obtain ⟨rfl, rfl⟩ := h
      refine .inl ⟨Node.noConfusion, (Board.without_of_absent hn).symm, ?_⟩
      rintro e he
      obtain rfl := Except.error.inj he
      decide
  | file =>
      rw [hn] at h
      obtain ⟨rfl, rfl⟩ := h
      refine .inl ⟨Node.noConfusion, b.put_absent path, ?_⟩
      rintro e he
      cases he
  | directory =>
      rw [hn] at h
      exact .inr ⟨rfl, h.2, h.1⟩

namespace Device

variable {α : Type} {dev : Device} {failing : SysCall → Board → Board → Prop}
  {sort : SysCall → Prop} {b b' : Board}

def calls (dev : Device) (failing : SysCall → Board → Board → Prop) : Rules Call.Answer Board :=
  fun q => Gives (SysCall.rules dev.record failing) (dev.answer q)

theorem gives_perform {p : Plan Call.Answer α} {a : α} :
    Gives (SysCall.rules dev.record failing) (dev.perform p) b a b' ↔
      Gives (dev.calls failing) p b a b' :=
  gives_run dev.answer

theorem exists_calls (dev : Device) (failing : SysCall → Board → Board → Prop) (q : Call)
    (b : Board) : ∃ x b', dev.calls failing q b x b' :=
  exists_gives (SysCall.exists_rules dev.record failing) _ b

def performed (dev : Device) (r : Routine α) : DevicePlan α := ExceptT.mk (dev.perform r.run)

theorem performed_bind {β : Type} (r : Routine α) (f : α → Routine β) :
    dev.performed (r >>= f) = dev.performed r >>= fun a => dev.performed (f a) := by
  refine (run_bind dev.answer r.run _).trans (congrArg _ (funext fun x => ?_))
  cases x with
  | ok a => rfl
  | error e => rfl

theorem bind_perform_ofExcept (p : SysPlan (Except Error α)) :
    (p >>= fun x => dev.perform (MonadExcept.ofExcept x : Routine α).run) = p := by
  refine Eq.trans (congrArg _ (funext fun x => ?_)) (bind_done p)
  cases x with
  | ok a => rfl
  | error e => rfl

theorem performed_readPhase : dev.performed readPhase = dev.record.readPhase :=
  bind_perform_ofExcept dev.record.readPhase.run

theorem performed_isRebooted (includesFirmware : Bool) :
    dev.performed (isRebooted includesFirmware) = dev.record.isRebooted :=
  bind_perform_ofExcept dev.record.isRebooted.run

theorem performed_writePhase (p : Phase) :
    dev.performed (writePhase p) = dev.record.writePhase p :=
  bind_perform_ofExcept (dev.record.writePhase p).run

theorem performed_remove (e : Entry) :
    dev.performed (dev.workDir.remove e) = (do
      match ← ExceptT.lift (SysPlan.ask (.remove (dev.workDir.pathOf e))) with
      | .ok () => return ()
      | .error cause =>
        if cause.isNotFound then return ()
        else throw (.io (.removing (dev.workDir.pathOf e)) cause)) := by
  refine congrArg (Plan.ask _) (funext fun x => ?_)
  cases x with
  | ok u => rfl
  | error cause =>
      change dev.perform (if cause.isNotFound then pure ()
        else throw (.io (.removing (dev.workDir.pathOf e)) cause) : Routine Unit).run =
          (if cause.isNotFound then pure ()
            else throw (.io (.removing (dev.workDir.pathOf e)) cause) : DevicePlan Unit).run
      split
      · rfl
      · rfl

def runBut (dev : Device) (broken : SysCall → Bool) (p : Plan Call.Answer α) : StateM Board α :=
  (dev.perform p).run (SysCall.replyBut dev.record broken)

theorem gives_runBut {broken : SysCall → Bool} (h : ∀ q b, broken q → failing q b b)
    {p : Plan Call.Answer α} {a : α} (ha : (dev.runBut broken p b).1 = a) :
    Gives (dev.calls failing) p b a (dev.runBut broken p b).2 := by
  subst ha
  exact gives_perform.mp (gives_stateM _ (SysCall.rules_replyBut h) _ b)

theorem sureOr_ofExcept {rules : Rules Call.Answer Board} {r : DevicePlan α} {x : Except Error α}
    {post : α → Board → Prop} {fail : Error → Board → Prop}
    (h : SureOr (SysCall.rules dev.record failing) (fun _ => True) r b post fail)
    (hg : Gives (SysCall.rules dev.record failing) r.run b x b') :
    SureOr rules (fun _ => True) (MonadExcept.ofExcept x : Routine α) b' post fail := by
  apply (Plan.sureOr_ofExcept x).mpr
  cases x with
  | ok a => exact h.gives_ok hg
  | error e => exact h.gives_error hg

variable {fail : Error → Board → Prop}

theorem sureOr_readPhase {post : Phase → Board → Prop} (hpost : ∀ p, b.phase = .ok p → post p b)
    (hread : ∀ e, b.phase = .error e → fail e b) (hdenied : ∀ q, sort q → post .idle b)
    (hfail : ∀ q e, sort q → fail e b) :
    SureOr (dev.calls (Inert sort)) (fun _ => True) readPhase b post fail := by
  apply sureOr_ask_bind.mpr
  intro x b' hx
  refine ⟨trivial, sureOr_ofExcept
    (Record.sureOr_readPhase (fun _ _ _ => trivial) hpost hread ?_ ?_) hx⟩
  · rintro _ ⟨hq, rfl⟩
    exact hdenied _ hq
  · rintro e _ ⟨hq, rfl⟩
    exact hfail _ e hq

theorem sureOr_isRebooted {includesFirmware : Bool} {post : Bool → Board → Prop}
    (hpost : post b.isRebooted b) (hdenied : ∀ q, sort q → post true b)
    (hfail : ∀ q e, sort q → fail e b) :
    SureOr (dev.calls (Inert sort)) (fun _ => True) (isRebooted includesFirmware) b post fail := by
  apply sureOr_ask_bind.mpr
  intro x b' hx
  refine ⟨trivial, sureOr_ofExcept
    (Record.sureOr_isRebooted (fun _ _ _ => trivial) (fun _ _ _ => trivial) hpost ?_ ?_) hx⟩
  · rintro _ ⟨hq, rfl⟩
    exact hdenied _ hq
  · rintro q e _ ⟨hq, rfl⟩
    exact hfail q e hq

theorem sureOr_writePhase {p : Phase} {post : Unit → Board → Prop} (hpost : post () (b.record p))
    (hfail : ∀ q e, sort q → fail e b) (hfail' : ∀ q e, sort q → fail e b.stamp) :
    SureOr (dev.calls (Inert sort)) (fun _ => True) (writePhase p) b post fail := by
  apply sureOr_ask_bind.mpr
  intro x b' hx
  refine ⟨trivial, sureOr_ofExcept (Record.sureOr_writePhase hpost ?_ ?_) hx⟩
  · rintro q e _ ⟨hq, rfl⟩
    exact hfail q e hq
  · rintro q e _ ⟨hq, rfl⟩
    exact hfail' q e hq

theorem sureOr_remove {e : Entry} {post : Unit → Board → Prop}
    (hpost : b.nodes (dev.workDir.pathOf e) ≠ .directory →
      post () (b.without [dev.workDir.pathOf e]))
    (hdirectory : ∀ e', b.nodes (dev.workDir.pathOf e) = .directory → fail e' b)
    (hfail : ∀ q e', sort q → fail e' b) :
    SureOr (dev.calls (Inert sort)) (fun _ => True) (dev.workDir.remove e) b post fail := by
  apply sureOr_ask_bind.mpr
  intro x b' hx
  refine ⟨trivial, ?_⟩
  rcases gives_call.mp hx with hx | ⟨⟨cause, rfl, hc⟩, hq, rfl⟩
  · rcases hx.of_remove with ⟨hn, rfl, hc⟩ | ⟨hn, rfl, cause, rfl, hc⟩
    · cases x with
      | ok u => exact hpost hn
      | error cause =>
          dsimp only
          rw [if_pos (hc cause rfl)]
          exact hpost hn
    · dsimp only
      rw [if_neg hc]
      exact hdirectory _ hn
  · dsimp only
    rw [if_neg hc]
    exact hfail _ _ hq

theorem sureOr_forM_remove {es : List Entry} {post : Unit → Board → Prop}
    (hpost : (∀ path ∈ es.map dev.workDir.pathOf, b.nodes path ≠ .directory) →
      post () (b.without (es.map dev.workDir.pathOf)))
    (hdirectory : ∀ e paths path, paths ⊆ es.map dev.workDir.pathOf →
      path ∈ es.map dev.workDir.pathOf → b.nodes path = .directory → fail e (b.without paths))
    (hfail : ∀ q e paths, sort q → paths ⊆ es.map dev.workDir.pathOf → fail e (b.without paths)) :
    SureOr (dev.calls (Inert sort)) (fun _ => True) (es.forM dev.workDir.remove) b post fail := by
  induction es generalizing b with
  | nil =>
      rw [List.map_nil, Board.without_nil] at hpost
      exact hpost (by simp)
  | cons e es ih =>
      rw [List.map_cons] at hpost hdirectory hfail
      apply sureOr_bind.mpr
      refine sureOr_remove ?_ ?_ ?_
      · intro he
        refine ih ?_ ?_ ?_
        · intro hes
          rw [Board.without_cons]
          refine hpost (List.forall_mem_cons.mpr ⟨he, fun path hpath hd => ?_⟩)
          by_cases hp : path ∈ [dev.workDir.pathOf e]
          · rw [List.mem_singleton.mp hp] at hd
            exact he hd
          · exact hes path hpath (Board.directory_of_not_mem hp hd)
        · intro e' paths path hsub hpath hd
          rw [Board.without_cons]
          exact hdirectory e' _ path (List.cons_subset_cons _ hsub) (List.mem_cons_of_mem _ hpath)
            (Board.directory_of_without hd)
        · intro q e' paths hq hsub
          rw [Board.without_cons]
          exact hfail q e' _ hq (List.cons_subset_cons _ hsub)
      · intro e' hd
        rw [← Board.without_nil b]
        exact hdirectory e' [] _ (List.nil_subset _) List.mem_cons_self hd
      · intro q e' hq
        rw [← Board.without_nil b]
        exact hfail q e' [] hq (List.nil_subset _)

end Device

def plainDevice : Device where
  record := ⟨{}, "/proc/sys/kernel/random/boot_id"⟩
  firmware := ⟨[], [], ""⟩
  application := ⟨[], [], ""⟩
  rebootCommand := ["reboot"]
  workDir := ⟨"/w"⟩
  pollInterval := 1000

end Dualbank
