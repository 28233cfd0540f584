import Dualbank.Program
import Dualbank.Proofs.Exit.Session
import Dualbank.Proofs.Path

namespace Dualbank

open Dualbank.Path

def Offer.package? (o : Offer) : Image → Option Package
  | .firmware => o.firmware
  | .application => o.application

theorem Image.forall_iff {P : Image → Prop} : (∀ i, P i) ↔ P .firmware ∧ P .application := by
  constructor
  · intro h
    exact ⟨h _, h _⟩
  · rintro ⟨hf, ha⟩ i
    cases i
    · exact hf
    · exact ha

theorem Offer.target?_eq_some_iff {o : Offer} {t : Target} :
    o.target? = some t ↔ ∀ i, i ∈ t.images ↔ (o.package? i).isSome := by
  rw [Image.forall_iff]
  obtain ⟨_ | f, _ | a⟩ := o <;> rcases t with (_ | _) | _ <;>
    simp [target?, package?, Target.images]

theorem Offer.target?_eq_none_iff {o : Offer} : o.target? = none ↔ ∀ i, o.package? i = none := by
  rw [Image.forall_iff]
  obtain ⟨_ | f, _ | a⟩ := o <;> simp [target?, package?]

namespace CommandLine

namespace Stick

variable {s : Stick} {i : Image}

def file? (s : Stick) : Image → Option String
  | .firmware => s.firmwareFile
  | .application => s.applicationFile

def version? (s : Stick) : Image → Option Version
  | .firmware => s.firmwareVersion
  | .application => s.applicationVersion

/-- The path has the components of the mount point, and then those of the file. What comes first,
the root or a dot, is told by the mount point, or by the file if there is nothing before it. -/
structure Leads (mount file path : String) : Prop where
  isAbsolute_eq : isAbsolute path = isAbsolute mount
  components_eq : (components path).2 = (components mount).2 ++ (components file).2
  startsHere_eq : startsHere path = if mount = "" then startsHere file else startsHere mount

theorem leads_join (mount file : String) : Leads mount file (join mount (relative file)) where
  isAbsolute_eq := isAbsolute_join (isAbsolute_relative file)
  components_eq := by rw [components_join (isAbsolute_relative file), components_relative]
  startsHere_eq := by rw [startsHere_join (isAbsolute_relative file), startsHere_relative]

theorem offer_package? (s : Stick) (i : Image) :
    s.offer.package? i = s.package? (s.file? i) (s.version? i) := by
  cases i <;> rfl

theorem package?_eq_some_iff {p : Package} : s.offer.package? i = some p ↔ ∃ f v,
    s.file? i = some f ∧ s.version? i = some v ∧ p = ⟨join s.mount (relative f), some v⟩ := by
  rw [offer_package?]
  cases s.file? i <;> cases s.version? i <;> simp [package?, eq_comm]

theorem package?_isSome_iff :
    (s.offer.package? i).isSome ↔ (s.file? i).isSome ∧ (s.version? i).isSome := by
  rw [offer_package?]
  cases s.file? i <;> cases s.version? i <;> simp [package?]

theorem runCommand_of_none (ht : s.offer.target? = none) (settings : Settings) :
    Program.runCommand settings (.automatic s) =
      Program.giveUp (Abort.noPackageOnStick s.mount).message none := by
  rw [Program.runCommand, Command.run_automatic_of_none ht]
  rfl

/-- A stick offers a package for an image just if the file and the version of it are given. The
package has that version, and its path leads to that file below the mount point. What is updated are
the images with packages; with none of them the command fails at once. -/
theorem packages_stay_on_stick (s : Stick) :
    (∀ i, (s.offer.package? i).isSome ↔ (s.file? i).isSome ∧ (s.version? i).isSome) ∧
    (∀ i p, s.offer.package? i = some p → ∃ f v, s.file? i = some f ∧ s.version? i = some v ∧
      p.version = some v ∧ Leads s.mount f p.path) ∧
    (∀ t, s.offer.target? = some t ↔ ∀ i, i ∈ t.images ↔ (s.offer.package? i).isSome) ∧
    (s.offer.target? = none ↔ ∀ i, s.offer.package? i = none) ∧
    (s.offer.target? = none →
      (∀ d n, ((Command.automatic s).run d n).run = .done (.error (.noPackageOnStick s.mount))) ∧
      ∀ settings, Program.runCommand settings (.automatic s) =
        Program.giveUp (Abort.noPackageOnStick s.mount).message none) := by
  refine ⟨fun i => package?_isSome_iff, fun i p hp => ?_, fun t => Offer.target?_eq_some_iff,
    Offer.target?_eq_none_iff, fun ht => ⟨fun d n => ?_, runCommand_of_none ht⟩⟩
  · obtain ⟨f, v, hf, hv, rfl⟩ := package?_eq_some_iff.mp hp
    exact ⟨f, v, hf, hv, rfl, leads_join s.mount f⟩
  · rw [Command.run_automatic_of_none ht]
    rfl

example : offer ⟨"/media/stick//", some "//fw/./../image", some ⟨2⟩, some "app", none⟩ =
    ⟨some ⟨"/media/stick//fw/./../image", some ⟨2⟩⟩, none⟩ := by
  decide +kernel

end Stick

end CommandLine

end Dualbank
