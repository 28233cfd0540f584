import Dualbank.Proofs.Footprint
import Mathlib.Data.List.Basic

namespace Dualbank

open Plan Routine

abbrev Listing := Entry → Bool

def Listing.without (l : Listing) (es : List Entry) : Listing := fun e => l e && e ∉ es

namespace Call

/-- Entries come and go by the calls alone. A call that fails may have done its work all the same;
what is not about entries is answered freely. -/
def listed : Rules Answer Listing
  | has m, l, x, l' => l' = l ∧ ∀ b, x = .ok b → l (.marker m) = b
  | create m, l, x, l' => l' = Function.update l (.marker m) true ∨ l' = l ∧ ∃ e, x = .error e
  | remove e, l, x, l' => l' = l.without [e] ∨ l' = l ∧ ∃ c, x = .error c ∧ ¬c.isNotFound
  | _, l, _, l' => l' = l

end Call

open Call (listed)

/-- A clearing of the directory may stop there, be it cut or at an end of its own. -/
def StopsAt (d : WorkDir) (l l' : Listing) : Prop := ∃ es p, Steps listed d.clear.run l es p l'

def MayReboot (d : WorkDir) (l : Listing) : Prop :=
  ∃ es p l', Steps listed (Staging.apply d).run l es p l' ∧ ∃ e ∈ es, e.question = .reboot

variable {d : WorkDir} {l l' : Listing} {ok : Event Call.Answer Listing → Prop}

namespace Listing

@[simp] theorem without_nil (l : Listing) : l.without [] = l := by
  funext e
  simp [without]

theorem without_cons (l : Listing) (e : Entry) (es : List Entry) :
    (l.without [e]).without es = l.without (e :: es) := by
  funext e'
  simp [without, Bool.and_assoc]

theorem without_eq_true {es : List Entry} {e : Entry} :
    l.without es e = true ↔ l e = true ∧ e ∉ es := by
  simp [without]

theorem without_eq_false {es : List Entry} {e : Entry} :
    l.without es e = false ↔ (l e = true → e ∈ es) := by
  cases h : l e <;> simp [without, h]

end Listing

namespace WorkDir

theorem sureOr_remove {e : Entry} {post : Unit → Listing → Prop} {fail : Error → Listing → Prop}
    (hkept : ∀ x, ok ⟨.remove e, x, l, l⟩) (hgone : ∀ x, ok ⟨.remove e, x, l, l.without [e]⟩)
    (hpost : post () (l.without [e])) (hfail : ∀ c, fail c l) (hfail' : ∀ c, fail c (l.without [e])) :
    SureOr listed ok (d.remove e) l post fail := by
  apply sureOr_ask_bind.mpr
  rintro x l' (rfl | ⟨rfl, c, rfl, hc⟩)
  · refine ⟨hgone x, ?_⟩
    cases x with
    | ok u => exact hpost
    | error c =>
        dsimp only
        split
        · exact hpost
        · exact hfail' _
  · refine ⟨hkept _, ?_⟩
    dsimp only
    rw [if_neg hc]
    exact hfail _

/-- At any time, the entries that are gone are the first ones of the list. -/
theorem sureOr_forM_remove (es : List Entry) :
    SureOr listed (fun e => ∃ n, e.after = l.without (es.take n)) (es.forM d.remove) l
      (fun _ _ => True) fun _ _ => True := by
  induction es generalizing l with
  | nil => exact trivial
  | cons e es ih =>
      have hremove : SureOr listed (fun e' => ∃ n, e'.after = l.without ((e :: es).take n))
          (d.remove e) l (fun _ l' => l' = l.without [e]) fun _ _ => True :=
        sureOr_remove (fun _ => ⟨0, l.without_nil.symm⟩) (fun _ => ⟨1, rfl⟩) rfl (fun _ => trivial)
          fun _ => trivial
      refine hremove.bind ?_
      rintro u _ rfl
      -- A stop of the rest is a stop of the whole, one entry further on.
      refine Sure.mono_events ih ?_
      rintro e' ⟨n, hn⟩
      exact ⟨n + 1, hn.trans (l.without_cons e _)⟩

theorem exists_steps_forM_remove (es : List Entry) (n : Nat) :
    ∃ evs p, Steps listed (es.forM d.remove).run l evs p (l.without (es.take n)) := by
  induction es generalizing l n with
  | nil => exact ⟨[], _, by simpa using .refl _ l⟩
  | cons e es ih =>
      cases n with
      | zero => exact ⟨[], _, by simpa using .refl _ l⟩
      | succ n =>
          have hremove : listed (.remove e) l (.ok ()) (l.without [e]) := .inl rfl
          obtain ⟨evs, p, hs⟩ := ih (l := l.without [e]) n
          rw [l.without_cons] at hs
          exact ⟨_, p, .ask hremove hs⟩

theorem stopsAt_iff : StopsAt d l l' ↔ ∃ n, l' = l.without (Entry.all.take n) := by
  constructor
  · rintro ⟨es, p, hs⟩
    exact Sure.world (I := fun l' => ∃ n, l' = l.without (Entry.all.take n))
      (sureOr_forM_remove Entry.all) hs ⟨0, l.without_nil.symm⟩
  · rintro ⟨n, rfl⟩
    exact exists_steps_forM_remove Entry.all n

end WorkDir

namespace Staging

variable {α : Type} {m : Marker}

theorem sureOr_has_bind {f : Bool → Routine α} {post : α → Listing → Prop}
    {fail : Error → Listing → Prop} (hok : ∀ x, ok ⟨.has m, x, l, l⟩)
    (hf : SureOr listed ok (f (l (.marker m))) l post fail) (hfail : ∀ e, fail e l) :
    SureOr listed ok (d.has m >>= f) l post fail := by
  apply sureOr_bind.mpr
  apply sureOr_ask_bind.mpr
  rintro x l' ⟨rfl, hx⟩
  refine ⟨hok x, ?_⟩
  cases x with
  | ok b =>
      rw [hx b rfl] at hf
      exact hf
  | error e => exact hfail _

theorem sureOr_request {post : ApplyOutcome → Listing → Prop} {fail : Error → Listing → Prop}
    (hok : ∀ x l', ok ⟨.create .apply, x, l, l'⟩) (hpost : ∀ o l', post o l') :
    SureOr listed ok apply.request l post fail := by
  apply sureOr_bind.mpr
  apply sureOr_ask_bind.mpr
  intro x l' _
  refine ⟨hok x l', ?_⟩
  cases x with
  | ok u => exact hpost _ _
  | error e =>
      dsimp only
      split
      · exact hpost _ _
      · exact hpost _ _

/-- Without a rollback, the device reboots for a package that is installed and did not come over the
network. -/
theorem mayReboot_iff (hr : l (.marker .rollback) = false) : MayReboot d l ↔
    l (.marker .installed) = true ∧ l (.marker .download) = false ∧
      l (.marker .apply) = false := by
  constructor
  · rintro ⟨es, p, l', hs, e, he, hq⟩
    have happly : SureOr listed (fun e => e.question = .reboot →
        l (.marker .installed) = true ∧ l (.marker .download) = false ∧
          l (.marker .apply) = false) (apply d) l (fun _ _ => True) fun _ _ => True := by
      rw [apply_eq]
      refine sureOr_has_bind (fun _ => nofun) ?_ fun _ => trivial
      rw [hr]
      refine sureOr_has_bind (fun _ => nofun) ?_ fun _ => trivial
      cases hi : l (.marker .installed) with
      | false => exact trivial
      | true =>
          refine sureOr_has_bind (fun _ => nofun) ?_ fun _ => trivial
          cases ha : l (.marker .apply) with
          | true => exact sureOr_request (fun _ _ => nofun) fun _ _ => trivial
          | false =>
              refine sureOr_has_bind (fun _ => nofun) ?_ fun _ => trivial
              cases hd : l (.marker .download) with
              | true => exact sureOr_request (fun _ _ => nofun) fun _ _ => trivial
              | false =>
                  apply sureOr_ask_bind.mpr
                  intro x l' _
                  refine ⟨fun _ => ⟨rfl, rfl, rfl⟩, ?_⟩
                  cases x with
                  | ok u => exact trivial
                  | error e => exact trivial
    exact (Sure.steps happly hs).1 e he hq
  · rintro ⟨hi, hd, ha⟩
    have hhas {m : Marker} {b : Bool} (h : l (.marker m) = b) : listed (.has m) l (.ok b) l :=
      ⟨rfl, fun _ hb => h.trans (Except.ok.inj hb)⟩
    have hreboot : listed .reboot l (.ok ()) l := rfl
    have happly : Steps listed (apply d).run l _ _ l :=
      .ask (hhas hr) (.ask (hhas hi) (.ask (hhas ha) (.ask (hhas hd) (.ask hreboot (.refl _ _)))))
    exact ⟨_, _, l, happly, ⟨.reboot, .ok (), l, l⟩, by simp, rfl⟩

/-- A directory with a package and without a rollback is cleared. The clearing may stop after any
number of entries and nowhere else; an activation then reboots the device exactly if the package is
still marked as installed and no longer as one from the network. -/
theorem reboots_after_clear_iff (d : WorkDir) (hr : l (.marker .rollback) = false) :
    (∀ l', StopsAt d l l' ↔ ∃ n, l' = l.without (Entry.all.take n)) ∧
      ∀ n, MayReboot d (l.without (Entry.all.take n)) ↔
        l (.marker .installed) = true ∧ n ≤ 4 ∧ (l (.marker .download) = true → 0 < n) ∧
          (l (.marker .apply) = true → 2 < n) := by
  refine ⟨fun _ => WorkDir.stopsAt_iff, fun n => ?_⟩
  have hr' : l.without (Entry.all.take n) (.marker .rollback) = false := by
    simp [Listing.without, hr]
  have hi : Entry.marker .installed ∈ Entry.all.take n ↔ 4 < n :=
    List.mem_take_iff_idxOf_lt (Entry.mem_all _)
  have hd : Entry.marker .download ∈ Entry.all.take n ↔ 0 < n :=
    List.mem_take_iff_idxOf_lt (Entry.mem_all _)
  have ha : Entry.marker .apply ∈ Entry.all.take n ↔ 2 < n :=
    List.mem_take_iff_idxOf_lt (Entry.mem_all _)
  rw [mayReboot_iff hr', Listing.without_eq_true, Listing.without_eq_false,
    Listing.without_eq_false, hi, hd, ha, and_assoc, Nat.not_lt]

theorem not_rebooted_while_requested :
    StopsAt ⟨"/data"⟩ (fun e => e ≠ .marker .rollback)
        (Listing.without (fun e => e ≠ .marker .rollback) (Entry.all.take 2)) ∧
      ¬MayReboot ⟨"/data"⟩
        (Listing.without (fun e => e ≠ .marker .rollback) (Entry.all.take 2)) := by
  obtain ⟨hstops, hreboots⟩ := reboots_after_clear_iff (l := fun e => e ≠ .marker .rollback)
    ⟨"/data"⟩ (by decide)
  refine ⟨(hstops _).mpr ⟨2, rfl⟩, fun h => ?_⟩
  exact absurd (((hreboots 2).mp h).2.2.2 (by decide)) (by decide)

/-- The marker of the download is removed, that of the installation is not: the activation reboots
the device. -/
theorem rebooted_after_half_clear :
    ¬∀ l l' : Listing, l (.marker .rollback) = false →
      l (.marker .download) = true ∨ l (.marker .apply) = true →
      StopsAt ⟨"/data"⟩ l l' → ¬MayReboot ⟨"/data"⟩ l' := by
  intro h
  let l : Listing := fun e => e = .marker .download ∨ e = .marker .installed
  refine h l _ (by decide) (by decide) (WorkDir.stopsAt_iff.mpr ⟨1, rfl⟩) ?_
  exact (mayReboot_iff (by decide)).mpr ⟨by decide, by decide, by decide⟩

end Staging

end Dualbank
