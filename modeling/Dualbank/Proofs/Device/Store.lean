import Dualbank.Proofs.Device.Calls

namespace Dualbank

open Plan Record

namespace Call

def OfRecord : Call → Prop
  | readPhase | writePhase _ | isRebooted _ | markBad .. | isBad .. => True
  | _ => False

def stores : Call → List String
  | writePhase _ => [bootIdVariable, phaseVariable]
  | markBad (.only i) s => [counter s i]
  | _ => []

end Call

def Record.variables : List String :=
  ["update_reboot_state", "update_boot_id", "BOOT_A_LEFT", "BOOT_B_LEFT", "APP_A_LEFT",
    "APP_B_LEFT"]

theorem Call.stores_subset (q : Call) : q.stores ⊆ Record.variables := by
  have hrecord : [bootIdVariable, phaseVariable] ⊆ Record.variables := by decide +kernel
  have hcounter (s : Slot) (i : Image) : [counter s i] ⊆ Record.variables := by
    cases s <;> cases i <;> decide +kernel
  cases q with
  | writePhase p => exact hrecord
  | markBad t s =>
      cases t with
      | only i => exact hcounter s i
      | both => exact List.nil_subset _
  | _ => exact List.nil_subset _

structure Store where
  last : Option (Phase × String)
  bad : Slot → Image → Bool
  bootId : String

namespace Store

def phase (s : Store) : Phase :=
  match s.last with
  | some (p, _) => p
  | none => .idle

/-- Without a recorded boot the device counts as rebooted. -/
def isRebooted (s : Store) : Bool :=
  match s.last with
  | some (_, id) => id != s.bootId
  | none => true

def record (s : Store) (p : Phase) : Store := { s with last := some (p, s.bootId) }

def markBad (s : Store) (slot : Slot) (i : Image) : Store :=
  { s with bad := fun slot' i' => (slot' = slot ∧ i' = i) || s.bad slot' i' }

def reboot (s : Store) (idFile : String) : Store := { s with bootId := Text.trim idFile }

@[simp] theorem isRebooted_record (s : Store) (p : Phase) : (s.record p).isRebooted = false :=
  bne_self_eq_false s.bootId

@[simp] theorem reboot_last (s : Store) (idFile : String) : (s.reboot idFile).last = s.last := rfl

def answer (s : Store) : (q : Call) → Option (q.Answer × Store)
  | .readPhase => some (.ok s.phase, s)
  | .writePhase p => some (.ok (), s.record p)
  | .isRebooted _ => some (.ok s.isRebooted, s)
  | .markBad (.only i) slot => some (.ok (), s.markBad slot i)
  | .isBad (.only i) slot => some (.ok (s.bad slot i), s)
  | .markBad .both _ | .isBad .both _ => some (.error (.invalidParameter .slotOfBoth), s)
  | _ => none

def rules : Rules Call.Answer Store := fun q s x s' => s.answer q = some (x, s')

theorem exists_answer_iff {s : Store} {q : Call} : (∃ x, s.answer q = some x) ↔ q.OfRecord := by
  cases q with
  | markBad t slot | isBad t slot =>
      cases t with
      | only i => exact ⟨fun _ => trivial, fun _ => ⟨_, rfl⟩⟩
      | both => exact ⟨fun _ => trivial, fun _ => ⟨_, rfl⟩⟩
  | readPhase | writePhase | isRebooted => exact ⟨fun _ => trivial, fun _ => ⟨_, rfl⟩⟩
  | _ =>
      refine ⟨?_, False.elim⟩
      rintro ⟨x, hx⟩
      cases hx

end Store

def Board.store (b : Board) : Store where
  last := none
  bad s i := (b.vars (counter s i)).any fun c => Text.trim c.value = "0"
  bootId := b.bootId

inductive Happening
  | asked (q : Call) (x : q.Answer)
  | rebooted (idFile : String)

def Happening.stores : Happening → List String
  | asked q _ => q.stores
  | rebooted _ => []

section Histories

variable {W V : Type}

/-- What may happen one after the other, if each new boot id is a word. -/
inductive History (rules : Rules Call.Answer W) (reboot : W → String → W) :
    W → List Happening → W → Prop
  | nil (w : W) : History rules reboot w [] w
  | asked {q : Call} {x : q.Answer} {w w' w'' : W} {hs : List Happening} (hx : rules q w x w')
      (h : History rules reboot w' hs w'') : History rules reboot w (.asked q x :: hs) w''
  | rebooted {idFile : String} {w w' : W} {hs : List Happening}
      (hid : Text.IsWord (Text.trim idFile)) (h : History rules reboot (reboot w idFile) hs w') :
      History rules reboot w (.rebooted idFile :: hs) w'

/-- A world that follows another one call by call and reboot by reboot has its histories. -/
theorem History.simulated {rules : Rules Call.Answer W} {rules' : Rules Call.Answer V}
    {reboot : W → String → W} {reboot' : V → String → V} {R : W → V → Prop}
    (hcall : ∀ q w x w' v, R w v → rules q w x w' → ∃ v', rules' q v x v' ∧ R w' v')
    (hreboot : ∀ idFile w v, Text.IsWord (Text.trim idFile) → R w v →
      R (reboot w idFile) (reboot' v idFile))
    {w w' : W} {v : V} {hs : List Happening} (h : History rules reboot w hs w') (hv : R w v) :
    ∃ v', History rules' reboot' v hs v' ∧ R w' v' := by
  induction h generalizing v with
  | nil w => exact ⟨v, .nil v, hv⟩
  | asked hx _ ih =>
      -- The other world answers the same and is left where the rest of the history follows.
      obtain ⟨u, hu, hr⟩ := hcall _ _ _ _ _ hv hx
      obtain ⟨v', h, hr'⟩ := ih hr
      exact ⟨v', .asked hu h, hr'⟩
  | rebooted hid _ ih =>
      obtain ⟨v', h, hr'⟩ := ih (hreboot _ _ _ hid hv)
      exact ⟨v', .rebooted hid h, hr'⟩

end Histories

def Device.recordCalls (dev : Device) : Rules Call.Answer Board :=
  fun q b x b' => q.OfRecord ∧ dev.calls Never q b x b'

structure Board.Holds (b : Board) (s : Store) : Prop where
  isWord : Text.IsWord b.bootId
  bootId : b.bootId = s.bootId
  phase : (b.vars phaseVariable).map Cell.value = s.last.map fun l => l.1.encode
  recorded : (b.vars bootIdVariable).map Cell.value = s.last.map Prod.snd
  isWord_recorded : ∀ l ∈ s.last, Text.IsWord l.2
  bad : ∀ slot i, b.isBad slot i = s.bad slot i

namespace Board

theorem value?_eq (b : Board) (name : String) :
    b.value? name = ((b.vars name).map Cell.value).map BootEnv.shown := by
  rw [value?, Option.map_map]
  rfl

namespace Holds

variable {b b' : Board} {s s' : Store} {dev : Device}

theorem phase_eq (h : b.Holds s) : b.phase = .ok s.phase := by
  rw [Board.phase, value?_eq, h.phase, Store.phase]
  cases s.last with
  | none => rfl
  | some l =>
      obtain ⟨p, id⟩ := l
      simp only [Option.map_some, BootEnv.shown_eq p.isWord_encode, Phase.read, p.decode?_encode]

theorem isRebooted_eq (h : b.Holds s) : b.isRebooted = s.isRebooted := by
  have hword := h.isWord_recorded
  rw [Board.isRebooted, value?_eq, h.recorded, h.bootId, Store.isRebooted]
  cases hl : s.last with
  | none => rfl
  | some l =>
      obtain ⟨p, id⟩ := l
      have hid : Text.IsWord id := hword (p, id) hl
      simp only [Option.map_some, BootEnv.shown_eq hid, hid.trim_eq]

theorem isBad_congr {b b' : Board} {slot : Slot} {i : Image}
    (h : b'.vars (counter slot i) = b.vars (counter slot i)) : b'.isBad slot i = b.isBad slot i := by
  rw [Board.isBad, Board.isBad, value?, value?, h]

theorem record (h : b.Holds s) (p : Phase) : (b.record p).Holds (s.record p) where
  isWord := h.isWord
  bootId := h.bootId
  phase := by rw [record_phaseVariable]; rfl
  recorded := by rw [record_bootIdVariable]; exact congrArg some h.bootId
  isWord_recorded := by
    rintro l hl
    obtain rfl := Option.some.inj hl
    exact h.bootId ▸ h.isWord
  bad slot i := by
    have hv : (b.record p).vars (counter slot i) = b.vars (counter slot i) := by
      rw [Board.record, write_vars_of_ne _ (counter_ne_phaseVariable slot i), stamp,
        write_vars_of_ne _ (counter_ne_bootIdVariable slot i)]
    exact (isBad_congr hv).trans (h.bad slot i)

theorem markBad (h : b.Holds s) (slot : Slot) (i : Image) :
    (b.write (counter slot i) slotBad).Holds (s.markBad slot i) where
  isWord := h.isWord
  bootId := h.bootId
  phase := by rw [write_vars_of_ne _ (counter_ne_phaseVariable slot i).symm]; exact h.phase
  recorded := by rw [write_vars_of_ne _ (counter_ne_bootIdVariable slot i).symm]; exact h.recorded
  isWord_recorded := h.isWord_recorded
  bad slot' i' := by
    by_cases heq : slot' = slot ∧ i' = i
    · obtain ⟨rfl, rfl⟩ := heq
      have hword : Text.IsWord slotBad := by decide +kernel
      simp only [Board.isBad, value?, write_vars_self, Option.map_some, Option.any_some,
        BootEnv.shown_eq hword, hword.trim_eq, Store.markBad, and_self, decide_true, Bool.true_or]
    · have hne : counter slot' i' ≠ counter slot i := fun hc => heq (counter_inj.mp hc)
      rw [isBad_congr (write_vars_of_ne _ hne _), h.bad slot' i']
      simp only [Store.markBad, heq, decide_false, Bool.false_or]

theorem reboot (h : b.Holds s) {idFile : String} (hid : Text.IsWord (Text.trim idFile)) :
    (b.reboot idFile).Holds (s.reboot idFile) where
  isWord := hid
  bootId := rfl
  phase := by rw [Store.reboot_last]; exact h.phase
  recorded := by rw [Store.reboot_last]; exact h.recorded
  isWord_recorded := by rw [Store.reboot_last]; exact h.isWord_recorded
  bad slot i := (isBad_congr rfl).trans (h.bad slot i)

end Holds

theorem holds_store {b : Board} (hp : b.vars phaseVariable = none)
    (hi : b.vars bootIdVariable = none)
    (hv : ∀ name c, b.vars name = some c → '\n' ∉ c.value.toList) (hid : Text.IsWord b.bootId) :
    b.Holds b.store where
  isWord := hid
  bootId := rfl
  phase := by rw [hp]; rfl
  recorded := by rw [hi]; rfl
  isWord_recorded := nofun
  bad slot i := by
    simp only [Board.isBad, value?, store]
    cases hc : b.vars (counter slot i) with
    | none => rfl
    | some c => simp only [Option.map_some, Option.any_some, BootEnv.trim_shown (hv _ c hc), slotBad]

end Board

variable {dev : Device} {b b' : Board} {s s' : Store} {q : Call} {hs : List Happening}

theorem Board.Holds.calls_iff (h : b.Holds s) {y : q.Answer} (hq : s.answer q = some (y, s')) :
    ∃ b₁ : Board, b₁.Holds s' ∧ ∀ x b', dev.calls Never q b x b' ↔ x = y ∧ b' = b₁ := by
  cases q with
  | readPhase =>
      obtain ⟨rfl, rfl⟩ := Prod.mk.inj (Option.some.inj hq)
      refine ⟨b, h, fun x b' => ?_⟩
      rw [← h.phase_eq]
      exact gives_readPhase_iff
  | writePhase p =>
      obtain ⟨rfl, rfl⟩ := Prod.mk.inj (Option.some.inj hq)
      exact ⟨b.record p, h.record p, fun x b' => gives_writePhase_iff⟩
  | isRebooted includesFirmware =>
      obtain ⟨rfl, rfl⟩ := Prod.mk.inj (Option.some.inj hq)
      refine ⟨b, h, fun x b' => ?_⟩
      rw [← h.isRebooted_eq]
      exact gives_isRebooted_iff
  | markBad t slot =>
      cases t with
      | only i =>
          obtain ⟨rfl, rfl⟩ := Prod.mk.inj (Option.some.inj hq)
          exact ⟨_, h.markBad slot i, fun x b' => gives_markBad_iff⟩
      | both =>
          obtain ⟨rfl, rfl⟩ := Prod.mk.inj (Option.some.inj hq)
          exact ⟨b, h, fun x b' => gives_markBad_both_iff⟩
  | isBad t slot =>
      cases t with
      | only i =>
          obtain ⟨rfl, rfl⟩ := Prod.mk.inj (Option.some.inj hq)
          refine ⟨b, h, fun x b' => ?_⟩
          rw [← h.bad slot i]
          exact gives_isBad_iff
      | both =>
          obtain ⟨rfl, rfl⟩ := Prod.mk.inj (Option.some.inj hq)
          exact ⟨b, h, fun x b' => gives_isBad_both_iff⟩
  | _ => cases hq

theorem Device.vars_of_recordCalls {x : q.Answer} {name : String}
    (hx : dev.recordCalls q b x b') (hn : name ∉ q.stores) : b'.vars name = b.vars name := by
  obtain ⟨hq, hx⟩ := hx
  cases q with
  | readPhase => rw [(gives_readPhase_iff.mp hx).2]
  | writePhase p =>
      obtain ⟨hid, hphase⟩ := not_or.mp (mt List.mem_cons.mpr hn)
      rw [(gives_writePhase_iff.mp hx).2, Board.record, Board.stamp,
        Board.write_vars_of_ne _ (mt List.mem_singleton.mpr hphase), Board.write_vars_of_ne _ hid]
  | isRebooted => rw [(gives_isRebooted_iff.mp hx).2]
  | markBad t slot =>
      cases t with
      | only i =>
          rw [(gives_markBad_iff.mp hx).2, Board.write_vars_of_ne _ (mt List.mem_singleton.mpr hn)]
      | both => rw [(gives_markBad_both_iff.mp hx).2]
  | isBad t slot =>
      cases t with
      | only i => rw [(gives_isBad_iff.mp hx).2]
      | both => rw [(gives_isBad_both_iff.mp hx).2]
  | _ => exact hq.elim

theorem History.vars {name : String} (h : History dev.recordCalls Board.reboot b hs b')
    (hn : ∀ e ∈ hs, name ∉ e.stores) : b'.vars name = b.vars name := by
  induction h with
  | nil => rfl
  | asked hx _ ih =>
      obtain ⟨hhead, hrest⟩ := List.forall_mem_cons.mp hn
      exact (ih hrest).trans (Device.vars_of_recordCalls hx hhead)
  | rebooted _ _ ih => exact ih (List.forall_mem_cons.mp hn).2

/-- On a device with an empty record, all variables of which are one line, the calls of the record
and reboots with new boot ids have exactly the histories of the store that starts without a phase,
with the slots bad whose counter reads 0. A variable that changes is one of the record's, and some
call of the history stores it. -/
theorem record_refines_store (dev : Device) {b : Board} (hp : b.vars phaseVariable = none)
    (hi : b.vars bootIdVariable = none)
    (hv : ∀ name c, b.vars name = some c → '\n' ∉ c.value.toList) (hid : Text.IsWord b.bootId) :
    (∀ hs, (∃ b', History dev.recordCalls Board.reboot b hs b') ↔
      ∃ s, History Store.rules Store.reboot b.store hs s) ∧
    ∀ hs b', History dev.recordCalls Board.reboot b hs b' →
      ∀ name, b'.vars name ≠ b.vars name →
        name ∈ Record.variables ∧ ∃ e ∈ hs, name ∈ e.stores := by
  have hstore := Board.holds_store hp hi hv hid
  have hfrom : ∀ q b x b' s, Board.Holds b s → dev.recordCalls q b x b' →
      ∃ s', Store.rules q s x s' ∧ Board.Holds b' s' := by
    rintro q b x b' s hb ⟨hq, hx⟩
    obtain ⟨⟨y, s'⟩, hy⟩ := Store.exists_answer_iff.mpr hq
    obtain ⟨b₁, hb₁, hiff⟩ := hb.calls_iff hy
    obtain ⟨rfl, rfl⟩ := (hiff x b').mp hx
    exact ⟨s', hy, hb₁⟩
  have hto : ∀ q s x s' b, Board.Holds b s → Store.rules q s x s' →
      ∃ b', dev.recordCalls q b x b' ∧ Board.Holds b' s' := by
    intro q s x s' b hb hx
    obtain ⟨b', hb', hiff⟩ := hb.calls_iff hx
    exact ⟨b', ⟨Store.exists_answer_iff.mp ⟨_, hx⟩, (hiff x b').mpr ⟨rfl, rfl⟩⟩, hb'⟩
  have hreboot : ∀ idFile b s, Text.IsWord (Text.trim idFile) → Board.Holds b s →
      (b.reboot idFile).Holds (s.reboot idFile) := fun _ _ _ hid h => h.reboot hid
  have hreboot' : ∀ idFile s b, Text.IsWord (Text.trim idFile) → Board.Holds b s →
      (b.reboot idFile).Holds (s.reboot idFile) := fun _ _ _ hid h => h.reboot hid
  refine ⟨fun hs => ⟨?_, ?_⟩, ?_⟩
  · rintro ⟨b', h⟩
    obtain ⟨s, hs, -⟩ := History.simulated hfrom hreboot h hstore
    exact ⟨s, hs⟩
  · rintro ⟨s, h⟩
    obtain ⟨b', hs, -⟩ := History.simulated hto hreboot' h hstore
    exact ⟨b', hs⟩
  · intro hs b' h name hne
    have hmem : ∃ e ∈ hs, name ∈ e.stores := by
      refine Classical.byContradiction fun hno => hne (h.vars fun e he hs => hno ⟨e, he, hs⟩)
    obtain ⟨e, he, hs⟩ := hmem
    refine ⟨?_, e, he, hs⟩
    cases e with
    | asked q x => exact q.stores_subset hs
    | rebooted idFile => cases hs

theorem record_refines_store_aged :
    ∃ b : Board, b.vars "APP_B_LEFT" = some ⟨" 0", 0⟩ ∧
      ∃ b', History plainDevice.recordCalls Board.reboot b
        [.asked (.isRebooted true) (.ok true), .asked (.writePhase (.written .both)) (.ok ()),
          .asked (.isRebooted true) (.ok false), .rebooted "second\n",
          .asked (.isRebooted true) (.ok true), .asked .readPhase (.ok (.written .both)),
          .asked (.isBad .application .b) (.ok true),
          .asked (.markBad .both .a) (.error (.invalidParameter .slotOfBoth))] b' := by
  let vars : String → Option Cell := fun name =>
    if name = "APP_B_LEFT" then some ⟨" 0", 0⟩ else none
  let b : Board := ⟨vars, fun _ => .absent, 0, "first\n"⟩
  have hcounter : vars "APP_B_LEFT" = some ⟨" 0", 0⟩ := if_pos rfl
  have hv : ∀ name c, b.vars name = some c → '\n' ∉ c.value.toList := by
    intro name c hc
    obtain ⟨-, hc⟩ := Option.ite_none_right_eq_some.mp hc
    obtain rfl := Option.some.inj hc
    decide
  have hid : Text.IsWord b.bootId := by decide +kernel
  have hword : Text.IsWord (Text.trim "second\n") := by decide +kernel
  obtain ⟨hiff, -⟩ := record_refines_store plainDevice (b := b) rfl rfl hv hid
  let s₁ := b.store.record (.written .both)
  let s₂ := s₁.reboot "second\n"
  have hfresh : Store.rules (.isRebooted true) b.store (.ok true) b.store := rfl
  have hwrite : Store.rules (.writePhase (.written .both)) b.store (.ok ()) s₁ := rfl
  have hpending : Store.rules (.isRebooted true) s₁ (.ok s₁.isRebooted) s₁ := rfl
  have hrebooted : Store.rules (.isRebooted true) s₂ (.ok s₂.isRebooted) s₂ := rfl
  have hread : Store.rules .readPhase s₂ (.ok (.written .both)) s₂ := rfl
  have hbad : Store.rules (.isBad .application .b) s₂ (.ok (s₂.bad .b .application)) s₂ := rfl
  have hboth : Store.rules (.markBad .both .a) s₂ (.error (.invalidParameter .slotOfBoth)) s₂ := rfl
  rw [show s₁.isRebooted = false from Store.isRebooted_record ..] at hpending
  rw [show s₂.isRebooted = true by decide +kernel] at hrebooted
  rw [show s₂.bad .b .application = true by decide +kernel] at hbad
  refine ⟨b, hcounter, (hiff _).mpr ⟨s₂, ?_⟩⟩
  exact .asked hfresh (.asked hwrite (.asked hpending (.rebooted hword (.asked hrebooted
    (.asked hread (.asked hbad (.asked hboth (.nil _))))))))

end Dualbank
