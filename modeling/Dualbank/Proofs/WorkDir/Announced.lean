import Dualbank.Proofs.Progress.Download
import Dualbank.Proofs.Text.Names
import Dualbank.Proofs.Text.Numeral
import Dualbank.Proofs.Text.Utf8

namespace Dualbank

open Plan Routine Text
open MonadExcept (ofExcept)

inductive Contents
  | absent
  | unreadable (e : OsError) (h : ¬e.isNotFound)
  | bytes (bs : Bytes)

namespace Contents

def answer : Contents → Except OsError String
  | absent => .error (.number Errno.noEntry)
  | unreadable e _ => .error e
  | bytes bs => (decode? bs).elim (.error .notText) .ok

inductive Fails : Contents → OsError → Prop
  | unreadable (e : OsError) (h : ¬e.isNotFound) : Fails (unreadable e h) e
  | notText {bs : Bytes} (h : ∀ s, bs ≠ encode s) : Fails (bytes bs) .notText

def Sound (c : Contents) : Prop := ∀ e, ¬c.Fails e

theorem Sound.cases {c : Contents} (h : c.Sound) : c = absent ∨ ∃ s, c = bytes (encode s) := by
  cases c with
  | absent => exact .inl rfl
  | unreadable e he => exact absurd (.unreadable e he) (h e)
  | bytes bs =>
      by_cases hs : ∃ s, bs = encode s
      · obtain ⟨s, rfl⟩ := hs
        exact .inr ⟨s, rfl⟩
      · exact absurd (.notText fun s hbs => hs ⟨s, hbs⟩) (h .notText)

theorem answer_encode (s : String) : (bytes (encode s)).answer = .ok s := by
  rw [answer, decode?_eq_some_iff.mpr rfl]
  rfl

theorem Fails.answer {c : Contents} {e : OsError} (h : c.Fails e) :
    c.answer = .error e ∧ ¬e.isNotFound := by
  cases h with
  | unreadable e he => exact ⟨rfl, he⟩
  | notText hs =>
      rename_i bs
      have hnone : decode? bs = none := by
        cases hd : decode? bs with
        | none => rfl
        | some s => exact absurd (decode?_eq_some_iff.mp hd) (hs s)
      refine ⟨?_, by decide⟩
      rw [Contents.answer, hnone]
      rfl

end Contents

variable {W : Type} {d : WorkDir} {files : Descriptor → Contents}
  {others : (q : Call) → StateM W q.Answer} {f : Descriptor} {e : OsError} {s t v n : String}
  {l : Option String} {a : Announcement} {c : Contents}

/-- The descriptor files are what they are; all other calls are answered in any way. -/
def withFiles (files : Descriptor → Contents) (others : (q : Call) → StateM W q.Answer) :
    (q : Call) → StateM W q.Answer
  | .read f => pure (files f).answer
  | q => others q

inductive Located (d : WorkDir) : Contents → Option String → Prop
  | absent : Located d .absent none
  | blank {s : String} (h : trim s = "") : Located d (.bytes (encode s)) none
  | absolute {s : String} (h : Path.isAbsolute (trim s)) :
      Located d (.bytes (encode s)) (some (trim s))
  | relative {s : String} (h : trim s ≠ "") (hr : ¬Path.isAbsolute (trim s)) :
      Located d (.bytes (encode s)) (some (Path.join d.path (trim s)))

/-- The texts of the type, the version and the size are well-formed, and the announcement says the
same. -/
structure Describes (d : WorkDir) (location : Contents) (t v n : String) (a : Announcement) :
    Prop where
  target : ∃ w ∈ a.target.words, sameIgnoringAsciiCase w (trim t)
  version : IsNumeral (trim v).toList a.version.number ∧ a.version.number ≤ maxU64
  size : IsNumeral (trim n).toList a.size ∧ a.size ≤ maxU64
  source : Located d location a.source

namespace Staging

theorem read_always (files : Descriptor → Contents) (others : (q : Call) → StateM W q.Answer)
    (f : Descriptor) : Always (withFiles files others) (.read f) (files f).answer := fun _ => rfl

theorem read_yields_failed (h : (files f).Fails e) : Yields (withFiles files others) (d.read f).run
    (.error (.io (.reading (d.pathOf (.descriptor f))) e)) := by
  obtain ⟨hanswer, he⟩ := h.answer
  have halways := read_always files others f
  rw [hanswer] at halways
  refine Yields.ask_bind halways ?_
  dsimp only
  rw [if_neg he]
  exact yields_done _

theorem read_yields_absent (h : files f = .absent) :
    Yields (withFiles files others) (d.read f).run (.ok none) := by
  have halways := read_always files others f
  rw [h] at halways
  refine read_yields halways fun e he => ?_
  cases he
  rfl

theorem read_yields_text (h : files f = .bytes (encode s)) :
    Yields (withFiles files others) (d.read f).run (.ok (some (trim s))) := by
  have halways := read_always files others f
  rw [h, Contents.answer_encode] at halways
  exact read_yields halways nofun

theorem exists_read_yields (d : WorkDir) (others : (q : Call) → StateM W q.Answer)
    (h : (files f).Sound) : ∃ o, (o = none ↔ files f = .absent) ∧
    Yields (withFiles files others) (d.read f).run (.ok o) := by
  rcases h.cases with habsent | ⟨s, htext⟩
  · exact ⟨none, by simp [habsent], read_yields_absent habsent⟩
  · exact ⟨some (trim s), by simp [htext], read_yields_text htext⟩

end Staging

theorem located_absent_iff : Located d .absent l ↔ l = none := by
  constructor
  · intro h
    cases h
    rfl
  · rintro rfl
    exact .absent

theorem located_text_iff : Located d (.bytes (encode s)) l ↔
    l = if (trim s).isEmpty then none else some (Path.join d.path (trim s)) := by
  constructor
  · intro h
    generalize hc : Contents.bytes (encode s) = c at h
    cases h with
    | absent => cases hc
    | blank hs =>
        obtain rfl := encode_injective (Contents.bytes.inj hc)
        simp [hs]
    | absolute ha =>
        obtain rfl := encode_injective (Contents.bytes.inj hc)
        have hs : trim s ≠ "" := fun hs => by simp [hs, Path.isAbsolute] at ha
        simp [hs, Path.join, ha]
    | relative hs hr =>
        obtain rfl := encode_injective (Contents.bytes.inj hc)
        simp [hs]
  · intro h
    rw [h]
    by_cases hs : trim s = ""
    · simpa [hs] using Located.blank hs
    · by_cases ha : Path.isAbsolute (trim s)
      · simpa [hs, Path.join, ha] using Located.absolute ha
      · simpa [hs] using Located.relative hs ha

theorem not_located_of_fails (h : c.Fails e) : ¬Located d c l := by
  intro hl
  cases h with
  | unreadable => cases hl
  | notText hs => cases hl <;> exact hs _ rfl

namespace Staging

theorem location_yields_failed (h : (files .location).Fails e) :
    Yields (withFiles files others) d.location.run
      (.error (.io (.reading (d.pathOf (.descriptor .location))) e)) :=
  (read_yields_failed h).bind_error

theorem exists_location_yields (d : WorkDir) (others : (q : Call) → StateM W q.Answer)
    (h : (files .location).Sound) :
    ∃ l, (∀ l', Located d (files .location) l' ↔ l' = l) ∧
      Yields (withFiles files others) d.location.run (.ok l) := by
  rcases h.cases with habsent | ⟨s, htext⟩
  · refine ⟨none, fun l' => ?_, (read_yields_absent habsent).bind_ok (yields_done _)⟩
    rw [habsent]
    exact located_absent_iff
  · have halways := read_always files others .location
    rw [htext, Contents.answer_encode] at halways
    have hyields := location_yields (d := d) halways nofun
    rw [Except.toOption, Option.map_some, Option.bind_some] at hyields
    refine ⟨_, fun l' => ?_, hyields⟩
    rw [htext]
    exact located_text_iff

theorem ofTexts_eq_ok_iff {g : Option String → Announcement} :
    Announcement.ofTexts t v n = .ok g ↔ ∃ target version size,
      Target.ofDescriptor? t = some target ∧ Version.read v = .ok version ∧
        readNat maxU64 n.toList = .ok size ∧ g = fun source => ⟨target, version, size, source⟩ := by
  unfold Announcement.ofTexts
  cases Target.ofDescriptor? t with
  | none =>
      refine iff_of_false (fun h => by cases h) ?_
      rintro ⟨_, _, _, h, -⟩
      cases h
  | some target =>
      cases Version.read v with
      | error e =>
          refine iff_of_false (fun h => by cases h) ?_
          rintro ⟨_, _, _, -, h, -⟩
          cases h
      | ok version =>
          cases readNat maxU64 n.toList with
          | error e =>
              refine iff_of_false (fun h => by cases h) ?_
              rintro ⟨_, _, _, -, -, h, -⟩
              cases h
          | ok size =>
              constructor
              · intro h
                exact ⟨target, version, size, rfl, rfl, rfl, (Except.ok.inj h).symm⟩
              · rintro ⟨_, _, _, ⟨⟩, ⟨⟩, ⟨⟩, rfl⟩
                rfl

theorem version_read_eq_ok_iff {version : Version} : Version.read (trim v) = .ok version ↔
    IsNumeral (trim v).toList version.number ∧ version.number ≤ maxU64 := by
  rw [Version.read, trim_trim, ← readNat_eq_ok_iff]
  cases readNat maxU64 (trim v).toList with
  | error e => exact iff_of_false (fun h => by cases h) fun h => by cases h
  | ok m =>
      constructor
      · intro h
        obtain rfl := Except.ok.inj h
        rfl
      · intro h
        obtain rfl := Except.ok.inj h
        rfl

/-- The texts are read one by one, and none of them is read in part. -/
theorem describes_iff : Describes d c t v n a ↔
    ∃ g l, Announcement.ofTexts (trim t) (trim v) (trim n) = .ok g ∧ Located d c l ∧ a = g l := by
  simp only [ofTexts_eq_ok_iff, Target.ofDescriptor?_eq_some_iff, trim_trim,
    version_read_eq_ok_iff, readNat_eq_ok_iff]
  constructor
  · rintro ⟨htarget, hversion, hsize, hsource⟩
    exact ⟨_, _, ⟨_, _, _, htarget, hversion, hsize, rfl⟩, hsource, rfl⟩
  · rintro ⟨_, l, ⟨target, version, size, htarget, hversion, hsize, rfl⟩, hsource, rfl⟩
    exact ⟨htarget, hversion, hsize, hsource⟩

def required : List Descriptor := [.type, .version, .size]

theorem announced_yields_failed (d : WorkDir) (others : (q : Call) → StateM W q.Answer)
    (h : ∃ f ∈ required, ∃ e, (files f).Fails e) :
    ∃ before f after e, required = before ++ f :: after ∧ (∀ f' ∈ before, (files f').Sound) ∧
      (files f).Fails e ∧ Yields (withFiles files others) (announced d).run
        (.error (.io (.reading (d.pathOf (.descriptor f))) e)) := by
  by_cases htype : (files .type).Sound
  case neg =>
    obtain ⟨e, he⟩ := not_forall_not.mp htype
    exact ⟨[], _, _, e, rfl, by simp, he, (read_yields_failed he).bind_error⟩
  obtain ⟨type, -, hreadType⟩ := exists_read_yields d others htype
  by_cases hversion : (files .version).Sound
  case neg =>
    obtain ⟨e, he⟩ := not_forall_not.mp hversion
    exact ⟨[.type], _, _, e, rfl, by simpa using htype, he,
      hreadType.bind_ok (read_yields_failed he).bind_error⟩
  obtain ⟨version, -, hreadVersion⟩ := exists_read_yields d others hversion
  by_cases hsize : (files .size).Sound
  case neg =>
    obtain ⟨e, he⟩ := not_forall_not.mp hsize
    exact ⟨[.type, .version], _, _, e, rfl, by simpa using ⟨htype, hversion⟩, he,
      hreadType.bind_ok (hreadVersion.bind_ok (read_yields_failed he).bind_error)⟩
  obtain ⟨f, hf, e, he⟩ := h
  simp only [required, List.mem_cons, List.not_mem_nil, or_false] at hf
  rcases hf with rfl | rfl | rfl
  · exact absurd he (htype e)
  · exact absurd he (hversion e)
  · exact absurd he (hsize e)

theorem announced_yields_incomplete (hsound : ∀ f ∈ required, (files f).Sound)
    (h : ∃ f ∈ required, files f = .absent) :
    Yields (withFiles files others) (announced d).run (.ok none) := by
  obtain ⟨type, htype, hreadType⟩ :=
    exists_read_yields d others (hsound .type (by simp [required]))
  obtain ⟨version, hversion, hreadVersion⟩ :=
    exists_read_yields d others (hsound .version (by simp [required]))
  obtain ⟨size, hsize, hreadSize⟩ :=
    exists_read_yields d others (hsound .size (by simp [required]))
  refine hreadType.bind_ok (hreadVersion.bind_ok (hreadSize.bind_ok ?_))
  simp only [required, List.mem_cons, List.not_mem_nil, or_false, exists_eq_or_imp,
    exists_eq_left, ← htype, ← hversion, ← hsize] at h
  split
  case h_1 => simp at h
  case h_2 => exact yields_done _

section Texts

variable (ht : files .type = .bytes (encode t)) (hv : files .version = .bytes (encode v))
  (hn : files .size = .bytes (encode n))
include ht hv hn

theorem announced_yields_malformed {e : Error}
    (h : Announcement.ofTexts (trim t) (trim v) (trim n) = .error e) :
    Yields (withFiles files others) (announced d).run (.error e) := by
  refine (read_yields_text ht).bind_ok ((read_yields_text hv).bind_ok
    ((read_yields_text hn).bind_ok ?_))
  dsimp only
  rw [h]
  exact yields_done _

theorem announced_yields_texts {g : Option String → Announcement} {x : Except Error (Option String)}
    (h : Announcement.ofTexts (trim t) (trim v) (trim n) = .ok g)
    (hx : Yields (withFiles files others) d.location.run x) :
    Yields (withFiles files others) (announced d).run (x.map fun l => some (g l)) := by
  refine (read_yields_text ht).bind_ok ((read_yields_text hv).bind_ok
    ((read_yields_text hn).bind_ok ?_))
  dsimp only
  rw [h]
  cases x with
  | ok l => exact hx.bind_ok (yields_done _)
  | error e => exact hx.bind_error

theorem announced_outcome_iff (w : W) :
    (∀ a, outcome (withFiles files others) (announced d).run w = .ok (some a) ↔
      Describes d (files .location) t v n a) ∧
      ((∀ a, ¬Describes d (files .location) t v n a) →
        ∃ e, outcome (withFiles files others) (announced d).run w = .error e) := by
  simp only [describes_iff]
  cases hg : Announcement.ofTexts (trim t) (trim v) (trim n) with
  | error e =>
      rw [announced_yields_malformed ht hv hn hg w]
      simp
  | ok g =>
      by_cases hl : (files .location).Sound
      · obtain ⟨l, hlocated, hlocation⟩ := exists_location_yields d others hl
        rw [announced_yields_texts ht hv hn hg hlocation w]
        simp [hlocated, Except.map, eq_comm]
      · obtain ⟨e, he⟩ := not_forall_not.mp hl
        rw [announced_yields_texts ht hv hn hg (location_yields_failed he) w]
        simp [not_located_of_fails he, Except.map]

end Texts

/-- Of the required files the first that cannot be read or is no text is the error; without such,
one that is missing means that nothing is announced. Three texts are an announcement exactly if they
are well-formed and the location, if there is one, is text; anything else is an error. -/
theorem announced_exactly (d : WorkDir) (files : Descriptor → Contents)
    (others : (q : Call) → StateM W q.Answer) (w : W) :
    ((∃ f ∈ required, ∃ e, (files f).Fails e) →
      ∃ before f after e, required = before ++ f :: after ∧ (∀ f' ∈ before, (files f').Sound) ∧
        (files f).Fails e ∧ outcome (withFiles files others) (announced d).run w =
          .error (.io (.reading (d.pathOf (.descriptor f))) e)) ∧
    ((∀ f ∈ required, (files f).Sound) → (∃ f ∈ required, files f = .absent) →
      outcome (withFiles files others) (announced d).run w = .ok none) ∧
    ∀ t v n, files .type = .bytes (encode t) → files .version = .bytes (encode v) →
      files .size = .bytes (encode n) →
      (∀ a, outcome (withFiles files others) (announced d).run w = .ok (some a) ↔
        Describes d (files .location) t v n a) ∧
      ((∀ a, ¬Describes d (files .location) t v n a) →
        ∃ e, outcome (withFiles files others) (announced d).run w = .error e) := by
  refine ⟨fun h => ?_, fun hsound h => announced_yields_incomplete hsound h w,
    fun t v n ht hv hn => announced_outcome_iff ht hv hn w⟩
  obtain ⟨before, f, after, e, hsplit, hbefore, he, hyields⟩ :=
    announced_yields_failed d others h
  exact ⟨before, f, after, e, hsplit, hbefore, he, hyields w⟩

end Staging

end Dualbank
