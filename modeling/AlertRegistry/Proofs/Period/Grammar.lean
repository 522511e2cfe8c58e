import AlertRegistry.Proofs.Period

/-!
# The grammar of period texts

`Components.chars` writes components in the one way in which they may stand in a text: `P`, weeks,
days, and `T` before hours, minutes and seconds if there are any of these. The reader takes runs of
digits off the front as long as the right designator follows them. It reads exactly the texts that
are so written (`readComponents_eq_some_iff`), because what follows a component begins with digits
before another designator, or with none (`mark`).

The main statement is `texts_follow_grammar`: a text denotes a period exactly if it is so written
and its exact number of seconds fits in 64 bits.
-/

namespace AlertRegistry.Period

open Text

/-! ## The grammar -/

/-- A number is a run of digits, of any length but not empty. -/
def IsNumber (ds : List Char) : Prop :=
  ds ≠ [] ∧ ∀ c ∈ ds, c.isDigit = true

/-- A component is a number and its designator. -/
def component (designator : Char) : Option (List Char) → List Char
  | none => []
  | some ds => ds ++ [designator]

/-- Seconds may have a fraction before their designator. -/
def secondsComponent : Option (List Char × List Char) → List Char
  | none => []
  | some (ds, []) => ds ++ ['S']
  | some (ds, f :: fs) => ds ++ '.' :: (f :: fs ++ ['S'])

/-- What may stand after the `T`. -/
def timeText (hours minutes : Option (List Char)) (seconds : Option (List Char × List Char)) :
    List Char :=
  component 'H' hours ++ (component 'M' minutes ++ secondsComponent seconds)

namespace Components

/-- The components that stand after the `T`. -/
def timeChars (c : Components) : List Char :=
  timeText c.hours c.minutes (c.seconds.map fun ds => (ds, c.fraction))

/-- The `T` with what stands after it, if there is anything. -/
def timeTail (c : Components) : List Char :=
  if c.timeChars = [] then [] else 'T' :: c.timeChars

/-- How the components are written. -/
def chars (c : Components) : List Char :=
  'P' :: (component 'W' c.weeks ++ (component 'D' c.days ++ c.timeTail))

/-- The components are numbers, and there is at least one of them. A fraction has up to nine digits
and belongs to seconds. -/
structure WellFormed (c : Components) : Prop where
  /-- The weeks are a number. -/
  weeks : ∀ ds ∈ c.weeks, IsNumber ds
  /-- The days are a number. -/
  days : ∀ ds ∈ c.days, IsNumber ds
  /-- The hours are a number. -/
  hours : ∀ ds ∈ c.hours, IsNumber ds
  /-- The minutes are a number. -/
  minutes : ∀ ds ∈ c.minutes, IsNumber ds
  /-- The seconds are a number. -/
  seconds : ∀ ds ∈ c.seconds, IsNumber ds
  /-- The fraction has digits only. -/
  fraction : ∀ f ∈ c.fraction, f.isDigit = true
  /-- There are at most nine of them. -/
  length_fraction : c.fraction.length ≤ 9
  /-- Without seconds there is no fraction. -/
  fraction_eq_nil : c.seconds = none → c.fraction = []
  /-- There is a component. -/
  present : c.weeks.isSome ∨ c.days.isSome ∨ c.hours.isSome ∨ c.minutes.isSome ∨ c.seconds.isSome

/-- The components are what the text says. -/
def Spell (c : Components) (s : String) : Prop :=
  c.WellFormed ∧ s.toList = c.chars

end Components

/-! ## What is taken off the front -/

/-- The first character that is no digit. -/
def mark (cs : List Char) : Option Char :=
  (cs.dropWhile Char.isDigit).head?

theorem mark_append {ds : List Char} (hd : ∀ c ∈ ds, c.isDigit = true) {c : Char}
    (hc : c.isDigit = false) (rest : List Char) : mark (ds ++ c :: rest) = some c := by
  unfold mark
  rw [dropWhile_isDigit_append hd (endsRun_cons hc)]
  rfl

/-- A text is a run of digits and what begins with its mark. -/
theorem exists_digits (cs : List Char) : ∃ ds rest, cs = ds ++ rest
    ∧ (∀ c ∈ ds, c.isDigit = true) ∧ EndsRun rest ∧ mark cs = rest.head? := by
  refine ⟨cs.takeWhile Char.isDigit, cs.dropWhile Char.isDigit,
    List.takeWhile_append_dropWhile.symm, fun c hc => List.mem_takeWhile_imp hc, ?_, rfl⟩
  intro c hc
  have h := List.head?_dropWhile_not Char.isDigit cs
  rw [Option.mem_def.1 hc] at h
  exact h

theorem takeComponent_of_mark_ne {designator : Char} {cs : List Char}
    (h : mark cs ≠ some designator) : takeComponent designator cs = (none, cs) := by
  obtain ⟨ds, rest, rfl, hd, hrest, hmark⟩ := exists_digits cs
  rw [hmark] at h
  cases rest with
  | nil =>
    rw [takeComponent, takeWhile_isDigit_append hd hrest, dropWhile_isDigit_append hd hrest]
    cases ds <;> rfl
  | cons c rest => exact takeComponent_of_ne hd (hrest c rfl) fun heq => h (congrArg some heq)

section

variable {designator : Char} (hdesignator : designator.isDigit = false)

include hdesignator

theorem takeComponent_append {ds : List Char} (hd : IsNumber ds) (rest : List Char) :
    takeComponent designator (ds ++ designator :: rest) = (some ds, rest) := by
  have hend : EndsRun (designator :: rest) := endsRun_cons hdesignator
  rw [takeComponent, takeWhile_isDigit_append hd.2 hend, dropWhile_isDigit_append hd.2 hend]
  cases ds with
  | nil => exact absurd rfl hd.1
  | cons d ds => exact if_pos rfl

/-- A component that is written is taken, and nothing else of what follows. -/
theorem takeComponent_component {o : Option (List Char)} (ho : ∀ ds ∈ o, IsNumber ds)
    {rest : List Char} (hrest : mark rest ≠ some designator) :
    takeComponent designator (component designator o ++ rest) = (o, rest) := by
  cases o with
  | none => exact takeComponent_of_mark_ne hrest
  | some ds =>
    show takeComponent designator (ds ++ [designator] ++ rest) = _
    rw [List.append_assoc]
    exact takeComponent_append hdesignator (ho ds rfl) rest

/-- What is taken is a component that is written. -/
theorem takeComponent_sound {cs rest : List Char} {o : Option (List Char)}
    (h : takeComponent designator cs = (o, rest)) :
    cs = component designator o ++ rest ∧ ∀ ds ∈ o, IsNumber ds := by
  by_cases hmark : mark cs = some designator
  · obtain ⟨ds, tail, rfl, hd, hend, htail⟩ := exists_digits cs
    obtain ⟨tail, rfl⟩ := List.head?_eq_some_iff.1 (htail.symm.trans hmark)
    by_cases hne : ds = []
    · subst hne
      rw [takeComponent, takeWhile_isDigit_append hd hend] at h
      cases h
      exact ⟨rfl, by simp⟩
    · rw [takeComponent_append hdesignator ⟨hne, hd⟩] at h
      cases h
      refine ⟨(List.append_cons ds designator rest), fun es hes => ?_⟩
      cases hes
      exact ⟨hne, hd⟩
  · rw [takeComponent_of_mark_ne hmark] at h
    cases h
    exact ⟨rfl, by simp⟩

/-- The mark is the designator of the first component. -/
theorem mark_component {o : Option (List Char)} (ho : ∀ ds ∈ o, IsNumber ds) (rest : List Char) :
    mark (component designator o ++ rest) = if o.isSome then some designator else mark rest := by
  cases o with
  | none => rfl
  | some ds =>
    show mark (ds ++ [designator] ++ rest) = some designator
    rw [List.append_assoc]
    exact mark_append (ho ds rfl).2 hdesignator rest

end

/-- The seconds with their fraction, of which the first are numbers and the latter are digits. -/
def IsSeconds (s : List Char × List Char) : Prop :=
  IsNumber s.1 ∧ (∀ f ∈ s.2, f.isDigit = true) ∧ s.2.length ≤ 9

theorem takeSeconds_secondsComponent {o : Option (List Char × List Char)}
    (ho : ∀ s ∈ o, IsSeconds s) : takeSeconds (secondsComponent o) = (o, []) := by
  match o with
  | none => rfl
  | some (ds, []) =>
    obtain ⟨⟨hne, hd⟩, _⟩ := ho _ rfl
    exact takeSeconds_whole hd hne
  | some (ds, f :: fs) =>
    obtain ⟨⟨hne, hd⟩, hf, hlen⟩ := ho _ rfl
    exact takeSeconds_fraction hd hne hf (List.cons_ne_nil f fs) hlen

/-- Seconds that are taken are seconds that are written. -/
theorem takeSeconds_sound {cs rest : List Char} {o : Option (List Char × List Char)}
    (h : takeSeconds cs = (o, rest)) :
    cs = secondsComponent o ++ rest ∧ ∀ s ∈ o, IsSeconds s := by
  have hcs := List.takeWhile_append_dropWhile (p := Char.isDigit) (l := cs)
  have hdigits : ∀ c ∈ cs.takeWhile Char.isDigit, c.isDigit = true :=
    fun c hc => List.mem_takeWhile_imp hc
  unfold takeSeconds at h
  split at h
  · next d ds tail hd htail =>
    cases h
    rw [hd, htail] at hcs
    rw [hd] at hdigits
    refine ⟨by simp [secondsComponent, ← hcs], ?_⟩
    rintro _ ⟨⟩
    exact ⟨⟨List.cons_ne_nil _ _, hdigits⟩, nofun, Nat.zero_le 9⟩
  · next d ds tail hd htail =>
    have htail' := List.takeWhile_append_dropWhile (p := Char.isDigit) (l := tail)
    have hdigits' : ∀ c ∈ tail.takeWhile Char.isDigit, c.isDigit = true :=
      fun c hc => List.mem_takeWhile_imp hc
    rw [hd, htail] at hcs
    rw [hd] at hdigits
    split at h
    · next f fs tail' hf hend =>
      rw [hf, hend] at htail'
      rw [hf] at hdigits'
      split at h
      · next hlen =>
        cases h
        refine ⟨by simp [secondsComponent, ← hcs, ← htail'], ?_⟩
        rintro _ ⟨⟩
        exact ⟨⟨List.cons_ne_nil _ _, hdigits⟩, hdigits', hlen⟩
      · cases h
        exact ⟨rfl, nofun⟩
    · cases h
      exact ⟨rfl, nofun⟩
  · cases h
    exact ⟨rfl, nofun⟩

theorem mark_secondsComponent {o : Option (List Char × List Char)} (ho : ∀ s ∈ o, IsSeconds s)
    {designator : Char} (hS : designator ≠ 'S') (hpoint : designator ≠ '.') :
    mark (secondsComponent o) ≠ some designator := by
  match o with
  | none => exact nofun
  | some (ds, []) =>
    show mark (ds ++ ['S']) ≠ _
    rw [mark_append (ho _ rfl).1.2 rfl]
    exact fun h => hS (Option.some.inj h).symm
  | some (ds, f :: fs) =>
    show mark (ds ++ '.' :: _) ≠ _
    rw [mark_append (ho _ rfl).1.2 rfl]
    exact fun h => hpoint (Option.some.inj h).symm

/-! ## What is read -/

namespace Components

theorem WellFormed.isSeconds {c : Components} (h : c.WellFormed) :
    ∀ s ∈ c.seconds.map fun ds => (ds, c.fraction), IsSeconds s := by
  intro s hs
  obtain ⟨ds, hds, rfl⟩ := Option.map_eq_some_iff.1 hs
  exact ⟨h.seconds ds hds, h.fraction, h.length_fraction⟩

/-- Weeks and days together with what stands after the `T`. -/
def timed (weeks days hours minutes : Option (List Char))
    (seconds : Option (List Char × List Char)) : Components where
  weeks
  days
  hours
  minutes
  seconds := seconds.map Prod.fst
  fraction := (seconds.map Prod.snd).getD []

theorem timed_self {c : Components} (h : c.WellFormed) :
    timed c.weeks c.days c.hours c.minutes (c.seconds.map fun ds => (ds, c.fraction)) = c := by
  have hfraction := h.fraction_eq_nil
  obtain ⟨weeks, days, hours, minutes, seconds, fraction⟩ := c
  cases seconds with
  | none =>
    obtain rfl : fraction = [] := hfraction rfl
    rfl
  | some ds => rfl

theorem timeChars_timed (weeks days hours minutes : Option (List Char))
    (seconds : Option (List Char × List Char)) :
    (timed weeks days hours minutes seconds).timeChars = timeText hours minutes seconds := by
  cases seconds <;> rfl

theorem wellFormed_timed {weeks days hours minutes : Option (List Char)}
    {seconds : Option (List Char × List Char)} (hweeks : ∀ ds ∈ weeks, IsNumber ds)
    (hdays : ∀ ds ∈ days, IsNumber ds) (hhours : ∀ ds ∈ hours, IsNumber ds)
    (hminutes : ∀ ds ∈ minutes, IsNumber ds) (hseconds : ∀ s ∈ seconds, IsSeconds s)
    (hpresent : weeks.isSome ∨ days.isSome ∨ hours.isSome ∨ minutes.isSome ∨ seconds.isSome) :
    (timed weeks days hours minutes seconds).WellFormed := by
  cases seconds with
  | none => exact ⟨hweeks, hdays, hhours, hminutes, nofun, nofun, Nat.zero_le 9, fun _ => rfl,
      hpresent⟩
  | some s =>
    obtain ⟨hnumber, hf, hlen⟩ := hseconds s rfl
    refine ⟨hweeks, hdays, hhours, hminutes, ?_, hf, hlen, nofun, hpresent⟩
    rintro _ ⟨⟩
    exact hnumber

/-- A time says something if its text does. -/
theorem isSome_of_timeText {hours minutes : Option (List Char)}
    {seconds : Option (List Char × List Char)} :
    timeText hours minutes seconds ≠ [] ↔ hours.isSome ∨ minutes.isSome ∨ seconds.isSome := by
  unfold timeText
  match hours, minutes, seconds with
  | none, none, none => simp [component, secondsComponent]
  | some ds, _, _ => simp [component]
  | none, some ds, _ => simp [component]
  | none, none, some (ds, []) => simp [component, secondsComponent]
  | none, none, some (ds, f :: fs) => simp [component, secondsComponent]

theorem mark_timeTail_ne {c : Components} {designator : Char} (h : designator ≠ 'T') :
    mark c.timeTail ≠ some designator := by
  unfold timeTail
  split
  · exact nofun
  · exact fun hmark => h (Option.some.inj hmark).symm

end Components

open Components

/-- After the `T` at least one of hours, minutes and seconds is read, and nothing else. -/
theorem readTime_eq_some_iff {weeks days : Option (List Char)} {c : Components} {cs : List Char} :
    readTime { weeks, days } cs = some c ↔ ∃ hours minutes seconds,
      cs = timeText hours minutes seconds ∧ (∀ ds ∈ hours, IsNumber ds)
      ∧ (∀ ds ∈ minutes, IsNumber ds) ∧ (∀ s ∈ seconds, IsSeconds s)
      ∧ (hours.isSome ∨ minutes.isSome ∨ seconds.isSome)
      ∧ c = timed weeks days hours minutes seconds := by
  constructor
  · intro h
    obtain ⟨hours, cs₁, hH⟩ : ∃ o rest, takeComponent 'H' cs = (o, rest) := ⟨_, _, rfl⟩
    obtain ⟨minutes, cs₂, hM⟩ : ∃ o rest, takeComponent 'M' cs₁ = (o, rest) := ⟨_, _, rfl⟩
    obtain ⟨seconds, cs₃, hS⟩ : ∃ o rest, takeSeconds cs₂ = (o, rest) := ⟨_, _, rfl⟩
    unfold readTime at h
    simp only [hH, hM, hS] at h
    obtain ⟨rfl, hhours⟩ := takeComponent_sound rfl hH
    obtain ⟨rfl, hminutes⟩ := takeComponent_sound rfl hM
    obtain ⟨rfl, hseconds⟩ := takeSeconds_sound hS
    split at h
    · next hread =>
      cases h
      rw [List.isEmpty_iff] at hread
      refine ⟨hours, minutes, seconds, ?_, hhours, hminutes, hseconds, hread.2, rfl⟩
      rw [hread.1, List.append_nil]
      rfl
    · cases h
  · rintro ⟨hours, minutes, seconds, rfl, hhours, hminutes, hseconds, hpresent, rfl⟩
    -- neither what follows the hours nor what follows the minutes begins as these do
    have hmarkM : mark (secondsComponent seconds) ≠ some 'M' :=
      mark_secondsComponent hseconds (by decide) (by decide)
    have hmarkH : mark (component 'M' minutes ++ secondsComponent seconds) ≠ some 'H' := by
      rw [mark_component rfl hminutes]
      split
      · decide
      · exact mark_secondsComponent hseconds (by decide) (by decide)
    unfold readTime timeText
    simp only [takeComponent_component rfl hhours hmarkH,
      takeComponent_component rfl hminutes hmarkM, takeSeconds_secondsComponent hseconds]
    exact if_pos ⟨rfl, hpresent⟩

/-- What is read is written so. -/
theorem readComponents_sound {cs : List Char} {c : Components} (h : readComponents cs = some c) :
    c.WellFormed ∧ cs = c.chars := by
  unfold readComponents at h
  split at h
  · next cs =>
    obtain ⟨weeks, cs₁, hW⟩ : ∃ o rest, takeComponent 'W' cs = (o, rest) := ⟨_, _, rfl⟩
    obtain ⟨days, cs₂, hD⟩ : ∃ o rest, takeComponent 'D' cs₁ = (o, rest) := ⟨_, _, rfl⟩
    simp only [hW, hD] at h
    obtain ⟨rfl, hweeks⟩ := takeComponent_sound rfl hW
    obtain ⟨rfl, hdays⟩ := takeComponent_sound rfl hD
    split at h
    · -- the text ends before a `T`
      split at h
      · next hpresent =>
        cases h
        have hdate : weeks.isSome ∨ days.isSome := hpresent
        have hnone : ∀ ds ∈ (none : Option (List Char)), IsNumber ds := nofun
        exact ⟨@wellFormed_timed weeks days none none none hweeks hdays hnone hnone nofun
          (hdate.imp_right .inl), rfl⟩
      · cases h
    · obtain ⟨hours, minutes, seconds, rfl, hhours, hminutes, hseconds, hpresent, rfl⟩ :=
        readTime_eq_some_iff.1 h
      refine ⟨wellFormed_timed hweeks hdays hhours hminutes hseconds (.inr (.inr hpresent)), ?_⟩
      unfold chars timeTail
      rw [timeChars_timed, if_neg (isSome_of_timeText.2 hpresent)]
      rfl
    · cases h
  · cases h

/-- What is written so is read. -/
theorem readComponents_chars {c : Components} (hc : c.WellFormed) :
    readComponents c.chars = some c := by
  have hmarkW : mark (component 'D' c.days ++ c.timeTail) ≠ some 'W' := by
    rw [mark_component rfl hc.days]
    split
    · decide
    · exact mark_timeTail_ne (by decide)
  have hmarkD : mark c.timeTail ≠ some 'D' := mark_timeTail_ne (by decide)
  unfold readComponents chars
  simp only [takeComponent_component rfl hc.weeks hmarkW,
    takeComponent_component rfl hc.days hmarkD]
  unfold timeTail
  by_cases htime : c.timeChars = []
  · have hnone := mt isSome_of_timeText.2 (not_not.2 htime)
    rw [not_or, not_or] at hnone
    simp only [Option.isSome_map, Bool.not_eq_true, Option.isSome_eq_false_iff,
      Option.isNone_iff_eq_none] at hnone
    obtain ⟨hhours, hminutes, hseconds⟩ := hnone
    have hdate : c.weeks.isSome ∨ c.days.isSome := by
      simpa [hhours, hminutes, hseconds] using hc.present
    rw [if_pos htime]
    dsimp only
    rw [if_pos hdate]
    conv_rhs => rw [← timed_self hc, hhours, hminutes, hseconds]
    rfl
  · rw [if_neg htime]
    exact readTime_eq_some_iff.2 ⟨c.hours, c.minutes, _, rfl, hc.hours, hc.minutes, hc.isSeconds,
      isSome_of_timeText.1 htime, (timed_self hc).symm⟩

/-- Components are read exactly from the texts in which they are so written. -/
theorem readComponents_eq_some_iff {cs : List Char} {c : Components} :
    readComponents cs = some c ↔ c.WellFormed ∧ cs = c.chars := by
  constructor
  · exact readComponents_sound
  · rintro ⟨hc, rfl⟩
    exact readComponents_chars hc

/-! ## The fraction -/

/-- The fraction is the decimal fraction of its digits, in nanoseconds. -/
theorem Components.nanoseconds_mul {c : Components} (h : c.fraction.length ≤ 9) :
    c.nanoseconds * 10 ^ c.fraction.length = natOfDigits c.fraction * 10 ^ 9 := by
  unfold nanoseconds padRight
  rw [natOfDigits_append_zeros, Nat.mul_assoc, ← Nat.pow_add, Nat.sub_add_cancel h]

theorem Components.nanoseconds_lt {c : Components} (h : c.WellFormed) :
    c.nanoseconds < 1000000000 := by
  have hlt : natOfDigits c.fraction * 10 ^ 9 < 10 ^ c.fraction.length * 10 ^ 9 :=
    Nat.mul_lt_mul_of_pos_right (natOfDigits_lt h.fraction) (by decide)
  rw [← nanoseconds_mul h.length_fraction, Nat.mul_comm (10 ^ _)] at hlt
  exact Nat.lt_of_mul_lt_mul_right hlt

/-! ## The periods of texts -/

theorem ofString_eq_ok_iff {s : String} {p : Period} :
    ofString s = .ok p ↔ ∃ c : Components, c.Spell s ∧ p.seconds = c.totalSeconds
      ∧ p.nanoseconds = c.nanoseconds := by
  have hread : ofString s = .ok p ↔ read? s.toList = some p := by
    unfold ofString
    cases read? s.toList <;> simp
  rw [hread, read?_eq_some_iff]
  simp only [readComponents_eq_some_iff, Components.Spell]

/-- A text denotes a period exactly if it spells components whose exact number of seconds fits in 64
bits. The period has so many seconds, and the nanoseconds that the fraction is as a decimal fraction.
Any other text is refused. -/
theorem texts_follow_grammar (s : String) :
    (∀ p, ofString s = .ok p ↔ ∃ c : Components, c.Spell s
      ∧ p.seconds = 604800 * amount c.weeks + 86400 * amount c.days + 3600 * amount c.hours
        + 60 * amount c.minutes + amount c.seconds
      ∧ p.nanoseconds * 10 ^ c.fraction.length = natOfDigits c.fraction * 10 ^ 9)
    ∧ ((∃ p, ofString s = .ok p) ↔ ∃ c : Components, c.Spell s ∧ c.totalSeconds < 2 ^ 64)
    ∧ ((¬ ∃ c : Components, c.Spell s ∧ c.totalSeconds < 2 ^ 64) → ofString s = .error ⟨s⟩) := by
  have haccepted : (∃ p, ofString s = .ok p)
      ↔ ∃ c : Components, c.Spell s ∧ c.totalSeconds < 2 ^ 64 := by
    constructor
    · rintro ⟨p, hp⟩
      obtain ⟨c, hc, hseconds, _⟩ := ofString_eq_ok_iff.1 hp
      exact ⟨c, hc, hseconds ▸ p.seconds_lt⟩
    · rintro ⟨c, hc, hlt⟩
      exact ⟨⟨c.totalSeconds, c.nanoseconds, hlt, c.nanoseconds_lt hc.1⟩,
        ofString_eq_ok_iff.2 ⟨c, hc, rfl, rfl⟩⟩
  refine ⟨fun p => ?_, haccepted, fun hrefused => ?_⟩
  · rw [ofString_eq_ok_iff]
    refine exists_congr fun c => and_congr_right fun hc => and_congr_right fun _ => ?_
    rw [← Components.nanoseconds_mul hc.1.length_fraction]
    exact (Nat.mul_left_inj (Nat.pow_pos (by decide)).ne').symm
  · cases h : ofString s with
    | ok p => exact absurd (haccepted.1 ⟨p, h⟩) hrefused
    | error e =>
      unfold ofString at h
      split at h
      · cases h
      · exact h.symm

/-- A week and a second and a half. -/
example : ofString "P1WT0M001.5S" = .ok { seconds := 604801, nanoseconds := 500000000 } := by
  decide +kernel

/-- The greatest number of seconds, and one more in two components. -/
example : (ofString "PT18446744073709551615S").toOption.isSome
    ∧ ofString "PT1M18446744073709551556S" = .error ⟨"PT1M18446744073709551556S"⟩ := by
  decide +kernel

end AlertRegistry.Period
