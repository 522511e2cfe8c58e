import AlertRegistry.Proofs.Double.Integral
import AlertRegistry.Proofs.Extensions
import AlertRegistry.Proofs.SideRecord
import AlertRegistry.Proofs.Text.Integer

/-!
# How extension values are coerced

A value under one of the four keys is kept, refused or out of range, by what the value is and not by
how it is read: `StandsFor` says which integer a JSON value is, `Keeps` what is kept of a value, and
`Faulty` with which error a value is refused. Every value is either kept or refused, in one way only
(`readValue_eq_ok_iff`, `readValue_eq_error_iff`).

From there the whole map is settled (`coercion_is_exact`): the side-record has what is kept under
each key, and if there are values that are refused, the error is that of the first of them.
-/

namespace AlertRegistry

open Json (Value)
open Text (FitsInt64)

/-- The value under the key is a text, not an integer. -/
def ExtensionKey.HoldsText : ExtensionKey → Prop
  | severity | recipient => True
  | attempts | freshness => False

namespace SideRecord

variable {e : Extensions} {key : ExtensionKey} {v w : Value} {n : ℤ} {err : ExtensionError}

/-! ## What a value is worth -/

/-- The integer that a JSON value is: an integer is itself, a double without a fraction the number
that it is, and the text of an integer that integer. -/
inductive StandsFor : Value → ℤ → Prop
  /-- An integer. -/
  | integer (n : ℤ) : StandsFor (.integer n) n
  /-- A double. -/
  | number {x : Float} {n : ℤ} (h : Double.Equals x n) : StandsFor (.number x) n
  /-- A text. -/
  | text {s : String} {n : ℤ} (h : Text.IsIntegerText s n) : StandsFor (.text s) n

/-- A number, integral but without 64 bits. Texts are no numbers, whatever stands in them. -/
inductive Exceeds : Value → Prop
  /-- An integer. It is too large and not too small, as long as the value is well-formed. -/
  | integer {n : ℤ} (hn : ¬ FitsInt64 n) : Exceeds (.integer n)
  /-- A double. -/
  | number {x : Float} {n : ℤ} (h : Double.Equals x n) (hn : ¬ FitsInt64 n) : Exceeds (.number x)

/-- What is kept of what stands under a key, as it is shown. -/
inductive Keeps (key : ExtensionKey) : Option Value → Value → Prop
  /-- Nothing, if the key is absent. -/
  | absent : Keeps key none .null
  /-- Nothing, if the value is null. -/
  | null : Keeps key (some .null) .null
  /-- A text, as it is. -/
  | text (hkey : key.HoldsText) (s : String) : Keeps key (some (.text s)) (.text s)
  /-- The integer that the value is. -/
  | integer {v : Value} {n : ℤ} (hkey : ¬ key.HoldsText) (hv : StandsFor v n)
    (hn : FitsInt64 n) : Keeps key (some v) (.integer n)

/-- The error with which a value is refused. -/
inductive Faulty (key : ExtensionKey) (v : Value) : ExtensionError → Prop
  /-- A number where an integer belongs, but too large. -/
  | outOfRange (hkey : ¬ key.HoldsText) (hv : Exceeds v) : Faulty key v (.outOfRange key)
  /-- Anything else of which nothing can be kept. -/
  | wrongType (hv : key.HoldsText ∨ ¬ Exceeds v) (hkept : ∀ w, ¬ Keeps key (some v) w) :
    Faulty key v (.wrongType key)

/-- The key is the first with a value that is refused, and this is the error. -/
structure FirstFault (e : Extensions) (key : ExtensionKey) (err : ExtensionError) : Prop where
  /-- Of what stands under the keys before it something can be kept, or nothing is there. -/
  earlier : ∃ before after, ExtensionKey.all = before ++ key :: after
    ∧ ∀ k ∈ before, ∃ w, Keeps k (e.get? k.name) w
  /-- The value under the key is refused. -/
  refused : ∃ v, e.get? key.name = some v ∧ Faulty key v err

/-- What becomes of an extension map. -/
inductive Coercion (e : Extensions) : Except ExtensionError (Option SideRecord) → Prop
  /-- The empty map has no record. -/
  | empty (h : e = ∅) : Coercion e (.ok none)
  /-- A map with none of the keys is refused with all of its own. -/
  | unknown (hne : e ≠ ∅) (h : ∀ key : ExtensionKey, key.name ∉ e.keys) :
    Coercion e (.error (.noKnownKeys e.keys))
  /-- The record has what is kept under each key. -/
  | record {r : SideRecord} (hknown : ∃ key : ExtensionKey, key.name ∈ e.keys)
    (h : ∀ key, Keeps key (e.get? key.name) (r.valueAt key)) : Coercion e (.ok (some r))
  /-- The first value that cannot be kept is at fault. -/
  | fault {key : ExtensionKey} {err : ExtensionError} (h : FirstFault e key err) :
    Coercion e (.error err)

/-! ## Each value in one way -/

theorem StandsFor.unique {m : ℤ} (hn : StandsFor v n) (hm : StandsFor v m) : n = m := by
  cases hn with
  | integer n =>
    cases hm
    rfl
  | number hn =>
    cases hm with
    | number hm =>
      obtain ⟨b, hb, hval⟩ := hn
      obtain ⟨b', hb', hval'⟩ := hm
      obtain rfl := Option.some.inj (hb.symm.trans hb')
      exact_mod_cast hval.symm.trans hval'
  | text hn =>
    cases hm with
    | text hm =>
      rw [← Text.readInteger?_trimChars_eq_some_iff] at hn hm
      exact Option.some.inj (hn.symm.trans hm)

theorem Exceeds.exists_standsFor (h : Exceeds v) : ∃ n, StandsFor v n ∧ ¬ FitsInt64 n := by
  cases h with
  | integer hn => exact ⟨_, .integer _, hn⟩
  | number hx hn => exact ⟨_, .number hx, hn⟩

/-- Of a value that stands for an integer, the integer is kept if it has 64 bits. -/
theorem StandsFor.keeps_iff (hkey : ¬ key.HoldsText) (hv : StandsFor v n) {w : Value} :
    Keeps key (some v) w ↔ FitsInt64 n ∧ w = .integer n := by
  constructor
  · intro hw
    cases hw with
    | null => cases hv
    | text hkey' _ => exact absurd hkey' hkey
    | integer _ hv' hn =>
      rw [hv.unique hv']
      exact ⟨hn, rfl⟩
  · rintro ⟨hn, rfl⟩
    exact .integer hkey hv hn

theorem Keeps.unique {o : Option Value} {w' : Value} (hw : Keeps key o w) (hw' : Keeps key o w') :
    w = w' := by
  cases hw with
  | absent =>
    cases hw'
    rfl
  | null =>
    cases hw' with
    | null => rfl
    | integer _ hv _ => cases hv
  | text hkey s =>
    cases hw' with
    | text => rfl
    | integer hkey' _ _ => exact absurd hkey hkey'
  | integer hkey hv _ => exact ((hv.keeps_iff hkey).1 hw').2.symm

/-- Nothing is kept of a value that is refused. -/
theorem Faulty.not_keeps (h : Faulty key v err) (w : Value) : ¬ Keeps key (some v) w := by
  cases h with
  | outOfRange hkey hv =>
    obtain ⟨n, hn, hfit⟩ := hv.exists_standsFor
    exact fun hw => hfit ((hn.keeps_iff hkey).1 hw).1
  | wrongType _ hkept => exact hkept w

theorem Faulty.unique {err' : ExtensionError} (h : Faulty key v err) (h' : Faulty key v err') :
    err = err' := by
  cases h with
  | outOfRange hkey hv =>
    cases h' with
    | outOfRange => rfl
    | wrongType hv' _ => exact absurd hv (hv'.resolve_left hkey)
  | wrongType hv _ =>
    cases h' with
    | outOfRange hkey' hv' => exact absurd hv' (hv.resolve_left hkey')
    | wrongType => rfl

/-! ## Single values are read -/

/-- What is read under a key, as it is shown. -/
def readValue (e : Extensions) (key : ExtensionKey) : Except ExtensionError Value :=
  match key with
  | .severity | .recipient => (readText e key).map textValue
  | .attempts | .freshness => (readInteger e key).map integerValue

/-- The reading did what has to be done with what stands under the key. -/
def Settles (key : ExtensionKey) (o : Option Value) : Except ExtensionError Value → Prop
  | .ok w => Keeps key o w
  | .error err => ∃ v, o = some v ∧ Faulty key v err

theorem settles_readText (hkey : key.HoldsText) :
    Settles key (e.get? key.name) ((readText e key).map textValue) := by
  unfold readText
  split
  · next h =>
    rw [h]
    exact .absent
  · next h =>
    rw [h]
    exact .null
  · next s h =>
    rw [h]
    exact .text hkey s
  · next v hnull htext h =>
    refine ⟨v, h, .wrongType (.inl hkey) fun w hw => ?_⟩
    cases hw with
    | null => exact hnull rfl
    | text _ s => exact htext s rfl
    | integer hkey' _ _ => exact hkey' hkey

/-- A number in range is kept and one out of range is refused. -/
theorem settles_inRange (hkey : ¬ key.HoldsText) (hv : StandsFor v n)
    (hexceeds : ¬ FitsInt64 n → Exceeds v) :
    Settles key (some v) ((inRange key n).map integerValue) := by
  unfold inRange
  split
  · next hn => exact .integer hkey hv hn
  · next hn => exact ⟨v, rfl, .outOfRange hkey (hexceeds hn)⟩

/-- A value that stands for no integer with 64 bits, and is no large number either, is of the wrong
type. -/
theorem settles_wrongType (hkey : ¬ key.HoldsText) (hnull : v ≠ .null) (hexceeds : ¬ Exceeds v)
    (hv : ∀ n, StandsFor v n → ¬ FitsInt64 n) :
    Settles key (some v) (.error (.wrongType key)) := by
  refine ⟨v, rfl, .wrongType (.inr hexceeds) fun w hw => ?_⟩
  cases hw with
  | null => exact hnull rfl
  | text hkey' _ => exact hkey hkey'
  | integer _ hv' hn => exact hv _ hv' hn

/-- A double is kept if it is an integer with 64 bits. -/
theorem settles_readInteger_number (hkey : ¬ key.HoldsText) {x : Float}
    (h : e.get? key.name = some (.number x)) :
    Settles key (some (.number x)) ((readInteger e key).map integerValue) := by
  have hwrong (hx : ∀ n : ℤ, ¬ Double.Equals x n) :
      Settles key (some (.number x)) (.error (.wrongType key)) := by
    refine settles_wrongType hkey nofun ?_ ?_
    · intro hexceeds
      cases hexceeds with
      | number h _ => exact hx _ h
    · intro n hn
      cases hn with
      | number h => exact absurd h (hx n)
  unfold readInteger
  rw [h]
  dsimp only
  split
  · next b hb =>
    split
    · next hintegral =>
      have hx : Double.Equals x b.truncate :=
        ⟨b, hb, Double.value_eq_intCast_iff.2 ⟨hintegral, rfl⟩⟩
      exact settles_inRange hkey (.number hx) (.number hx)
    · next hintegral =>
      refine hwrong ?_
      rintro n ⟨b', hb', hval⟩
      obtain rfl := Option.some.inj (hb.symm.trans hb')
      exact hintegral (Double.value_eq_intCast_iff.1 hval).1
  · next hb =>
    refine hwrong ?_
    rintro n ⟨b, hb', -⟩
    rw [hb] at hb'
    cases hb'

/-- A text is kept if it is that of an integer with 64 bits. -/
theorem settles_readInteger_text (hkey : ¬ key.HoldsText) {s : String}
    (h : e.get? key.name = some (.text s)) :
    Settles key (some (.text s)) ((readInteger e key).map integerValue) := by
  have hwrong (hs : ∀ n, Text.IsIntegerText s n → ¬ FitsInt64 n) :
      Settles key (some (.text s)) (.error (.wrongType key)) := by
    refine settles_wrongType hkey nofun nofun ?_
    intro n hn
    cases hn with
    | text h => exact hs n h
  unfold readInteger
  rw [h]
  dsimp only
  split
  · next n hn =>
    have hs := Text.readInteger?_trimChars_eq_some_iff.1 hn
    split
    · next hfit => exact .integer hkey (.text hs) hfit
    · next hfit =>
      refine hwrong fun m hm => ?_
      rwa [(StandsFor.text hm).unique (.text hs)]
  · next hn =>
    refine hwrong fun m hm => ?_
    rw [Text.readInteger?_trimChars_eq_some_iff.2 hm] at hn
    cases hn

theorem settles_readInteger (hkey : ¬ key.HoldsText) :
    Settles key (e.get? key.name) ((readInteger e key).map integerValue) := by
  cases h : e.get? key.name with
  | none =>
    rw [readInteger, h]
    exact .absent
  | some v =>
    cases v with
    | number x => exact settles_readInteger_number hkey h
    | text s => exact settles_readInteger_text hkey h
    | null =>
      rw [readInteger, h]
      exact .null
    | integer n =>
      rw [readInteger, h]
      exact settles_inRange hkey (.integer n) .integer
    | bool b =>
      rw [readInteger, h]
      exact settles_wrongType hkey nofun nofun nofun
    | array items =>
      rw [readInteger, h]
      exact settles_wrongType hkey nofun nofun nofun
    | object ms =>
      rw [readInteger, h]
      exact settles_wrongType hkey nofun nofun nofun

theorem settles_readValue (e : Extensions) (key : ExtensionKey) :
    Settles key (e.get? key.name) (readValue e key) := by
  cases key with
  | severity => exact settles_readText trivial
  | recipient => exact settles_readText trivial
  | attempts => exact settles_readInteger id
  | freshness => exact settles_readInteger id

theorem readValue_eq_ok_iff : readValue e key = .ok w ↔ Keeps key (e.get? key.name) w := by
  have h := settles_readValue e key
  constructor
  · intro hw
    rwa [hw] at h
  · intro hw
    cases hread : readValue e key with
    | error err =>
      rw [hread] at h
      obtain ⟨v, hv, hfault⟩ := h
      exact absurd (hv ▸ hw) (hfault.not_keeps w)
    | ok w' =>
      rw [hread] at h
      rw [Keeps.unique h hw]

theorem readValue_eq_error_iff :
    readValue e key = .error err ↔ ∃ v, e.get? key.name = some v ∧ Faulty key v err := by
  have h := settles_readValue e key
  constructor
  · intro herr
    rwa [herr] at h
  · rintro ⟨v, hv, hfault⟩
    cases hread : readValue e key with
    | error err' =>
      rw [hread] at h
      obtain ⟨v', hv', hfault'⟩ := h
      obtain rfl := Option.some.inj (hv.symm.trans hv')
      rw [hfault'.unique hfault]
    | ok w =>
      rw [hread, hv] at h
      exact absurd h (hfault.not_keeps w)

/-! ## The whole map is read -/

/-- The fields of the record in the order in which they are read, as they are shown. -/
def shown (r : SideRecord) : List Value :=
  ExtensionKey.all.map r.valueAt

theorem textValue_injective : Function.Injective textValue := by
  rintro (_ | s) (_ | s') h
  · rfl
  · cases h
  · cases h
  · cases h
    rfl

theorem integerValue_injective : Function.Injective integerValue := by
  rintro (_ | n) (_ | n') h
  · rfl
  · cases h
  · cases h
  · cases h
    rfl

theorem shown_injective : Function.Injective shown := by
  rintro ⟨severity, recipient, attempts, freshness⟩ ⟨severity', recipient', attempts', freshness'⟩ h
  simp only [shown, ExtensionKey.all, List.map_cons, List.map_nil, valueAt, List.cons.injEq,
    textValue_injective.eq_iff, integerValue_injective.eq_iff] at h
  obtain ⟨rfl, rfl, rfl, rfl, -⟩ := h
  rfl

theorem name_injective : Function.Injective ExtensionKey.name := by
  intro key key' h
  cases key <;> cases key' <;> first | rfl | exact absurd h (by decide)

theorem mem_all (key : ExtensionKey) : key ∈ ExtensionKey.all := by
  cases key <;> decide

theorem isEmpty_iff : e.toList.isEmpty = true ↔ e = ∅ := by
  rw [List.isEmpty_iff, Extensions.eq_empty_iff]

theorem all_isNone_iff : (ExtensionKey.all.all fun key => (e.get? key.name).isNone) = true
    ↔ ∀ key : ExtensionKey, key.name ∉ e.keys := by
  simp only [List.all_eq_true, Option.isNone_iff_eq_none, ← Extensions.get?_ne_none_iff, not_not]
  exact ⟨fun h key => h key (mem_all key), fun h key _ => h key⟩

/-- A map with one of the keys is read key by key. -/
theorem ofExtensions_of_known (hknown : ∃ key : ExtensionKey, key.name ∈ e.keys) :
    (ofExtensions e).map (Option.map shown) = (ExtensionKey.all.mapM (readValue e)).map some := by
  obtain ⟨key, hkey⟩ := hknown
  have hne : ¬ e.toList.isEmpty = true := by
    rw [isEmpty_iff]
    rintro rfl
    cases hkey
  have hsome : ¬ (ExtensionKey.all.all fun key => (e.get? key.name).isNone) = true :=
    fun h => all_isNone_iff.1 h key hkey
  unfold ofExtensions
  rw [if_neg hne, if_neg hsome]
  simp only [ExtensionKey.all, List.mapM_cons, List.mapM_nil, readValue]
  -- the first of the four that fails ends the reading
  cases readText e .severity with
  | error => rfl
  | ok =>
    cases readText e .recipient with
    | error => rfl
    | ok =>
      cases readInteger e .attempts with
      | error => rfl
      | ok =>
        cases readInteger e .freshness with
        | error => rfl
        | ok => rfl

theorem ofExtensions_empty : ofExtensions ∅ = .ok none :=
  rfl

theorem ofExtensions_of_unknown (hne : e ≠ ∅) (h : ∀ key : ExtensionKey, key.name ∉ e.keys) :
    ofExtensions e = .error (.noKnownKeys e.keys) := by
  unfold ofExtensions
  rw [if_neg (mt isEmpty_iff.1 hne), if_pos (all_isNone_iff.2 h)]
  rfl

/-- A record is read exactly if each of its fields is what is kept under its key. -/
theorem ofExtensions_eq_ok_iff (hknown : ∃ key : ExtensionKey, key.name ∈ e.keys)
    {side : Option SideRecord} : ofExtensions e = .ok side
      ↔ ∃ r, side = some r ∧ ∀ key, Keeps key (e.get? key.name) (r.valueAt key) := by
  have hread := ofExtensions_of_known hknown
  have hshown (r : SideRecord) : ExtensionKey.all.mapM (readValue e) = .ok r.shown
      ↔ ∀ key, Keeps key (e.get? key.name) (r.valueAt key) := by
    simp only [mapM_eq_ok_iff, shown, List.forall₂_map_right_iff, List.forall₂_same,
      readValue_eq_ok_iff]
    exact ⟨fun h key => h key (mem_all key), fun h key _ => h key⟩
  simp only [← hshown]
  constructor
  · intro h
    rw [h] at hread
    obtain ⟨l, hl, hsome⟩ := map_eq_ok hread.symm
    obtain ⟨r, rfl, rfl⟩ := Option.map_eq_some_iff.1 hsome.symm
    exact ⟨r, rfl, hl⟩
  · rintro ⟨r, rfl, h⟩
    rw [h] at hread
    obtain ⟨side, hside, hsome⟩ := map_eq_ok hread
    obtain ⟨r', rfl, hr'⟩ := Option.map_eq_some_iff.1 hsome
    rw [hside, shown_injective hr']

/-- The error of a map is that of the first value that is refused. -/
theorem ofExtensions_eq_error_iff (hknown : ∃ key : ExtensionKey, key.name ∈ e.keys) :
    ofExtensions e = .error err ↔ ∃ key, FirstFault e key err := by
  have hread := ofExtensions_of_known hknown
  have hfirst : ExtensionKey.all.mapM (readValue e) = .error err ↔ ∃ key, FirstFault e key err := by
    simp only [mapM_eq_error_iff, readValue_eq_ok_iff, readValue_eq_error_iff]
    constructor
    · rintro ⟨before, key, after, hall, hbefore, hrefused⟩
      exact ⟨key, ⟨before, after, hall, hbefore⟩, hrefused⟩
    · rintro ⟨key, ⟨before, after, hall, hbefore⟩, hrefused⟩
      exact ⟨before, key, after, hall, hbefore, hrefused⟩
  rw [← hfirst]
  constructor
  · intro h
    rw [h] at hread
    exact map_eq_error hread.symm
  · intro h
    rw [h] at hread
    exact map_eq_error hread

theorem FirstFault.known (h : FirstFault e key err) :
    ∃ key : ExtensionKey, key.name ∈ e.keys := by
  obtain ⟨v, hv, -⟩ := h.refused
  exact ⟨key, Extensions.get?_ne_none_iff.1 (hv ▸ Option.some_ne_none v)⟩

/-- The coercion of a map has the result that the map is read with. -/
theorem coercion_ofExtensions (e : Extensions) : Coercion e (ofExtensions e) := by
  by_cases hempty : e = ∅
  · rw [hempty, ofExtensions_empty]
    exact .empty rfl
  by_cases hunknown : ∀ key : ExtensionKey, key.name ∉ e.keys
  · rw [ofExtensions_of_unknown hempty hunknown]
    exact .unknown hempty hunknown
  have hknown : ∃ key : ExtensionKey, key.name ∈ e.keys := by
    simpa only [not_forall, not_not] using hunknown
  cases h : ofExtensions e with
  | error err =>
    obtain ⟨key, hfirst⟩ := (ofExtensions_eq_error_iff hknown).1 h
    exact .fault hfirst
  | ok side =>
    obtain ⟨r, rfl, hkept⟩ := (ofExtensions_eq_ok_iff hknown).1 h
    exact .record hknown hkept

/-- A map has no other coercion. -/
theorem Coercion.eq {result : Except ExtensionError (Option SideRecord)} (h : Coercion e result) :
    ofExtensions e = result := by
  cases h with
  | empty h => rw [h, ofExtensions_empty]
  | unknown hne h => exact ofExtensions_of_unknown hne h
  | record hknown h => exact (ofExtensions_eq_ok_iff hknown).2 ⟨_, rfl, h⟩
  | fault h => exact (ofExtensions_eq_error_iff h.known).2 ⟨_, h⟩

/-- A map that is accepted is empty, or it names a key and has a record of what is kept. -/
theorem eq_empty_or_exists_of_ofExtensions {side : Option SideRecord}
    (h : ofExtensions e = .ok side) :
    (e = ∅ ∧ side = none) ∨ ∃ r, side = some r ∧ (∃ key : ExtensionKey, key.name ∈ e.keys)
      ∧ ∀ key, Keeps key (e.get? key.name) (r.valueAt key) := by
  have hcoerced := coercion_ofExtensions e
  rw [h] at hcoerced
  cases hcoerced with
  | empty hempty => exact .inl ⟨hempty, rfl⟩
  | record hknown hkept => exact .inr ⟨_, rfl, hknown, hkept⟩

/-- What is made of an extension map is decided by the coercion, for every map and in one way. -/
theorem coercion_is_exact {result : Except ExtensionError (Option SideRecord)} :
    ofExtensions e = result ↔ Coercion e result := by
  refine ⟨?_, Coercion.eq⟩
  rintro rfl
  exact coercion_ofExtensions e

/-- The least 64-bit integer is kept as a double, the double after the greatest one is not. -/
example :
    ofExtensions (Extensions.empty.insert "freshnessThreshold" (.number (-9223372036854775808)))
      = .ok (some { freshness := some Text.minInt64 })
    ∧ ofExtensions (Extensions.empty.insert "freshnessThreshold" (.number 9223372036854775808))
      = .error (.outOfRange .freshness) := by
  decide +kernel

end SideRecord

end AlertRegistry
