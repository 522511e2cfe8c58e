import AlertRegistry.Proofs.Decimal.Literal
import AlertRegistry.Proofs.SideRecord.Coercion

/-!
# Integer literals in extension maps

A map is read from a JSON text, and an integer may be written there with any number of digits. It
reaches the side-record as a 64-bit integer or as a double. A double beyond the range of 64 bits is
out of range like the integer, but below the least 64-bit integer there are 1024 integers that are
no doubles and have this one next to them. They are taken for it (`taken`), and nothing tells that
they are not.

Otherwise a literal does what the text of the same digits does
(`integer_literals_are_stored_or_refused`), apart from the error when it is refused.
-/

namespace AlertRegistry.SideRecord

open Json (Value Tree)
open Text (FitsInt64)
open Decimal (Numeral)

variable {e : Extensions} {key : ExtensionKey} {m : Numeral} {n : ℤ} {v : Value}

/-- The text is a JSON object in which the last member with the key has the literal of the integer.
-/
def GivesLiteral (s key : String) (n : ℤ) : Prop :=
  ∃ t m, Tree.ofString? s = some t ∧ t.Gives key (.numeral m) ∧ m.IsLiteral n

/-- The integer that a literal is taken for: its own, unless the double next to it is the least
64-bit integer. -/
def taken (n : ℤ) : ℤ :=
  if -2 ^ 63 - 1024 ≤ n ∧ n < -2 ^ 63 then Text.minInt64 else n

/-- The value stands for the integer, or exceeds 64 bits if the integer does. -/
def IsWorth (v : Value) (n : ℤ) : Prop :=
  (FitsInt64 n → StandsFor v n) ∧ (¬ FitsInt64 n → Exceeds v)

/-- The map has a record, with the integer under the key. -/
def Stores (e : Extensions) (key : ExtensionKey) (n : ℤ) : Prop :=
  ∃ r, ofExtensions e = .ok (some r) ∧ r.valueAt key = .integer n

/-- The map is refused for the value under another key. -/
def FailsElsewhere (e : Extensions) (key : ExtensionKey) : Prop :=
  ∃ other err, other ≠ key ∧ FirstFault e other err ∧ ofExtensions e = .error err

/-! ## Integers that are written -/

theorem isLiteral_integerNumeral (n : ℤ) : (Tree.integerNumeral n).IsLiteral n where
  digits := Text.isDigit_of_mem_digitsOfNat
  fraction := rfl
  exponent := rfl
  value := by
    simp only [Tree.integerNumeral, Text.natOfDigits_digitsOfNat, decide_eq_true_eq]
    split <;> omega

/-- The text of an object with an integer as its only member. -/
def singleMember (key : String) (n : ℤ) : String :=
  String.ofList (Json.enclose [Json.writeMember key (Json.writeInteger n)])

theorem givesLiteral_singleMember (key : String) (n : ℤ) :
    GivesLiteral (singleMember key n) key n := by
  have hwritten := Tree.writtenAs_object (.cons ((Tree.writtenAs_integer n).member key) .nil)
  exact ⟨_, _, hwritten.ofString?, ⟨[], _, [], rfl, Json.Piece.join_map_char _,
    List.forall_mem_nil _⟩, isLiteral_integerNumeral n⟩

theorem isIntegerText_writeInteger (n : ℤ) :
    Text.IsIntegerText (String.ofList (Json.writeInteger n)) n := by
  refine ⟨[], Json.writeInteger n, [], ?_, List.forall_mem_nil _, List.forall_mem_nil _, ?_⟩
  · rw [String.toList_ofList, List.nil_append, List.append_nil]
  · have hne := Text.digitsOfNat_ne_nil n.natAbs
    have hdigits := Text.isDigit_of_mem_digitsOfNat (n := n.natAbs)
    have hvalue := Text.natOfDigits_digitsOfNat n.natAbs
    unfold Json.writeInteger
    split
    · have h := Text.IsInteger.minus hne hdigits
      rwa [hvalue, show -(n.natAbs : ℤ) = n by omega] at h
    · have h := Text.IsInteger.unsigned hne hdigits
      rwa [hvalue, show (n.natAbs : ℤ) = n by omega] at h

/-! ## What a literal is read as -/

theorem taken_eq_self_iff : taken n = n ↔ n < -2 ^ 63 - 1024 ∨ -2 ^ 63 ≤ n := by
  unfold taken Text.minInt64
  split <;> omega

/-- A double beyond `2 ^ 63` is an integer out of range, whichever its sign. -/
theorem exceeds_of_denotes {x : Float} {negative : Bool} {q : ℚ}
    (h : Double.Denotes x negative q) (hq : 2 ^ 63 < q) : Exceeds (.number x) := by
  obtain ⟨k, rfl⟩ := h.exists_natCast ((by norm_num : (2 ^ 53 : ℚ) ≤ 2 ^ 63).trans hq.le)
  have hk : 2 ^ 63 < k := mod_cast hq
  have hequals := h.equals
  cases negative with
  | false =>
    refine .number (n := k) (mod_cast hequals) ?_
    unfold FitsInt64 Text.maxInt64
    omega
  | true =>
    refine .number (n := -k) (mod_cast hequals) ?_
    unfold FitsInt64 Text.minInt64
    omega

theorem StandsFor.isWorth (h : StandsFor v n) (hn : FitsInt64 n) : IsWorth v n :=
  ⟨fun _ => h, fun hnot => absurd hn hnot⟩

theorem Exceeds.isWorth (h : Exceeds v) (hn : ¬ FitsInt64 n) : IsWorth v n :=
  ⟨fun hfits => absurd hfits hn, fun _ => h⟩

/-- The double that is read for a literal is worth what the literal is taken for. -/
theorem isWorth_of_float? {x : Float} (hm : m.IsLiteral n) (hx : m.float? = some x)
    (hnone : m.integer? = none) : IsWorth (.number x) (taken n) := by
  have hvalue := hm.value
  rcases hm.of_integer?_eq_none hnone with ⟨hneg, hzero⟩ | ⟨hneg, hbig⟩ | ⟨hneg, hbig⟩
  · -- a negative zero is zero
    have hden := hm.denotes_of_lt hx (by rw [hzero]; norm_num)
    rw [hneg, hzero, Nat.cast_zero, Double.nearest_zero] at hden
    have hequals : Double.Equals x (0 : ℤ) := by simpa using hden.equals
    have hn : n = 0 := by rw [hvalue, hneg, if_pos rfl, hzero, Nat.cast_zero, neg_zero]
    rw [hn, taken_eq_self_iff.2 (.inr (by norm_num))]
    exact (StandsFor.number hequals).isWorth (by decide)
  · obtain ⟨q, hden, hnear, hfar⟩ := hm.denotes_of_limit_lt hx hbig
    rw [hneg] at hden hvalue
    rw [if_pos rfl] at hvalue
    rcases le_or_gt (Text.natOfDigits m.whole) (2 ^ 63 + 1024) with hle | hgt
    · have htaken : taken n = Text.minInt64 := if_pos (by omega)
      have hequals : Double.Equals x (-2 ^ 63) := hnear hle ▸ hden.equals
      have hcast : ((Text.minInt64 : ℤ) : ℚ) = -2 ^ 63 := by
        norm_num [Text.minInt64]
      rw [htaken]
      exact (StandsFor.number (hcast ▸ hequals)).isWorth (by decide)
    · rw [taken_eq_self_iff.2 (.inl (by omega))]
      refine (exceeds_of_denotes hden (hfar hgt)).isWorth ?_
      unfold FitsInt64 Text.minInt64
      omega
  · obtain ⟨q, hden, -, hfar⟩ := hm.denotes_of_limit_lt hx (by omega)
    rw [hneg, if_neg Bool.false_ne_true] at hvalue
    rw [taken_eq_self_iff.2 (.inr (by omega))]
    refine (exceeds_of_denotes hden (hfar (by omega))).isWorth ?_
    unfold FitsInt64 Text.maxInt64
    omega

/-- The value that is read for a literal is worth what the literal is taken for. -/
theorem isWorth_of_value? {d : ℕ} (hm : m.IsLiteral n)
    (hv : (Tree.numeral m).value? d = some v) : IsWorth v (taken n) := by
  rw [Tree.value?] at hv
  split at hv
  · next k hk =>
    obtain rfl := Option.some.inj hv
    have hlo := (Numeral.bounds_of_integer? hk).1
    obtain rfl := hm.eq_of_integer? hk
    rw [taken_eq_self_iff.2 (.inr hlo)]
    exact ⟨fun _ => .integer k, .integer⟩
  · next hnone =>
    obtain ⟨x, hx, rfl⟩ := Option.map_eq_some_iff.1 hv
    exact isWorth_of_float? hm hx hnone

/-! ## What one value decides -/

/-- What can be kept of a value is stored, if nothing else is at fault. -/
theorem stores_or_failsElsewhere (hmem : key.name ∈ e.keys)
    (hkept : Keeps key (e.get? key.name) (.integer n)) : Stores e key n ∨ FailsElsewhere e key := by
  cases h : ofExtensions e with
  | ok side =>
    obtain ⟨r, rfl, hr⟩ := (ofExtensions_eq_ok_iff ⟨key, hmem⟩).1 h
    exact .inl ⟨r, h, (hr key).unique hkept⟩
  | error err =>
    obtain ⟨other, hfirst⟩ := (ofExtensions_eq_error_iff ⟨key, hmem⟩).1 h
    refine .inr ⟨other, err, ?_, hfirst, h⟩
    rintro rfl
    obtain ⟨v, hv, hfault⟩ := hfirst.refused
    exact hfault.not_keeps _ (hv ▸ hkept)

/-- A value that is refused has the map refused, if nothing before it is at fault. -/
theorem eq_error_or_failsElsewhere {err : ExtensionError} (hv : e.get? key.name = some v)
    (hfault : Faulty key v err) : ofExtensions e = .error err ∨ FailsElsewhere e key := by
  have hmem : key.name ∈ e.keys := Extensions.get?_ne_none_iff.1 (hv ▸ Option.some_ne_none v)
  cases h : ofExtensions e with
  | ok side =>
    obtain ⟨r, -, hr⟩ := (ofExtensions_eq_ok_iff ⟨key, hmem⟩).1 h
    exact absurd (hv ▸ hr key) (hfault.not_keeps _)
  | error err' =>
    obtain ⟨other, hfirst⟩ := (ofExtensions_eq_error_iff ⟨key, hmem⟩).1 h
    by_cases hother : other = key
    · subst hother
      obtain ⟨v', hv', hfault'⟩ := hfirst.refused
      obtain rfl := Option.some.inj (hv.symm.trans hv')
      exact .inl (congrArg _ (hfault'.unique hfault))
    · exact .inr ⟨other, err', hother, hfirst, h⟩

/-- A value in place of another one leads to the same record if the same is kept of it. -/
theorem ofExtensions_insert_eq_ok_iff (hmem : key.name ∈ e.keys)
    (hsame : ∀ w, Keeps key (some v) w ↔ Keeps key (e.get? key.name) w)
    {side : Option SideRecord} :
    ofExtensions (e.insert key.name v) = .ok side ↔ ofExtensions e = .ok side := by
  have hnew : (e.insert key.name v).get? key.name = some v := Extensions.get?_insert_self
  have hmem' : key.name ∈ (e.insert key.name v).keys :=
    Extensions.get?_ne_none_iff.1 (hnew ▸ Option.some_ne_none v)
  rw [ofExtensions_eq_ok_iff ⟨key, hmem⟩, ofExtensions_eq_ok_iff ⟨key, hmem'⟩]
  refine exists_congr fun r => and_congr_right fun _ => forall_congr' fun k => ?_
  by_cases hk : k = key
  · rw [hk, hnew, hsame]
  · rw [Extensions.get?_insert_of_ne (name_injective.ne hk)]

/-! ## Literals in a map -/

/-- The integer of a literal under a numeric key is stored or refused by what it is taken for, which
is itself with 1024 exceptions right below the least 64-bit integer. And the map has the record that
it has with the text of the same digits, if it has any. -/
theorem integer_literals_are_stored_or_refused {s : String} (hkey : ¬ key.HoldsText)
    (hs : GivesLiteral s key.name n) (he : Extensions.ofString? s = some e) :
    (taken n = n ↔ n < -2 ^ 63 - 1024 ∨ -2 ^ 63 ≤ n)
    ∧ (FitsInt64 (taken n) → Stores e key (taken n) ∨ FailsElsewhere e key)
    ∧ (¬ FitsInt64 (taken n) → ofExtensions e = .error (.outOfRange key) ∨ FailsElsewhere e key)
    ∧ ∀ side, ofExtensions
        (e.insert key.name (.text (String.ofList (Json.writeInteger (taken n))))) = .ok side
      ↔ ofExtensions e = .ok side := by
  obtain ⟨t, m, ht, hgives, hm⟩ := hs
  obtain ⟨d, v, hv, hget⟩ := Extensions.get?_of_ofString? ht hgives he
  obtain ⟨hfits, hexceeds⟩ := isWorth_of_value? hm hv
  have hmem : key.name ∈ e.keys := Extensions.get?_ne_none_iff.1 (hget ▸ Option.some_ne_none v)
  refine ⟨taken_eq_self_iff, fun hn => ?_, fun hn => ?_, fun side => ?_⟩
  · refine stores_or_failsElsewhere hmem ?_
    rw [hget]
    exact .integer hkey (hfits hn) hn
  · exact eq_error_or_failsElsewhere hget (.outOfRange hkey (hexceeds hn))
  · refine ofExtensions_insert_eq_ok_iff hmem fun w => ?_
    rw [StandsFor.keeps_iff hkey (.text (isIntegerText_writeInteger _)), hget]
    by_cases hn : FitsInt64 (taken n)
    · rw [StandsFor.keeps_iff hkey (hfits hn)]
    · have hfault := Faulty.outOfRange hkey (hexceeds hn)
      exact iff_of_false (fun h => hn h.1) (hfault.not_keeps w)

/-- A map with the greatest integer that is refused for being too small. -/
def refusedText : String := "\x7b\x22freshnessThreshold\x22:-9223372036854776833\x7d"

theorem refused_text_is_out_of_range : ∃ e, Extensions.ofString? refusedText = some e
    ∧ ofExtensions e = .error (.outOfRange .freshness) := by
  have hkeys : (Extensions.ofString? refusedText).map Extensions.keys
      = some [ExtensionKey.freshness.name] := by decide +kernel
  obtain ⟨e, he, hkeys⟩ := Option.map_eq_some_iff.1 hkeys
  have htext : singleMember ExtensionKey.freshness.name (-9223372036854776833) = refusedText := by
    decide +kernel
  have hgives := givesLiteral_singleMember ExtensionKey.freshness.name (-9223372036854776833)
  rw [htext] at hgives
  obtain ⟨-, -, hrefused, -⟩ := integer_literals_are_stored_or_refused id hgives he
  refine ⟨e, he, (hrefused (by decide)).resolve_right ?_⟩
  -- no other key is there to be at fault
  rintro ⟨other, err, hother, hfirst, -⟩
  obtain ⟨v, hv, -⟩ := hfirst.refused
  have hmem := Extensions.get?_ne_none_iff.1 (hv ▸ Option.some_ne_none v)
  rw [hkeys, List.mem_singleton] at hmem
  exact hother (name_injective hmem)

/-- A map with the integer right below the least 64-bit integer. -/
def takenText : String := "\x7b\x22maxCheckAttempts\x22:-9223372036854775809\x7d"

/-- The map is not refused; another integer is stored. -/
theorem taken_text_is_stored :
    GivesLiteral takenText ExtensionKey.attempts.name (-9223372036854775809)
    ∧ ¬ FitsInt64 (-9223372036854775809)
    ∧ ∃ e, Extensions.ofString? takenText = some e
      ∧ ofExtensions e = .ok (some { attempts := some (-9223372036854775808) }) := by
  have htext : singleMember ExtensionKey.attempts.name (-9223372036854775809) = takenText := by
    decide +kernel
  have hgives := givesLiteral_singleMember ExtensionKey.attempts.name (-9223372036854775809)
  rw [htext] at hgives
  have hstored : (Extensions.ofString? takenText).map ofExtensions
      = some (.ok (some { attempts := some (-9223372036854775808) })) := by decide +kernel
  exact ⟨hgives, by decide, Option.map_eq_some_iff.1 hstored⟩

end AlertRegistry.SideRecord
