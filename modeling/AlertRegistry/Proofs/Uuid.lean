import AlertRegistry.Uuid
import Mathlib

/-!
# Identifiers read back

The hyphenated lower-case form of an identifier denotes that identifier (`ofString?_toString`), and
so no two identifiers share it (`toString_injective`). The reader first asks for the other accepted
forms; `toChars` meets none of their conditions, because it has 36 characters and starts with a
hexadecimal digit.
-/

namespace AlertRegistry

namespace Text

/-- Written digits are taken off the front again. -/
theorem takeHex_map_hexDigit (ds : List (Fin 16)) (rest : List Char) :
    takeHex ds.length (ds.map hexDigit ++ rest) = some (ds, rest) := by
  induction ds with
  | nil => rfl
  | cons d ds ih =>
    rw [List.length_cons, List.map_cons, List.cons_append, takeHex, hexValue?_hexDigit, ih]
    rfl

/-- A written digit begins neither the scheme nor a braced identifier. -/
theorem toLower_hexDigit_ne (d : Fin 16) :
    (hexDigit d).toLower ≠ 'u' ∧ hexDigit d ≠ '\x7b' := by
  revert d
  decide

end Text

namespace Uuid

/-- Groups of digits are read back as they were written. -/
theorem readGroups_writeGroups (ns : List Nat) (ds : List (Fin 16)) (h : ds.length = ns.sum) :
    readGroups ns (writeGroups ns ds) = some ds := by
  induction ns generalizing ds with
  | nil =>
    rw [List.sum_nil, List.length_eq_zero_iff] at h
    rw [h]
    rfl
  | cons n ns ih =>
    have hn : (ds.take n).length = n := by
      rw [List.length_take]
      rw [List.sum_cons] at h
      omega
    -- the first group is read up to the hyphen, or to the end
    have hread (rest : List Char) :
        Text.takeHex n ((ds.take n).map Text.hexDigit ++ rest) = some (ds.take n, rest) := by
      have := Text.takeHex_map_hexDigit (ds.take n) rest
      rwa [hn] at this
    cases ns with
    | nil =>
      have hall : ds.take n = ds := List.take_of_length_le (by simp [h])
      have hlast := hread []
      rw [List.append_nil, hall] at hlast
      simp only [readGroups, writeGroups, hall, hlast, Option.bind_eq_bind, Option.bind_some]
      rfl
    | cons m ns =>
      have hrest : (ds.drop n).length = (m :: ns).sum := by
        rw [List.length_drop, h, List.sum_cons]
        omega
      simp only [readGroups, writeGroups, hread, Option.bind_eq_bind, Option.bind_some,
        ih _ hrest, Option.pure_def, List.take_append_drop]

theorem length_writeGroups (n : Nat) (ns : List Nat) (ds : List (Fin 16))
    (h : ds.length = (n :: ns).sum) :
    (writeGroups (n :: ns) ds).length = (n :: ns).sum + ns.length := by
  induction ns generalizing n ds with
  | nil => simp_all [writeGroups]
  | cons m ns ih =>
    have hrest : (ds.drop n).length = (m :: ns).sum := by
      rw [List.length_drop, h, List.sum_cons]
      omega
    rw [writeGroups, List.length_append, List.length_cons, ih m _ hrest, List.length_map,
      List.length_take]
    simp only [List.sum_cons, List.length_cons] at h ⊢
    omega

/-- The hyphenated form has 36 characters. -/
theorem length_toChars (u : Uuid) : u.toChars.length = 36 := by
  have h := length_writeGroups 8 [4, 4, 4, 12] u.digits u.length_digits
  simpa [toChars, groups] using h

/-- The hyphenated form begins with a hexadecimal digit. -/
theorem exists_toChars_eq_cons (u : Uuid) : ∃ d cs, u.toChars = Text.hexDigit d :: cs := by
  obtain ⟨ds, hds⟩ := u
  match ds, hds with
  | d :: ds, _ => exact ⟨d, _, rfl⟩

theorem read?_toChars (u : Uuid) : read? u.toChars = some u := by
  obtain ⟨d, cs, hcs⟩ := exists_toChars_eq_cons u
  obtain ⟨hscheme, hbrace⟩ := Text.toLower_hexDigit_ne d
  -- none of the three other forms: bare digits, with the scheme, or in braces
  have h₁ : ¬ u.toChars.length = 32 := by rw [length_toChars]; decide
  have h₂ : ¬ (u.toChars.take scheme.length).map Char.toLower = scheme := by
    rw [hcs]
    intro h
    exact hscheme (List.cons.inj h).1
  have h₃ : ¬ (u.toChars.head? = some '\x7b' ∧ u.toChars.getLast? = some '\x7d') := by
    rw [hcs]
    rintro ⟨h, -⟩
    exact hbrace (Option.some.inj h)
  have hread : readGroups groups u.toChars = some u.digits :=
    readGroups_writeGroups groups u.digits u.length_digits
  rw [read?, if_neg h₁, if_neg h₂, if_neg h₃, readHyphenated?, hread]
  exact ofDigits?_eq_some_iff.2 rfl

/-- An identifier is denoted by its text. -/
@[simp] theorem ofString?_toString (u : Uuid) : ofString? (toString u) = some u := by
  show read? (String.ofList u.toChars).toList = some u
  rw [String.toList_ofList, read?_toChars]

/-- Different identifiers have different texts. -/
theorem toString_injective {u v : Uuid} (h : toString u = toString v) : u = v := by
  have hu := ofString?_toString u
  rw [h, ofString?_toString] at hu
  exact (Option.some.inj hu).symm

end Uuid

end AlertRegistry
