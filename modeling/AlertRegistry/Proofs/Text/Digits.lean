import AlertRegistry.Text.Digits
import Mathlib.Data.List.Induction
import Mathlib.Data.List.TakeWhile
import Mathlib.Tactic.Ring

/-!
# The values of runs of digits

How a run of digits is found at the front of a text, and what its value is when it is cut, extended
or stripped:

* a reader that takes digits while there are any gets back exactly a run that was written before
  something else (`takeWhile_isDigit_append`, `dropWhile_isDigit_append`);
* the value of a run is positional (`natOfDigits_append`), so zeros on the right scale it and zeros
  on the left do not count;
* a run without zeros on the left is the one that is written for its value
  (`digitsOfNat_natOfDigits`), and any run is that with its zeros put back (`padLeft_digitsOfNat`);
* zeros stripped from the end can be put back (`stripZeros_append_replicate`).
-/

namespace AlertRegistry.Text

/-! ## Runs at the front of a text -/

/-- No digit stands at the front, so that a run of digits may end there. -/
def EndsRun (cs : List Char) : Prop :=
  ∀ c ∈ cs.head?, c.isDigit = false

theorem endsRun_cons {c : Char} {cs : List Char} (h : c.isDigit = false) : EndsRun (c :: cs) := by
  intro d hd
  cases hd
  exact h

theorem takeWhile_isDigit_append {ds rest : List Char} (hd : ∀ c ∈ ds, c.isDigit = true)
    (hr : EndsRun rest) : (ds ++ rest).takeWhile Char.isDigit = ds := by
  rw [List.takeWhile_append_of_pos hd]
  cases rest with
  | nil => simp
  | cons c rest => rw [List.takeWhile_cons_of_neg (by simp [hr c rfl]), List.append_nil]

theorem dropWhile_isDigit_append {ds rest : List Char} (hd : ∀ c ∈ ds, c.isDigit = true)
    (hr : EndsRun rest) : (ds ++ rest).dropWhile Char.isDigit = rest := by
  rw [List.dropWhile_append_of_pos hd]
  cases rest with
  | nil => rfl
  | cons c rest => rw [List.dropWhile_cons_of_neg (by simp [hr c rfl])]

/-! ## Values -/

theorem isDigit_of_mem_digitsOfNat {n : Nat} : ∀ c ∈ digitsOfNat n, c.isDigit = true :=
  fun _ hc => Nat.isDigit_of_mem_toDigits (by decide) (by decide) hc

theorem digitsOfNat_ne_nil (n : Nat) : digitsOfNat n ≠ [] := Nat.toDigits_ne_nil

theorem isDigit_of_mem_zeros {k : Nat} : ∀ c ∈ List.replicate k '0', c.isDigit = true := by
  intro c hc
  rw [List.eq_of_mem_replicate hc]
  rfl

@[simp] theorem natOfDigits_nil : natOfDigits [] = 0 := rfl

/-- The value of a run is positional. -/
theorem natOfDigits_append (ds es : List Char) :
    natOfDigits (ds ++ es) = natOfDigits ds * 10 ^ es.length + natOfDigits es := by
  unfold natOfDigits
  rw [Nat.ofDigitChars_append, Nat.ofDigitChars_eq_ofDigitChars_zero]
  ring

@[simp] theorem natOfDigits_replicate_zero (k : Nat) :
    natOfDigits (List.replicate k '0') = 0 := by
  unfold natOfDigits
  rw [Nat.ofDigitChars_replicate_zero, Nat.mul_zero]

/-- Zeros on the right scale the value. -/
theorem natOfDigits_append_zeros (ds : List Char) (k : Nat) :
    natOfDigits (ds ++ List.replicate k '0') = natOfDigits ds * 10 ^ k := by
  rw [natOfDigits_append, natOfDigits_replicate_zero, List.length_replicate, Nat.add_zero]

/-- Zeros on the left do not count. -/
theorem natOfDigits_zeros_append (k : Nat) (ds : List Char) :
    natOfDigits (List.replicate k '0' ++ ds) = natOfDigits ds := by
  rw [natOfDigits_append, natOfDigits_replicate_zero, Nat.zero_mul, Nat.zero_add]

theorem natOfDigits_padLeft (width : Nat) (ds : List Char) :
    natOfDigits (padLeft width ds) = natOfDigits ds :=
  natOfDigits_zeros_append _ _

theorem length_padLeft {width : Nat} {ds : List Char} (h : ds.length ≤ width) :
    (padLeft width ds).length = width := by
  unfold padLeft
  rw [List.length_append, List.length_replicate]
  omega

theorem length_digitsOfNat_le {n k : Nat} (hk : 0 < k) (h : n < 10 ^ k) :
    (digitsOfNat n).length ≤ k :=
  (Nat.length_toDigits_le_iff (by decide) hk).2 h

/-- A digit is the one that is written for its value. -/
theorem exists_digitChar {c : Char} (h : c.isDigit = true) :
    ∃ k < 10, c = Nat.digitChar k ∧ natOfDigits [c] = k := by
  simp only [Char.isDigit, Bool.and_eq_true, decide_eq_true_eq] at h
  have hlo : 48 ≤ c.toNat := UInt32.le_iff_toNat_le.1 h.1
  have hhi : c.toNat ≤ 57 := UInt32.le_iff_toNat_le.1 h.2
  have hk : c.toNat - 48 < 10 := by omega
  refine ⟨c.toNat - 48, hk, ?_, ?_⟩
  · apply Char.toNat_inj.1
    rw [Nat.toNat_digitChar_of_lt_ten hk]
    omega
  · unfold natOfDigits
    rw [Nat.ofDigitChars_cons, Nat.ofDigitChars_nil]
    exact Nat.zero_add _

/-- A value has fewer digits than its run has places. -/
theorem natOfDigits_lt {ds : List Char} (hd : ∀ c ∈ ds, c.isDigit = true) :
    natOfDigits ds < 10 ^ ds.length := by
  induction ds with
  | nil => simp
  | cons c ds ih =>
    obtain ⟨k, hk, -, hvalue⟩ := exists_digitChar (hd c (by simp))
    have htail := ih fun d hd' => hd d (List.mem_cons_of_mem c hd')
    rw [← List.singleton_append, natOfDigits_append, hvalue, List.length_append,
      List.length_singleton, Nat.pow_add]
    -- the first digit takes up at most nine of ten tail ranges
    have hfirst : k * 10 ^ ds.length ≤ 9 * 10 ^ ds.length := Nat.mul_le_mul_right _ (by omega)
    omega

/-! ## The decimal digits of a natural number -/

theorem lt_pow_length_digitsOfNat (n : Nat) : n < 10 ^ (digitsOfNat n).length :=
  (Nat.length_toDigits_le_iff (by decide) Nat.length_toDigits_pos).1 le_rfl

/-- There are no zeros on the left. -/
theorem pow_length_digitsOfNat_le {n : Nat} (hn : 0 < n) :
    10 ^ ((digitsOfNat n).length - 1) ≤ n := by
  rcases Nat.eq_zero_or_pos ((digitsOfNat n).length - 1) with h | h
  · rw [h, Nat.pow_zero]
    exact hn
  · -- a smaller number would have fewer digits
    by_contra hlt
    have := length_digitsOfNat_le h (not_le.1 hlt)
    omega

theorem head?_digitsOfNat_ne {n : Nat} (hn : 0 < n) : (digitsOfNat n).head? ≠ some '0' := by
  intro h
  obtain ⟨ds, hds⟩ := List.head?_eq_some_iff.1 h
  -- without the zero the value is the same, and too small for so many digits
  have hle := pow_length_digitsOfNat_le hn
  have hvalue : natOfDigits ds = n := by
    rw [← natOfDigits_digitsOfNat n, hds]
    exact (natOfDigits_zeros_append 1 ds).symm
  have hlt : natOfDigits ds < 10 ^ ds.length :=
    natOfDigits_lt fun c hc => isDigit_of_mem_digitsOfNat c (hds ▸ List.mem_cons_of_mem _ hc)
  rw [hds, List.length_cons, Nat.add_sub_cancel] at hle
  omega

/-- A run without zeros on the left is the one that is written for its value. -/
theorem digitsOfNat_natOfDigits {ds : List Char} (hd : ∀ c ∈ ds, c.isDigit = true)
    (hne : ds ≠ []) (hhead : ds.head? = some '0' → ds = ['0']) :
    digitsOfNat (natOfDigits ds) = ds := by
  induction ds using List.reverseRecOn with
  | nil => exact absurd rfl hne
  | append_singleton ds c ih =>
    obtain ⟨k, hk, rfl, hvalue⟩ := exists_digitChar (hd c (by simp))
    have hdigit : digitsOfNat k = [Nat.digitChar k] := Nat.toDigits_of_lt_base hk
    rw [natOfDigits_append, hvalue]
    by_cases hnil : ds = []
    · subst hnil
      rw [natOfDigits_nil, Nat.zero_mul, Nat.zero_add, hdigit]
      rfl
    · have hfirst : ds.head? ≠ some '0' := by
        intro h
        obtain ⟨es, rfl⟩ := List.head?_eq_some_iff.1 h
        simpa using hhead rfl
      have hinit := ih (fun d h => hd d (List.mem_append_left _ h)) hnil fun h => absurd h hfirst
      -- a run that is worth nothing would be a zero
      have hpos : 0 < natOfDigits ds := by
        rw [Nat.pos_iff_ne_zero]
        intro hzero
        rw [hzero] at hinit
        exact hfirst (hinit ▸ rfl)
      have hstep : digitsOfNat (natOfDigits ds) ++ digitsOfNat k
          = digitsOfNat (10 * natOfDigits ds + k) :=
        Nat.toDigits_append_toDigits (by decide) hpos hk
      rw [List.length_singleton, Nat.pow_one, Nat.mul_comm, ← hstep, hinit, hdigit]

/-- A run is what is written for its value, with the zeros on the left put back. -/
theorem padLeft_digitsOfNat {ds : List Char} (hd : ∀ c ∈ ds, c.isDigit = true) (hne : ds ≠ []) :
    padLeft ds.length (digitsOfNat (natOfDigits ds)) = ds := by
  induction ds with
  | nil => exact absurd rfl hne
  | cons c ds ih =>
    have htail : ∀ d ∈ ds, d.isDigit = true := fun d h => hd d (List.mem_cons_of_mem c h)
    by_cases hc : c = '0'
    · subst hc
      by_cases hnil : ds = []
      · subst hnil
        rfl
      · have hlen : (digitsOfNat (natOfDigits ds)).length ≤ ds.length :=
          length_digitsOfNat_le (List.length_pos_iff.2 hnil) (natOfDigits_lt htail)
        have hvalue : natOfDigits ('0' :: ds) = natOfDigits ds := natOfDigits_zeros_append 1 ds
        rw [hvalue, List.length_cons, padLeft, Nat.succ_sub hlen, List.replicate_succ]
        exact congrArg ('0' :: ·) (ih htail hnil)
    · have hself : digitsOfNat (natOfDigits (c :: ds)) = c :: ds :=
        digitsOfNat_natOfDigits hd hne fun h => absurd (Option.some.inj h) hc
      rw [hself, padLeft, Nat.sub_self]
      rfl

/-! ## Zeros at the end -/

/-- The digits without the zeros at their end. -/
def stripZeros (ds : List Char) : List Char :=
  (ds.reverse.dropWhile (· = '0')).reverse

/-- Zeros stripped from the end can be put back. -/
theorem stripZeros_append_replicate (ds : List Char) :
    stripZeros ds ++ List.replicate (ds.length - (stripZeros ds).length) '0' = ds := by
  have hzeros : (ds.reverse.takeWhile (· = '0')).reverse
      = List.replicate (ds.length - (stripZeros ds).length) '0' := by
    rw [List.eq_replicate_iff]
    constructor
    · have hlen := congrArg List.length
        (List.takeWhile_append_dropWhile (p := (decide <| · = '0')) (l := ds.reverse))
      simp only [List.length_append, List.length_reverse] at hlen
      simp only [stripZeros, List.length_reverse]
      omega
    · intro c hc
      have h := List.mem_takeWhile_imp (List.mem_reverse.1 hc)
      simpa using h
  rw [← hzeros, stripZeros, ← List.reverse_append, List.takeWhile_append_dropWhile,
    List.reverse_reverse]

theorem length_stripZeros_le (ds : List Char) : (stripZeros ds).length ≤ ds.length := by
  simp only [stripZeros, List.length_reverse]
  exact (List.dropWhile_sublist _).length_le.trans_eq List.length_reverse

theorem stripZeros_ne_nil {ds : List Char} (h : natOfDigits ds ≠ 0) : stripZeros ds ≠ [] := by
  intro hnil
  apply h
  rw [← stripZeros_append_replicate ds, hnil, List.nil_append, natOfDigits_replicate_zero]

/-- The first digit stays, if there is a digit that stays. -/
theorem head?_stripZeros {ds : List Char} (h : stripZeros ds ≠ []) :
    (stripZeros ds).head? = ds.head? := by
  obtain ⟨c, cs, hc⟩ := List.exists_cons_of_ne_nil h
  conv_rhs => rw [← stripZeros_append_replicate ds]
  rw [hc]
  rfl

theorem mem_of_mem_stripZeros {ds : List Char} {c : Char} (h : c ∈ stripZeros ds) : c ∈ ds := by
  rw [← stripZeros_append_replicate ds]
  exact List.mem_append_left _ h

/-- The value of the stripped digits, scaled by the zeros that were stripped, is the old one. -/
theorem natOfDigits_stripZeros (ds : List Char) :
    natOfDigits (stripZeros ds) * 10 ^ (ds.length - (stripZeros ds).length) = natOfDigits ds := by
  conv_rhs => rw [← stripZeros_append_replicate ds]
  rw [natOfDigits_append_zeros]

theorem stripZeros_append_zeros (ds : List Char) (k : ℕ) :
    stripZeros (ds ++ List.replicate k '0') = stripZeros ds := by
  unfold stripZeros
  rw [List.reverse_append, List.reverse_replicate, List.dropWhile_append_of_pos]
  intro c hc
  rw [List.eq_of_mem_replicate hc]
  rfl

/-- No zero is left at the end. -/
theorem getLast?_stripZeros (ds : List Char) : (stripZeros ds).getLast? ≠ some '0' := by
  unfold stripZeros
  rw [List.getLast?_reverse]
  intro h
  have := List.head?_dropWhile_not (fun c => decide (c = '0')) ds.reverse
  rw [h] at this
  simp at this

theorem stripZeros_eq_self {ds : List Char} (h : ds.getLast? ≠ some '0') : stripZeros ds = ds := by
  unfold stripZeros
  rw [← List.head?_reverse] at h
  cases hr : ds.reverse with
  | nil => exact (List.reverse_eq_nil_iff.1 hr).symm
  | cons c cs =>
    rw [hr] at h
    have hc : c ≠ '0' := fun heq => h (congrArg some heq)
    rw [List.dropWhile_cons_of_neg (by simpa using hc), ← hr, List.reverse_reverse]

end AlertRegistry.Text
