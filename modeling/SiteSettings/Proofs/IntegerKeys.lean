import SiteSettings.Settings.Declared

/-!
# Names that are integers

A name becomes an integer key exactly if it is the decimal text of a 64-bit integer
(`canonicalInteger?_eq_some_iff`).  The reader looks at the sign, at the first digit and at the
range; the written form of an integer is what all three tests together leave.

The heart of it is that digits without a leading zero are the only digits that are written for their
value (`toDigits_ofDigitChars`).

Seen another way the reader puts two tests together, each of which lets too much pass: that a number
of 64 bits can be read at all, with a plus sign or zeros in front, and that the spelling is the
canonical one, of a number of any size (`canonicalInteger?_eq_some_iff_tests`).
-/

namespace SiteSettings

/-! ## Digits -/

/-- Digits that are written for some number other than zero. -/
structure LeadingDigits (digits : List Char) : Prop where
  isDigit : ∀ c ∈ digits, c.isDigit
  head_ne : ∃ first rest, digits = first :: rest ∧ first ≠ '0'

theorem LeadingDigits.ne_minus {first : Char} {rest : List Char}
    (h : LeadingDigits (first :: rest)) :
    first ≠ '-' := by
  rintro rfl
  have hdigit := h.isDigit '-' (by simp)
  exact absurd hdigit (by decide)

theorem digitValue_lt {c : Char} (h : c.isDigit) : c.toNat - '0'.toNat < 10 := by
  have hhigh : c.toNat ≤ '9'.toNat := (Char.isDigit_iff_toNat.mp h).2
  have hnine : '9'.toNat = '0'.toNat + 9 := rfl
  omega

theorem digitChar_digitValue {c : Char} (h : c.isDigit) :
    Nat.digitChar (c.toNat - '0'.toNat) = c := by
  have hlow : '0'.toNat ≤ c.toNat := (Char.isDigit_iff_toNat.mp h).1
  apply Char.toNat_inj.mp
  rw [Nat.toNat_digitChar_of_lt_ten (digitValue_lt h)]
  have hzero : '0'.toNat = 48 := rfl
  omega

theorem digitValue_pos {c : Char} (h : c.isDigit) (hne : c ≠ '0') : 0 < c.toNat - '0'.toNat := by
  rw [Nat.pos_iff_ne_zero]
  intro hzero
  apply hne
  rw [← digitChar_digitValue h, hzero]
  rfl

theorem leadingDigits_toDigits {n : Nat} (h : 0 < n) : LeadingDigits (Nat.toDigits 10 n) where
  isDigit _ hc := Nat.isDigit_of_mem_toDigits (by decide) (by decide) hc
  head_ne := by
    induction n using Nat.base_induction 10 (by decide) with
    | single n hn =>
      refine ⟨n.digitChar, [], Nat.toDigits_of_lt_base hn, fun he => ?_⟩
      have hzero : n = 0 := Nat.digitChar_eq_zero.mp he
      omega
    | digit m k hk hm ih =>
      obtain ⟨first, rest, hdigits, hne⟩ := ih hm
      refine ⟨first, rest ++ Nat.toDigits 10 k, ?_, hne⟩
      rw [← Nat.toDigits_append_toDigits (by decide) hm hk, hdigits]
      rfl

/-- Digits behind those of a number are the digits of the number that both together are. -/
theorem toDigits_append {digits : List Char} (h : ∀ c ∈ digits, c.isDigit) {n : Nat} (hn : 0 < n) :
    Nat.toDigits 10 n ++ digits = Nat.toDigits 10 (Nat.ofDigitChars 10 digits n) := by
  induction digits generalizing n with
  | nil => simp
  | cons c rest ih =>
    have hc : c.isDigit := h c (by simp)
    have hstep : Nat.toDigits 10 n ++ [c] = Nat.toDigits 10 (10 * n + (c.toNat - '0'.toNat)) := by
      rw [← Nat.toDigits_append_toDigits (by decide) hn (digitValue_lt hc),
        Nat.toDigits_of_lt_base (digitValue_lt hc), digitChar_digitValue hc]
    calc Nat.toDigits 10 n ++ c :: rest
        = (Nat.toDigits 10 n ++ [c]) ++ rest := by simp
      _ = Nat.toDigits 10 (10 * n + (c.toNat - '0'.toNat)) ++ rest := by rw [hstep]
      _ = Nat.toDigits 10 (Nat.ofDigitChars 10 (c :: rest) n) := by
          rw [ih (fun d hd => h d (List.mem_cons_of_mem _ hd)) (by omega), Nat.ofDigitChars_cons]

/-- Read and written again, digits without a leading zero come back. -/
theorem toDigits_ofDigitChars {digits : List Char} (h : LeadingDigits digits) :
    Nat.toDigits 10 (Nat.ofDigitChars 10 digits 0) = digits := by
  obtain ⟨first, rest, rfl, hne⟩ := h.head_ne
  have hfirst : first.isDigit := h.isDigit first (by simp)
  rw [Nat.ofDigitChars_cons, Nat.mul_zero, Nat.zero_add,
    ← toDigits_append (fun d hd => h.isDigit d (List.mem_cons_of_mem _ hd))
      (digitValue_pos hfirst hne),
    Nat.toDigits_of_lt_base (digitValue_lt hfirst), digitChar_digitValue hfirst]
  rfl

theorem ofDigitChars_pos {digits : List Char} (h : LeadingDigits digits) :
    0 < Nat.ofDigitChars 10 digits 0 := by
  rw [Nat.pos_iff_ne_zero]
  intro hzero
  obtain ⟨first, rest, hdigits, hne⟩ := h.head_ne
  have hback := toDigits_ofDigitChars h
  rw [hzero, Nat.toDigits_zero, hdigits] at hback
  exact hne (List.cons.inj hback).1.symm

/-! ## The written form of an integer -/

theorem toList_toString_of_nonneg {n : Int} (h : 0 ≤ n) :
    (toString n).toList = Nat.toDigits 10 n.toNat := by
  simp [Int.repr_eq_if, h]

theorem toList_toString_of_neg {n : Int} (h : n < 0) :
    (toString n).toList = '-' :: Nat.toDigits 10 (-n).toNat := by
  simp [Int.repr_eq_if, Int.not_le.mpr h]

/-- The value that the reader gives to digits. -/
theorem foldl_digits {digits : List Char} (h : ∀ c ∈ digits, c.isDigit) (init : Nat) :
    digits.foldl (fun (n : Int) c => 10 * n + (c.toNat - '0'.toNat)) init =
      Nat.ofDigitChars 10 digits init := by
  induction digits generalizing init with
  | nil => rfl
  | cons c rest ih =>
    have hlow : '0'.toNat ≤ c.toNat := (Char.isDigit_iff_toNat.mp (h c (by simp))).1
    have hstep : 10 * (init : Int) + (c.toNat - '0'.toNat) =
        ((10 * init + (c.toNat - '0'.toNat) : Nat) : Int) := by omega
    rw [List.foldl_cons, hstep, ih fun d hd => h d (List.mem_cons_of_mem _ hd),
      Nat.ofDigitChars_cons]

theorem LeadingDigits.foldl_eq {digits : List Char} (h : LeadingDigits digits) :
    digits.foldl (fun (n : Int) c => 10 * n + (c.toNat - '0'.toNat)) 0 =
      Nat.ofDigitChars 10 digits 0 :=
  foldl_digits h.isDigit 0

/-- The texts that are written for integers: zero, and digits without a leading zero behind a
minus sign or not. -/
inductive IntegerText : List Char → Int → Prop
  | zero : IntegerText ['0'] 0
  | positive {digits : List Char} {n : Int} (h : LeadingDigits digits)
      (hn : n = Nat.ofDigitChars 10 digits 0) : IntegerText digits n
  | negative {digits : List Char} {n : Int} (h : LeadingDigits digits)
      (hn : n = -Nat.ofDigitChars 10 digits 0) : IntegerText ('-' :: digits) n

theorem IntegerText.eq_toString {text : List Char} {n : Int} (h : IntegerText text n) :
    text = (toString n).toList := by
  cases h with
  | zero => rfl
  | positive h hn =>
    rw [hn, toList_toString_of_nonneg (by omega), Int.toNat_natCast, toDigits_ofDigitChars h]
  | negative h hn =>
    have hpos := ofDigitChars_pos h
    rw [hn, toList_toString_of_neg (by omega), Int.neg_neg, Int.toNat_natCast,
      toDigits_ofDigitChars h]

theorem integerText_toString (n : Int) : IntegerText (toString n).toList n := by
  rcases Int.lt_trichotomy n 0 with hneg | rfl | hpos
  · rw [toList_toString_of_neg hneg]
    refine .negative (leadingDigits_toDigits (by omega)) ?_
    rw [Nat.ofDigitChars_ten_toDigits]
    omega
  · exact .zero
  · rw [toList_toString_of_nonneg (by omega)]
    refine .positive (leadingDigits_toDigits (by omega)) ?_
    rw [Nat.ofDigitChars_ten_toDigits]
    omega

/-! ## The reader -/

/-- Whether an integer is one of 64 bits. -/
def IsInt64 (n : Int) : Prop :=
  Int64.minValue.toInt ≤ n ∧ n ≤ Int64.maxValue.toInt

instance (n : Int) : Decidable (IsInt64 n) :=
  inferInstanceAs (Decidable (_ ∧ _))

theorem toInt_ofInt {n : Int} (h : IsInt64 n) : (Int64.ofInt n).toInt = n := by
  obtain ⟨hlow, hhigh⟩ := h
  have hmin : Int64.minValue.toInt = -2 ^ 63 := rfl
  have hmax : Int64.maxValue.toInt = 2 ^ 63 - 1 := rfl
  exact Int64.toInt_ofInt_of_le (by omega) (by omega)

theorem canonicalInteger?_of_integerText {text : String} {n : Int}
    (h : IntegerText text.toList n) (hn : IsInt64 n) :
    canonicalInteger? text = some (Int64.ofInt n) := by
  have hall {digits : List Char} (hd : LeadingDigits digits) : digits.all Char.isDigit :=
    List.all_eq_true.mpr hd.isDigit
  unfold canonicalInteger?
  generalize text.toList = s at h
  cases h with
  | zero => rfl
  | positive h hvalue =>
    have hsize := h.foldl_eq
    have hisDigit := hall h
    obtain ⟨first, rest, rfl, hne⟩ := h.head_ne
    split
    rename_i negative digits hsplit
    split at hsplit
    · rename_i heq
      exact absurd (List.cons.inj heq).1 h.ne_minus
    · cases hsplit
      simp only [hsize, ← hvalue, hisDigit, Bool.and_true]
      split <;> simp_all [IsInt64]
  | negative h hvalue =>
    have hsize := h.foldl_eq
    have hisDigit := hall h
    obtain ⟨first, rest, rfl, hne⟩ := h.head_ne
    simp only [hsize, ← hvalue, hisDigit, Bool.and_true]
    split <;> simp_all [IsInt64]

theorem integerText_of_canonicalInteger? {text : String} {m : Int64}
    (h : canonicalInteger? text = some m) :
    ∃ n, IntegerText text.toList n ∧ IsInt64 n ∧ m = Int64.ofInt n := by
  unfold canonicalInteger? at h
  split at h
  rename_i negative digits hsplit
  have htext : text.toList = if negative then '-' :: digits else digits := by
    split at hsplit <;> cases hsplit <;> simp [*]
  dsimp only at h
  rw [htext]
  split at h
  · simp at h
  · cases negative with
    | true => simp at h
    | false =>
      cases h
      exact ⟨0, .zero, by decide, rfl⟩
  · rename_i first rest hzero
    split at h
    · rename_i hcanonical
      simp only [Bool.and_eq_true, bne_iff_ne, ne_eq, List.all_eq_true] at hcanonical
      have hleading : LeadingDigits (first :: rest) :=
        ⟨hcanonical.2, first, rest, rfl, hcanonical.1⟩
      rw [hleading.foldl_eq] at h
      obtain ⟨hrange, hm⟩ := Option.ite_none_right_eq_some.mp h
      have hm := (Option.some.inj hm).symm
      cases negative with
      | true => exact ⟨_, .negative hleading rfl, hrange, hm⟩
      | false => exact ⟨_, .positive hleading rfl, hrange, hm⟩
    · cases h

theorem canonicalInteger?_eq_some_iff {text : String} {n : Int64} :
    canonicalInteger? text = some n ↔ text = toString n.toInt := by
  constructor
  · intro h
    obtain ⟨m, htext, hm, rfl⟩ := integerText_of_canonicalInteger? h
    rw [toInt_ofInt hm]
    exact String.toList_inj.mp htext.eq_toString
  · rintro rfl
    have h := canonicalInteger?_of_integerText (integerText_toString n.toInt)
      ⟨n.minValue_le_toInt, n.toInt_le⟩
    rwa [Int64.ofInt_toInt] at h

/-! ## Two tests in one -/

/-- An integer of 64 bits as readers of numbers commonly take it: digits, with any zeros in front,
behind at most one sign of either kind. -/
def lenientInteger? (text : List Char) : Option Int64 :=
  let (negative, digits) :=
    match text with
    | '-' :: digits => (true, digits)
    | '+' :: digits => (false, digits)
    | digits => (false, digits)
  if digits.isEmpty || !digits.all Char.isDigit then none
  else
    let size : Int := Nat.ofDigitChars 10 digits 0
    let n := if negative then -size else size
    if IsInt64 n then some (Int64.ofInt n) else none

/-- Whether a text is spelt as an integer of any size is written: without a plus sign, leading zeros
or a negative zero. -/
def isCanonicalSpelling (text : List Char) : Bool :=
  let digits :=
    match text with
    | '-' :: digits => digits
    | digits => digits
  !digits.isEmpty && digits.all Char.isDigit && (digits == ['0'] || digits.head? != some '0') &&
    text != ['-', '0']

theorem LeadingDigits.ne_plus {first : Char} {rest : List Char}
    (h : LeadingDigits (first :: rest)) :
    first ≠ '+' := by
  rintro rfl
  have hdigit := h.isDigit '+' (by simp)
  exact absurd hdigit (by decide)

theorem lenientInteger?_of_integerText {text : List Char} {n : Int} (h : IntegerText text n) :
    lenientInteger? text = if IsInt64 n then some (Int64.ofInt n) else none := by
  have hall {digits : List Char} (hd : LeadingDigits digits) : digits.all Char.isDigit :=
    List.all_eq_true.mpr hd.isDigit
  cases h with
  | zero => rfl
  | positive h hn =>
    have hisDigit := hall h
    obtain ⟨first, rest, rfl, -⟩ := h.head_ne
    unfold lenientInteger?
    split
    rename_i negative digits hsplit
    split at hsplit
    · rename_i heq
      exact absurd (List.cons.inj heq).1 h.ne_minus
    · rename_i heq
      exact absurd (List.cons.inj heq).1 h.ne_plus
    · cases hsplit
      simp only [hisDigit, hn]
      rfl
  | negative h hn =>
    have hisDigit := hall h
    obtain ⟨first, rest, rfl, -⟩ := h.head_ne
    simp only [lenientInteger?, hisDigit, hn]
    rfl

/-- Digits as the test allows them behind the sign. -/
theorem canonicalDigits_iff {digits : List Char} :
    (!digits.isEmpty && digits.all Char.isDigit && (digits == ['0'] || digits.head? != some '0')) ↔
      digits = ['0'] ∨ LeadingDigits digits := by
  constructor
  · intro h
    simp only [Bool.and_eq_true, Bool.not_eq_true', List.isEmpty_eq_false_iff, List.all_eq_true,
      Bool.or_eq_true, beq_iff_eq, bne_iff_ne] at h
    obtain ⟨⟨hne, hdigits⟩, hzero | hhead⟩ := h
    · exact .inl hzero
    · obtain ⟨first, rest, rfl⟩ := List.exists_cons_of_ne_nil hne
      exact .inr ⟨hdigits, first, rest, rfl, fun he => hhead (congrArg some he)⟩
  · rintro (rfl | h)
    · decide
    · have hall : digits.all Char.isDigit := List.all_eq_true.mpr h.isDigit
      obtain ⟨first, rest, rfl, hne⟩ := h.head_ne
      simp [hall, hne]

theorem isCanonicalSpelling_iff {text : List Char} :
    isCanonicalSpelling text ↔ ∃ n, IntegerText text n := by
  unfold isCanonicalSpelling
  rw [Bool.and_eq_true, canonicalDigits_iff, bne_iff_ne]
  constructor
  · rintro ⟨hdigits, hminus⟩
    split at hdigits
    · rename_i digits
      rcases hdigits with rfl | h
      · exact absurd rfl hminus
      · exact ⟨_, .negative h rfl⟩
    · rcases hdigits with rfl | h
      · exact ⟨0, .zero⟩
      · exact ⟨_, .positive h rfl⟩
  · rintro ⟨n, h⟩
    cases h with
    | zero => exact ⟨.inl rfl, by decide⟩
    | positive h hn =>
      obtain ⟨first, rest, rfl, hne⟩ := h.head_ne
      refine ⟨?_, fun he => h.ne_minus (List.cons.inj he).1⟩
      split
      · rename_i heq
        exact absurd (List.cons.inj heq).1 h.ne_minus
      · exact .inr h
    | negative h hn =>
      refine ⟨.inr h, ?_⟩
      rintro he
      obtain ⟨first, rest, hcons, hne⟩ := h.head_ne
      rw [hcons] at he
      exact hne (List.cons.inj (List.cons.inj he).2).1

/-- A name is read as an integer if both tests pass: the number is in range, and it is spelt as
it is written. -/
theorem canonicalInteger?_eq_some_iff_tests {text : String} {n : Int64} :
    canonicalInteger? text = some n ↔
      isCanonicalSpelling text.toList ∧ lenientInteger? text.toList = some n := by
  constructor
  · intro h
    obtain ⟨m, htext, hm, rfl⟩ := integerText_of_canonicalInteger? h
    refine ⟨isCanonicalSpelling_iff.mpr ⟨m, htext⟩, ?_⟩
    rw [lenientInteger?_of_integerText htext, if_pos hm]
  · rintro ⟨hspelling, hvalue⟩
    obtain ⟨m, htext⟩ := isCanonicalSpelling_iff.mp hspelling
    rw [lenientInteger?_of_integerText htext] at hvalue
    obtain ⟨hm, hn⟩ := Option.ite_none_right_eq_some.mp hvalue
    obtain rfl := Option.some.inj hn
    exact canonicalInteger?_of_integerText htext hm

end SiteSettings
