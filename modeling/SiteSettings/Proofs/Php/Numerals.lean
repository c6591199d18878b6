import SiteSettings.Proofs.Php.CodeReader

/-!
# Numerals in generated code

Every number in generated code is a `Numeral`, behind a minus sign or not: digits, a point with more
digits or none, an exponent or none.  A numeral is read as far as it goes (`numeral_chars`), so that
what follows it may be anything that cannot go on with it.

A finite double-precision number always has a point or an exponent (`exists_numeral_literal`), which
is why it is not taken for an integer.  That its digits are read back as the same number is a matter
of rounding and is not decided here.
-/

namespace SiteSettings
namespace Php

/-! ## Reading as far as it goes -/

/-- Whether a text does not begin with one of these characters. -/
def Stops (p : Char → Bool) (rest : List Char) : Prop :=
  ∀ c ∈ rest.head?, ¬ p c

theorem stops_nil (p : Char → Bool) : Stops p [] :=
  fun _ h => nomatch h

theorem stops_cons {p : Char → Bool} {c : Char} {rest : List Char} :
    Stops p (c :: rest) ↔ ¬ p c := by
  simp [Stops]

theorem Stops.takeWhile_append {p : Char → Bool} {rest : List Char} (h : Stops p rest)
    {run : List Char} (hrun : ∀ c ∈ run, p c) : (run ++ rest).takeWhile p = run := by
  have hstop : rest.takeWhile p = [] := by
    cases rest with
    | nil => rfl
    | cons c tail => exact List.takeWhile_cons_of_neg (stops_cons.mp h)
  rw [List.takeWhile_append_of_pos hrun, hstop, List.append_nil]

theorem Stops.dropWhile_append {p : Char → Bool} {rest : List Char} (h : Stops p rest)
    {run : List Char} (hrun : ∀ c ∈ run, p c) : (run ++ rest).dropWhile p = rest := by
  rw [List.dropWhile_append_of_pos hrun]
  cases rest with
  | nil => rfl
  | cons c tail => exact List.dropWhile_cons_of_neg (stops_cons.mp h)

/-- Characters that may go on with a numeral. -/
def isNumeralChar (c : Char) : Bool :=
  c.isDigit || c == '.' || c == 'e'

theorem Stops.imp {p q : Char → Bool} (himp : ∀ c, p c → q c) {rest : List Char}
    (h : Stops q rest) :
    Stops p rest :=
  fun c hc hp => h c hc (himp c hp)

theorem isDigit_of_mem_zero : ∀ c ∈ ['0'], c.isDigit :=
  List.forall_mem_singleton.mpr rfl

/-! ## Numerals as text -/

namespace Numeral

/-- What the parts of a numeral must be. -/
structure WellFormed (n : Numeral) : Prop where
  whole_ne : n.whole ≠ []
  whole : ∀ c ∈ n.whole, c.isDigit
  fraction : ∀ digits ∈ n.fraction, ∀ c ∈ digits, c.isDigit

/-- The exponent with the letter in front of it. -/
def exponentChars (n : Numeral) : List Char :=
  match n.exponent with
  | none => []
  | some e => 'e' :: (toString e).toList

/-- The digits behind the point with the point in front of them. -/
def fractionChars (n : Numeral) : List Char :=
  match n.fraction with
  | none => []
  | some digits => '.' :: digits

/-- The numeral as it is written. -/
def chars (n : Numeral) : List Char :=
  n.whole ++ n.fractionChars ++ n.exponentChars

theorem WellFormed.head {n : Numeral} (h : n.WellFormed) :
    ∃ c rest, n.chars = c :: rest ∧ c.isDigit := by
  obtain ⟨c, rest, hwhole⟩ := List.exists_cons_of_ne_nil h.whole_ne
  refine ⟨c, rest ++ n.fractionChars ++ n.exponentChars, ?_, h.whole c ?_⟩
  · rw [chars, hwhole]
    rfl
  · rw [hwhole]
    exact List.mem_cons_self

end Numeral

/-! ## Reading numerals -/

namespace CodeReader

theorem exponentDigits_append {digits : List Char} (hdigits : LeadingDigits digits)
    {rest : List Char} (hrest : Stops Char.isDigit rest) (negative : Bool) :
    exponentDigits negative (digits ++ rest) =
      some (if negative then -(Nat.ofDigitChars 10 digits 0 : Int)
        else Nat.ofDigitChars 10 digits 0, rest) := by
  have hne : digits ≠ [] := by
    obtain ⟨first, tail, rfl, -⟩ := hdigits.head_ne
    exact List.cons_ne_nil _ _
  simp [exponentDigits, hrest.takeWhile_append hdigits.isDigit,
    hrest.dropWhile_append hdigits.isDigit, hne]

theorem exponentNumber_append {text : List Char} {n : Int} (h : IntegerText text n)
    {rest : List Char} (hrest : Stops Char.isDigit rest) :
    exponentNumber (text ++ rest) = some (n, rest) := by
  cases h with
  | zero =>
    have htake := hrest.takeWhile_append isDigit_of_mem_zero
    have hdrop := hrest.dropWhile_append isDigit_of_mem_zero
    simp only [List.cons_append, List.nil_append] at htake hdrop
    have hvalue : Nat.ofDigitChars 10 ['0'] 0 = 0 := by decide
    simp [exponentNumber, exponentDigits, htake, hdrop, hvalue]
  | positive h hn =>
    have hread := exponentDigits_append h hrest false
    obtain ⟨first, tail, rfl, -⟩ := h.head_ne
    have hplus : first ≠ '+' := by
      rintro rfl
      exact absurd (h.isDigit '+' (by simp)) (by decide)
    rw [hn, List.cons_append, exponentNumber]
    · exact hread
    · intro s hs
      exact h.ne_minus (List.cons.inj hs).1
    · intro s hs
      exact hplus (List.cons.inj hs).1
  | negative h hn =>
    rw [hn]
    exact exponentDigits_append h hrest true

theorem exponent_exponentChars (n : Numeral) {rest : List Char} (hrest : Stops isNumeralChar rest) :
    exponent (n.exponentChars ++ rest) = (n.exponent, rest) := by
  unfold Numeral.exponentChars
  split
  · rename_i hnone
    rw [hnone, List.nil_append]
    cases rest with
    | nil => rfl
    | cons c tail =>
      have hc : c ≠ 'e' := by
        rintro rfl
        exact stops_cons.mp hrest (by decide)
      rw [exponent]
      intro s hs
      exact hc (List.cons.inj hs).1
  · rename_i e hsome
    have hdigit : Stops Char.isDigit rest := hrest.imp (by simp +contextual [isNumeralChar])
    rw [hsome, List.cons_append, exponent, exponentNumber_append (integerText_toString e) hdigit]

theorem fraction_fractionChars {n : Numeral} (h : n.WellFormed) {rest : List Char}
    (hrest : Stops (fun c => c.isDigit || c == '.') rest) :
    fraction (n.fractionChars ++ rest) = (n.fraction, rest) := by
  unfold Numeral.fractionChars
  split
  · rename_i hnone
    rw [hnone, List.nil_append]
    cases rest with
    | nil => rfl
    | cons c tail =>
      have hc : c ≠ '.' := by
        rintro rfl
        exact stops_cons.mp hrest (by decide)
      rw [fraction]
      intro s hs
      exact hc (List.cons.inj hs).1
  · rename_i digits hsome
    have hdigits := h.fraction digits hsome
    have hdigit : Stops Char.isDigit rest := hrest.imp (by simp +contextual)
    rw [hsome, List.cons_append, fraction, hdigit.takeWhile_append hdigits,
      hdigit.dropWhile_append hdigits]

/-- A numeral is read as far as it goes. -/
theorem numeral_chars {n : Numeral} (h : n.WellFormed) {rest : List Char}
    (hrest : Stops isNumeralChar rest) :
    numeral (n.chars ++ rest) = some (n, rest) := by
  have hbehindFraction : Stops (fun c => c.isDigit || c == '.') (n.exponentChars ++ rest) := by
    unfold Numeral.exponentChars
    split
    · exact hrest.imp (by simp +contextual [isNumeralChar])
    · exact stops_cons.mpr (by decide)
  have hbehindWhole : Stops Char.isDigit (n.fractionChars ++ (n.exponentChars ++ rest)) := by
    unfold Numeral.fractionChars
    split
    · exact hbehindFraction.imp (by simp +contextual)
    · exact stops_cons.mpr (by decide)
  have hchars : n.chars ++ rest = n.whole ++ (n.fractionChars ++ (n.exponentChars ++ rest)) := by
    simp [Numeral.chars]
  rw [hchars, numeral, hbehindWhole.takeWhile_append h.whole, hbehindWhole.dropWhile_append h.whole,
    if_neg h.whole_ne, fraction_fractionChars h hbehindFraction]
  simp only [exponent_exponentChars n hrest]

end CodeReader

/-! ## What numerals stand for -/

/-- A minus sign or nothing. -/
def signChars (negative : Bool) : List Char :=
  if negative then ['-'] else []

/-- Whether a text is a numeral, with a minus sign or without one, that stands for a scalar. -/
def IsNumeralOf (text : List Char) (value : Scalar) : Prop :=
  ∃ negative, ∃ n : Numeral, n.WellFormed ∧ text = signChars negative ++ n.chars ∧
    n.scalar? negative = some value

/-- A numeral with its sign begins with the sign or with a digit. -/
theorem IsNumeralOf.head {text : List Char} {value : Scalar} (h : IsNumeralOf text value) :
    ∃ c tail, text = c :: tail ∧ (c = '-' ∨ c.isDigit) := by
  obtain ⟨negative, n, hn, rfl, -⟩ := h
  cases negative with
  | true => exact ⟨'-', n.chars, rfl, .inl rfl⟩
  | false =>
    obtain ⟨c, tail, hchars, hc⟩ := hn.head
    exact ⟨c, tail, hchars, .inr hc⟩

namespace CodeReader

theorem number_chars {n : Numeral} (h : n.WellFormed) {rest : List Char}
    (hrest : Stops isNumeralChar rest) {negative : Bool} {value : Scalar}
    (hvalue : n.scalar? negative = some value) :
    number negative (n.chars ++ rest) = some (value, rest) := by
  simp [number, numeral_chars h hrest, hvalue]

theorem operand_of_digit (expression : CodeReader Expr) (limit : Nat) {c : Char}
    {tail rest : List Char} (hc : c.isDigit) {value : Scalar}
    (h : number false (c :: tail) = some (value, rest)) :
    operand expression limit (c :: tail) = some (.scalar value, rest) := by
  have hne {d : Char} (hd : ¬ d.isDigit) : c ≠ d := by
    rintro rfl
    exact hd hc
  rw [operand, h]
  · exact fun s hs => hne (by decide) (List.cons.inj hs).1
  · exact fun s hs => hne (by decide) (List.cons.inj hs).1
  · exact fun s hs => hne (by decide) (List.cons.inj hs).1
  · exact fun s hs => hne (by decide) (List.cons.inj hs).1

/-- The numeral of a scalar is read as that scalar. -/
theorem operand_numeral (expression : CodeReader Expr) (limit : Nat) {text : List Char}
    {value : Scalar} (h : IsNumeralOf text value) {rest : List Char}
    (hrest : Stops isNumeralChar rest) :
    operand expression limit (text ++ rest) = some (.scalar value, rest) := by
  obtain ⟨negative, n, hn, rfl, hvalue⟩ := h
  have hread := number_chars hn hrest hvalue
  cases negative with
  | true =>
    have htext : signChars true ++ n.chars ++ rest = '-' :: (n.chars ++ rest) := rfl
    rw [htext, operand, negated, hread]
    rfl
  | false =>
    obtain ⟨c, tail, hchars, hc⟩ := hn.head
    have htext : signChars false ++ n.chars ++ rest = c :: (tail ++ rest) := by
      rw [hchars]
      rfl
    rw [hchars] at hread
    rw [htext]
    exact operand_of_digit expression limit hc hread

end CodeReader

/-! ## Integers -/

/-- Digits in range stand for their value, or for its opposite behind a minus sign. -/
theorem isNumeralOf_digits {digits : List Char} (h : LeadingDigits digits)
    (hrange : IsInt64 (Nat.ofDigitChars 10 digits 0)) (negative : Bool) :
    IsNumeralOf (signChars negative ++ digits) (.integer (Int64.ofInt
      (if negative then -(Nat.ofDigitChars 10 digits 0 : Int)
        else Nat.ofDigitChars 10 digits 0))) := by
  obtain ⟨first, rest, hdigits, hne⟩ := h.head_ne
  have hhead : digits.head? ≠ some '0' := by simpa [hdigits] using hne
  refine ⟨negative, ⟨digits, none, none⟩, ⟨?_, h.isDigit, fun _ h => nomatch h⟩, ?_, ?_⟩
  · simp [hdigits]
  · simp [Numeral.chars, Numeral.fractionChars, Numeral.exponentChars]
  · simp [Numeral.scalar?, Numeral.isInteger, hhead, hrange]

/-- Every integer but the least one is a numeral. -/
theorem isNumeralOf_integer {n : Int64} (hn : n ≠ Int64.minValue) :
    IsNumeralOf (toString n.toInt).toList (.integer n) := by
  have hmin : Int64.minValue.toInt = -9223372036854775808 := rfl
  have hmax : Int64.maxValue.toInt = 9223372036854775807 := rfl
  have hlow : -9223372036854775808 < n.toInt := by
    have hle := n.minValue_le_toInt
    have hne : n.toInt ≠ Int64.minValue.toInt := fun h => hn (Int64.toInt_inj.mp h)
    omega
  have hhigh := n.toInt_le
  have htext := integerText_toString n.toInt
  have hback : Int64.ofInt n.toInt = n := Int64.ofInt_toInt n
  generalize n.toInt = value at *
  generalize (toString value).toList = text at htext
  cases htext with
  | zero =>
    refine ⟨false, ⟨['0'], none, none⟩, ⟨by simp, isDigit_of_mem_zero, by simp⟩, rfl, ?_⟩
    rw [← hback]
    rfl
  | positive h hsize =>
    have hnumeral := isNumeralOf_digits h ⟨by omega, by omega⟩ false
    rw [if_neg (by decide), ← hsize, hback] at hnumeral
    exact hnumeral
  | negative h hsize =>
    have hnumeral := isNumeralOf_digits h ⟨by omega, by omega⟩ true
    rw [if_pos rfl, ← hsize, hback] at hnumeral
    exact hnumeral

/-! ## Floats -/

namespace Numeral

/-- A numeral with a point or an exponent stands for the nearest double-precision number. -/
theorem isNumeralOf_float {n : Numeral} (h : n.WellFormed) (hfloat : ¬ n.isInteger)
    (negative : Bool) :
    IsNumeralOf (signChars negative ++ n.chars) (.float (n.toBinary64 negative)) :=
  ⟨negative, n, h, rfl, by simp [scalar?, hfloat]⟩

/-- Alone, a numeral is read to its end. -/
theorem read?_chars {n : Numeral} (h : n.WellFormed) {text : String} {negative : Bool}
    (htext : text.toList = signChars negative ++ n.chars) :
    read? text = some (n.toBinary64 negative) := by
  have hread := CodeReader.numeral_chars h (stops_nil isNumeralChar)
  rw [List.append_nil] at hread
  rw [read?, htext]
  cases negative with
  | true => simp [signChars, hread]
  | false =>
    obtain ⟨c, rest, hchars, hc⟩ := h.head
    have hminus : c ≠ '-' := by
      rintro rfl
      exact absurd hc (by decide)
    rw [hchars] at hread
    simp [signChars, hchars, hminus, hread]

end Numeral

end Php

namespace Binary64

open Php

theorem toList_sign (x : Binary64) : x.sign.toList = signChars x.isNegative := by
  unfold sign
  cases x.isNegative <;> rfl

/-- The digits of a finite number, of which there is at least one. -/
theorem digitsAndPoint_digits (x : Binary64) :
    x.digitsAndPoint.1 ≠ [] ∧ ∀ c ∈ x.digitsAndPoint.1, c.isDigit := by
  unfold digitsAndPoint
  split
  · exact ⟨by simp, isDigit_of_mem_zero⟩
  · exact ⟨Nat.toDigits_ne_nil, fun c hc => Nat.isDigit_of_mem_toDigits (by decide) (by decide) hc⟩

/-- Digits with a point are a numeral, with a fraction if there is a point among them. -/
theorem exists_numeral_placePoint {digits : List Char} (hne : digits ≠ [])
    (hdigits : ∀ c ∈ digits, c.isDigit) (point : Int) :
    ∃ n : Numeral, n.WellFormed ∧ n.exponent = none ∧
      (placePoint digits point).toList = n.chars := by
  have hzeros (count : Nat) : ∀ c ∈ List.replicate count '0', c.isDigit := by
    intro c hc
    rw [List.eq_of_mem_replicate hc]
    decide
  unfold placePoint
  split
  · refine ⟨⟨['0'], some (List.replicate (-point).toNat '0' ++ digits), none⟩,
      ⟨by simp, by simp, ?_⟩,
      rfl, ?_⟩
    · rintro _ ⟨⟩ c hc
      rcases List.mem_append.mp hc with hc | hc
      · exact hzeros _ c hc
      · exact hdigits c hc
    · simp [Numeral.chars, Numeral.fractionChars, Numeral.exponentChars]
  · split
    · refine ⟨⟨digits ++ List.replicate (point.toNat - digits.length) '0', none, none⟩,
        ⟨by simp [hne], ?_, fun _ h => nomatch h⟩, rfl, ?_⟩
      · intro c hc
        rcases List.mem_append.mp hc with hc | hc
        · exact hdigits c hc
        · exact hzeros _ c hc
      · simp [Numeral.chars, Numeral.fractionChars, Numeral.exponentChars]
    · rename_i hpoint hlength
      refine ⟨⟨digits.take point.toNat, some (digits.drop point.toNat), none⟩,
        ⟨?_, ?_, ?_⟩, rfl, ?_⟩
      · have hpos : point.toNat ≠ 0 := by omega
        simp [hne, hpos]
      · exact fun c hc => hdigits c (List.mem_of_mem_take hc)
      · rintro _ ⟨⟩ c hc
        exact hdigits c (List.mem_of_mem_drop hc)
      · simp [Numeral.chars, Numeral.fractionChars, Numeral.exponentChars]

theorem isFinite_of_not_isNaN {x : Binary64} (hnan : ¬ x.isNaN) (hinfinite : ¬ x.isInfinite) :
    x.isFinite := by
  simp only [isNaN, isInfinite, isFinite] at hnan hinfinite ⊢
  simp_all

theorem exists_numeral_positionalWithPoint {x : Binary64} (h : x.isFinite) :
    ∃ n : Numeral, n.WellFormed ∧ ¬ n.isInteger ∧
      x.positionalWithPoint.toList = signChars x.isNegative ++ n.chars := by
  have hnan : ¬ x.isNaN := by simp_all [isNaN, isFinite]
  have hinfinite : ¬ x.isInfinite := by simp_all [isInfinite, isFinite]
  obtain ⟨hne, hdigits⟩ := x.digitsAndPoint_digits
  obtain ⟨⟨whole, fraction, _⟩, hformed, rfl, hchars⟩ :=
    exists_numeral_placePoint hne hdigits x.digitsAndPoint.2
  have htext : x.positional.toList = signChars x.isNegative ++
      Numeral.chars ⟨whole, fraction, none⟩ := by
    rw [positional, if_neg hnan, if_neg hinfinite, String.toList_append, toList_sign, hchars]
  have hsign : '.' ∉ signChars x.isNegative := by
    cases x.isNegative <;> decide
  have hwhole : '.' ∉ whole := fun hmem => absurd (hformed.whole '.' hmem) (by decide)
  rw [positionalWithPoint]
  cases fraction with
  | none =>
    have hpoint : '.' ∉ x.positional.toList := by
      simp [htext, hsign, hwhole, Numeral.chars, Numeral.fractionChars, Numeral.exponentChars]
    refine ⟨⟨whole, some ['0'], none⟩, ⟨hformed.whole_ne, hformed.whole, by simp⟩,
      by simp [Numeral.isInteger], ?_⟩
    have hadded : (if x.isFinite && !x.positional.toList.contains '.' then x.positional ++ ".0"
        else x.positional) = x.positional ++ ".0" := if_pos (by simp [h, hpoint])
    rw [hadded, String.toList_append, htext]
    simp [Numeral.chars, Numeral.fractionChars, Numeral.exponentChars]
  | some digits =>
    have hpoint : '.' ∈ x.positional.toList := by
      simp [htext, Numeral.chars, Numeral.fractionChars]
    refine ⟨_, hformed, by simp [Numeral.isInteger], ?_⟩
    have hkept : (if x.isFinite && !x.positional.toList.contains '.' then x.positional ++ ".0"
        else x.positional) = x.positional := if_neg (by simp [hpoint])
    rw [hkept, htext]

/-- Digits in exponent notation are a numeral with an exponent. -/
theorem exists_numeral_placeExponent {digits : List Char} (hne : digits ≠ [])
    (hdigits : ∀ c ∈ digits, c.isDigit) (point : Int) :
    ∃ n : Numeral, n.WellFormed ∧ ¬ n.isInteger ∧
      (placeExponent digits point).toList = n.chars := by
  unfold placeExponent
  match digits, hne with
  | [d], _ =>
    refine ⟨⟨[d], none, some (point - 1)⟩, ⟨by simp, hdigits, fun _ h => nomatch h⟩, by
      simp [Numeral.isInteger], ?_⟩
    simp [Numeral.chars, Numeral.fractionChars, Numeral.exponentChars]
  | d :: d' :: rest, _ =>
    refine ⟨⟨[d], some (d' :: rest), some (point - 1)⟩, ⟨by simp, ?_, ?_⟩, by
      simp [Numeral.isInteger], ?_⟩
    · exact fun c hc => hdigits c (by simp_all)
    · rintro _ ⟨⟩ c hc
      exact hdigits c (List.mem_cons_of_mem _ hc)
    · simp [Numeral.chars, Numeral.fractionChars, Numeral.exponentChars]

/-- A finite number is written as a numeral with a point or an exponent. -/
theorem exists_numeral_literal {x : Binary64} (h : x.isFinite) :
    ∃ n : Numeral, n.WellFormed ∧ ¬ n.isInteger ∧
      x.literal.toList = signChars x.isNegative ++ n.chars := by
  unfold literal
  split
  rename_i digits point hsplit
  split
  · exact exists_numeral_positionalWithPoint h
  · obtain ⟨hne, hdigits⟩ := x.digitsAndPoint_digits
    rw [hsplit] at hne hdigits
    obtain ⟨n, hformed, hfloat, hchars⟩ := exists_numeral_placeExponent hne hdigits point
    exact ⟨n, hformed, hfloat, by rw [String.toList_append, toList_sign, hchars]⟩

/-- Whether the literal of a number is read back as that number. -/
def ReadsBack (x : Binary64) : Prop :=
  Numeral.read? x.literal = some x

theorem ReadsBack.isNumeralOf {x : Binary64} (h : x.ReadsBack) (hfinite : x.isFinite) :
    IsNumeralOf x.literal.toList (.float x) := by
  obtain ⟨n, hformed, hfloat, hchars⟩ := exists_numeral_literal hfinite
  have hread : n.toBinary64 x.isNegative = x := by
    rw [ReadsBack, Numeral.read?_chars hformed hchars] at h
    exact Option.some.inj h
  rw [hchars, ← hread]
  have hnumeral := Numeral.isNumeralOf_float hformed hfloat x.isNegative
  rwa [hread] at hnumeral ⊢

/-- The sign says which of the two an infinity is. -/
theorem eq_infinity {x : Binary64} (h : x.isInfinite) : x = infinity x.isNegative := by
  have hsign : signBit = 9223372036854775808 := rfl
  have hhidden : hiddenBit = 4503599627370496 := rfl
  have hmagnitude : x.magnitude = 2047 * hiddenBit := by
    simp only [isInfinite, exponentField, fraction, hhidden, Bool.and_eq_true, beq_iff_eq] at h ⊢
    omega
  have hlt : x.bits.toNat < 18446744073709551616 := x.bits.toNat_lt
  have hbits : x.bits.toNat = (if x.isNegative then signBit else 0) + 2047 * hiddenBit := by
    rw [magnitude, hsign] at hmagnitude
    rw [isNegative, hsign]
    by_cases hneg : 9223372036854775808 ≤ x.bits.toNat
    · rw [if_pos (decide_eq_true hneg), ← hmagnitude]
      omega
    · rw [if_neg (by simpa using hneg), ← hmagnitude]
      omega
  rw [infinity, ofMagnitude, ← hbits, UInt64.ofNat_toNat]

end Binary64
end SiteSettings
