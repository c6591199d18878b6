import SiteSettings.Proofs.Php.Lexemes
import SiteSettings.Proofs.Php.Parting
import SiteSettings.Proofs.Php.Reading

/-!
# Words and numbers among the lexemes

Where a word stands, the lexer offers it as a keyword of either kind and as a name, and perhaps a
number that it looks like (`IsWord.mem_codeLexemes`).  Where a number stands it offers numbers
alone, and the whole of a numeral with a point or an exponent comes before the integer in front of
them (`Numeral.codeLexemes_float`).
-/

namespace SiteSettings
namespace Php

variable {tight : Bool} {s rest : List Char} {l : Lexeme}

/-! ## Names -/

/-- No mark begins with a character of a name. -/
theorem markLexemes_eq_nil {c : Char} (hc : isLexicalNameChar c = true) (rest : List Char) :
    markLexemes (c :: rest) = [] := by
  rw [markLexemes, List.map_eq_nil_iff, List.filter_eq_nil_iff]
  intro m hm hbegins
  have hall : (marks.all fun m => m.toList.head?.all fun c => !isLexicalNameChar c) = true := by
    decide
  have hhead := List.all_eq_true.mp hall m hm
  rw [head?_of_beginsWith hm hbegins] at hhead
  simp [hc] at hhead

/-- What ends a word: nothing that goes on with it, and no quote, since a letter may belong to the
quote behind it. -/
def endsWord (c : Char) : Bool :=
  !(isLexicalNameChar c || c == '\'' || c == '"')

theorem quoteOpening?_eq_none {c : Char} (hc : isLexicalNameChar c = true)
    (hs : ∀ d ∈ s.head?, d ≠ '\'' ∧ d ≠ '"') : quoteOpening? (c :: s) = none := by
  unfold quoteOpening?
  split <;> simp_all <;> contradiction

/-- A word stands in front of what ends it. -/
structure IsWord (w rest : List Char) : Prop where
  head : ∃ c tail, w = c :: tail ∧ isLexicalNameStart c = true
  chars : ∀ c ∈ w, isLexicalNameChar c = true
  ends : ∀ c ∈ rest.head?, endsWord c = true

namespace IsWord

variable {w : List Char}

theorem stops (h : IsWord w rest) : Stops isLexicalNameChar rest := by
  intro c hc hname
  have hend := h.ends c hc
  rw [endsWord, hname] at hend
  nomatch hend

theorem nameLength_eq (h : IsWord w rest) : nameLength (w ++ rest) = w.length := by
  obtain ⟨c, tail, rfl, hc⟩ := h.head
  have htail : ∀ d ∈ tail, isLexicalNameChar d := fun d hd => h.chars d (List.mem_cons_of_mem c hd)
  rw [List.cons_append, nameLength, if_pos hc, runLength, h.stops.takeWhile_append htail]
  rfl

theorem keywordLexemes_eq (h : IsWord w rest) :
    keywordLexemes (w ++ rest) = [⟨.lowerWord (String.ofList w), w.length⟩,
      ⟨.word (String.ofList (w.map Char.toLower)), w.length⟩] := by
  simp [keywordLexemes, h.nameLength_eq]

/-- Where a word stands there is nothing but the word, as a keyword or a name, and
perhaps a number. -/
theorem mem_codeLexemes (h : IsWord w rest) :
    l ∈ codeLexemes tight (w ++ rest) ↔ l = ⟨.lowerWord (String.ofList w), w.length⟩ ∨
      l = ⟨.word (String.ofList (w.map Char.toLower)), w.length⟩ ∨ l = ⟨.name, w.length⟩ ∨
      (l = ⟨.float, floatLength (w ++ rest)⟩ ∨ l = ⟨.integer, integerLength (w ++ rest)⟩) ∧
        l.length ≠ 0 := by
  obtain ⟨c, tail, hw, hc⟩ := h.head
  have hname : isLexicalNameChar c = true := h.chars c (hw ▸ List.mem_cons_self)
  have hlength : w.length ≠ 0 := by simp [hw]
  have hquote : quoteOpening? (w ++ rest) = none := by
    rw [hw]
    refine quoteOpening?_eq_none hname fun d hd => ?_
    have hd' : isLexicalNameChar d = true ∨ endsWord d = true := by
      cases tail with
      | nil => exact .inr (h.ends d hd)
      | cons e more =>
        cases hd
        exact .inl (h.chars d (by simp [hw]))
    constructor <;> rintro rfl <;> rcases hd' with hd' | hd' <;> exact absurd hd' (by decide)
  have hmarks : markLexemes (w ++ rest) = [] := by
    rw [hw]
    exact markLexemes_eq_nil hname (tail ++ rest)
  have htight : tightLexemes tight (w ++ rest) = [] := by
    have hparen : c ≠ '(' := by
      rintro rfl
      exact absurd hname (by decide)
    simp [tightLexemes, hw, hparen]
  rw [Php.mem_codeLexemes, hquote, hmarks, htight, h.keywordLexemes_eq, classLexemes,
    h.nameLength_eq]
  simp only [List.mem_cons, List.not_mem_nil, or_false, false_or, reduceCtorEq]
  constructor
  · rintro ⟨(rfl | rfl) | rfl | rfl | rfl, hne⟩ <;> simp_all
  · rintro (rfl | rfl | rfl | ⟨rfl | rfl, hne⟩) <;> simp_all

end IsWord

/-! ## Numbers -/

theorem groupsLength_append {q : Char → Bool} {run : List Char} (hrun : ∀ c ∈ run, q c)
    (hrest : Stops (fun c => q c || c == '_') rest) :
    groupsLength q (run ++ rest) = run.length := by
  induction run with
  | nil =>
    cases rest with
    | nil => rfl
    | cons c rest =>
      have hc := stops_cons.mp hrest
      simp only [Bool.or_eq_true, not_or, beq_iff_eq, Bool.not_eq_true] at hc
      simp [groupsLength, hc.1, hc.2]
  | cons c run ih =>
    obtain ⟨hc, hrun⟩ := List.forall_mem_cons.mp hrun
    simp [groupsLength, hc, ih hrun]

/-- What may go on with a number. -/
def goesOnNumber (c : Char) : Bool :=
  c.isAlphanum || c == '_' || c == '.'

theorem Stops.of_goesOnNumber (h : Stops goesOnNumber rest) :
    Stops (fun c => c.isDigit || c == '_') rest :=
  h.imp fun c hc => by
    rcases Bool.or_eq_true_iff.mp hc with hc | hc <;> simp [goesOnNumber, Char.isAlphanum, hc]

theorem toLower_ne_of_not_goesOnNumber {c d : Char} (hc : ¬ goesOnNumber c) (hd : d.isAlpha) :
    c.toLower ≠ d := fun h =>
  hc (by simp [goesOnNumber, Char.isAlphanum, isAlpha_of_toLower hd h])

theorem exponentLength_digits {digits : List Char} (hne : digits ≠ [])
    (hdigits : ∀ c ∈ digits, c.isDigit) (hrest : Stops goesOnNumber rest) :
    exponentLength ('e' :: (digits ++ rest)) = digits.length + 1 ∧
      exponentLength ('e' :: '-' :: (digits ++ rest)) = digits.length + 2 := by
  obtain ⟨c, tail, rfl⟩ := List.exists_cons_of_ne_nil hne
  have hc : c.isDigit := hdigits c List.mem_cons_self
  have hgroups := groupsLength_append hdigits hrest.of_goesOnNumber
  have hplus : c ≠ '+' := by
    rintro rfl
    exact absurd hc (by decide)
  have hminus : c ≠ '-' := by
    rintro rfl
    exact absurd hc (by decide)
  rw [List.cons_append] at hgroups ⊢
  constructor
  · simp [exponentLength, hc, hplus, hminus, hgroups]
  · simp [exponentLength, hc, hgroups]

namespace Numeral

variable {n : Numeral}

theorem exponentLength_append (n : Numeral) (hrest : Stops goesOnNumber rest) :
    exponentLength (n.exponentChars ++ rest) = n.exponentChars.length := by
  unfold exponentChars
  cases n.exponent with
  | none =>
    cases rest with
    | nil => rfl
    | cons c rest =>
      have hletter := toLower_ne_of_not_goesOnNumber (stops_cons.mp hrest) (d := 'e') (by decide)
      simp [exponentLength, hletter]
  | some e =>
    have htext := integerText_toString e
    simp only
    generalize (toString e).toList = text at htext
    cases htext with
    | zero => exact (exponentLength_digits (by simp) isDigit_of_mem_zero hrest).1
    | positive h =>
      obtain ⟨first, tail, hdigits, -⟩ := h.head_ne
      exact (exponentLength_digits (by simp [hdigits]) h.isDigit hrest).1
    | negative h =>
      obtain ⟨first, tail, hdigits, -⟩ := h.head_ne
      exact (exponentLength_digits (by simp [hdigits]) h.isDigit hrest).2

/-- No digit and no underscore follows the digits before or behind the point. -/
theorem stops_exponentChars (n : Numeral) (hrest : Stops goesOnNumber rest) :
    Stops (fun c => c.isDigit || c == '_') (n.exponentChars ++ rest) ∧
      (n.exponentChars ++ rest).head? ≠ some '.' := by
  unfold exponentChars
  cases n.exponent with
  | none =>
    refine ⟨hrest.of_goesOnNumber, fun hhead => ?_⟩
    exact hrest '.' hhead (by decide)
  | some e => exact ⟨stops_cons.mpr (by decide), by simp⟩

theorem fractionLength_append (h : n.WellFormed) (hrest : Stops goesOnNumber rest) :
    fractionLength (n.fractionChars ++ (n.exponentChars ++ rest)) = n.fractionChars.length := by
  obtain ⟨hstops, hpoint⟩ := n.stops_exponentChars hrest
  unfold fractionChars
  cases hfraction : n.fraction with
  | none =>
    cases hbehind : n.exponentChars ++ rest with
    | nil => rfl
    | cons c more =>
      rw [hbehind] at hpoint
      rw [List.nil_append, fractionLength]
      · rfl
      · rintro digits hdigits
        simp_all
  | some digits =>
    rw [List.cons_append, fractionLength, groupsLength_append (h.fraction digits hfraction) hstops]
    rfl

theorem groupsLength_whole (h : n.WellFormed) (hrest : Stops goesOnNumber rest) :
    groupsLength Char.isDigit (n.chars ++ rest) = n.whole.length := by
  rw [chars, List.append_assoc, List.append_assoc]
  refine groupsLength_append h.whole ?_
  unfold fractionChars
  cases n.fraction with
  | none => exact (n.stops_exponentChars hrest).1
  | some digits => exact stops_cons.mpr (by decide)

/-- A numeral is a float if it has a point or an exponent, and then it is one as a whole. -/
theorem floatLength_append (h : n.WellFormed) (hrest : Stops goesOnNumber rest) :
    floatLength (n.chars ++ rest) = if n.isInteger then 0 else n.chars.length := by
  have hwhole := groupsLength_whole h hrest
  have hfraction := fractionLength_append h hrest
  have hexponent := n.exponentLength_append hrest
  have hdrop : (n.chars ++ rest).drop n.whole.length =
      n.fractionChars ++ (n.exponentChars ++ rest) := by
    rw [chars, List.append_assoc, List.append_assoc]
    exact List.drop_left' rfl
  have hdrop' : (n.chars ++ rest).drop (n.whole.length + n.fractionChars.length) =
      n.exponentChars ++ rest := by
    rw [chars, List.append_assoc]
    exact List.drop_left' (List.length_append)
  have hinteger : (n.fractionChars.length = 0 ∧ n.exponentChars.length = 0) ↔ n.isInteger := by
    unfold fractionChars exponentChars isInteger
    cases n.fraction <;> cases n.exponent <;> simp
  have hlength : n.chars.length =
      n.whole.length + n.fractionChars.length + n.exponentChars.length := by
    simp [chars, Nat.add_assoc]
  simp only [floatLength, hwhole, hdrop, hfraction, hdrop', hexponent, hinteger, hlength]

end Numeral

theorem groupsLength_mono {q q' : Char → Bool} (h : ∀ c, q c → q' c) (s : List Char) :
    groupsLength q s ≤ groupsLength q' s := by
  induction s with
  | nil => exact Nat.le_refl _
  | cons c s ih =>
    have hhead : s.head?.any q → s.head?.any q' := by
      cases s with
      | nil => exact id
      | cons d s => exact h d
    unfold groupsLength
    by_cases hc : q c
    · rw [if_pos hc, if_pos (h c hc)]
      omega
    · rw [if_neg hc]
      by_cases hunder : c = '_' ∧ s.head?.any q
      · rw [if_pos hunder]
        by_cases hc' : q' c
        · rw [if_pos hc']
          omega
        · rw [if_neg hc', if_pos ⟨hunder.1, hhead hunder.2⟩]
          omega
      · rw [if_neg hunder]
        exact Nat.zero_le _

theorem isDigit_of_octal (c : Char) (hc : '0' ≤ c && c ≤ '7') : c.isDigit := by
  simp only [Bool.and_eq_true, decide_eq_true_eq, Char.le_def, UInt32.le_iff_toNat_le] at hc
  have hseven : '7'.val.toNat ≤ '9'.val.toNat := by decide
  exact Char.isDigit_iff_toNat.mpr ⟨hc.1, hc.2.trans hseven⟩

/-- An integer goes as far as its digits, unless it has a marker for its base. -/
theorem integerLength_le_groupsLength {c : Char} (hc : c.isDigit)
    (hmarker : ∀ d ∈ s.head?, d.toLower ∉ ['x', 'b', 'o']) :
    integerLength (c :: s) ≤ groupsLength Char.isDigit (c :: s) := by
  have hgroups : groupsLength Char.isDigit (c :: s) = groupsLength Char.isDigit s + 1 := by
    rw [groupsLength, if_pos hc]
  by_cases hzero : c = '0'
  · subst hzero
    cases s with
    | nil => exact Nat.le_refl 1
    | cons d more =>
      have hd := hmarker d rfl
      simp only [List.mem_cons, List.not_mem_nil, or_false, not_or] at hd
      have hmono := groupsLength_mono isDigit_of_octal (d :: more)
      rw [hgroups, integerLength, if_neg hd.1, if_neg hd.2.1, if_neg hd.2.2]
      omega
  · rw [hgroups, integerLength_cons hzero, if_pos hc]

/-- What a digit is not. -/
theorem of_isDigit {c : Char} (hc : c.isDigit) :
    isLexicalNameStart c = false ∧ c.toLower ∉ ['x', 'b', 'o'] ∧ c ∉ ['\'', '"', '`', '('] := by
  have hten : ∀ n < 10, isLexicalNameStart (Nat.digitChar n) = false ∧
      (Nat.digitChar n).toLower ∉ ['x', 'b', 'o'] ∧ Nat.digitChar n ∉ ['\'', '"', '`', '('] := by
    decide
  rw [← digitChar_digitValue hc]
  exact hten _ (digitValue_lt hc)

/-- At a digit there are only numbers. -/
theorem codeLexemes_digit {c : Char} (hc : c.isDigit) (tight : Bool) (s : List Char) :
    codeLexemes tight (c :: s) = byLength
      ([⟨.float, floatLength (c :: s)⟩, ⟨.integer, integerLength (c :: s)⟩].filter
        (·.length ≠ 0)) := by
  obtain ⟨hstart, hletter, hmark⟩ := of_isDigit hc
  simp only [List.mem_cons, List.not_mem_nil, or_false, not_or] at hmark hletter
  have hnames : nameLength (c :: s) = 0 := by simp [nameLength, hstart]
  have hquote : quoteOpening? (c :: s) = none := by
    unfold quoteOpening?
    split <;> simp_all
  have hmarks := markLexemes_eq_nil (c := c) (by simp [isLexicalNameChar, hc]) s
  have hclass : (keywordLexemes (c :: s) ++ classLexemes (c :: s)).filter (·.length ≠ 0) =
      [⟨.float, floatLength (c :: s)⟩, ⟨.integer, integerLength (c :: s)⟩].filter
        (·.length ≠ 0) := by
    simp [keywordLexemes, classLexemes, hnames, List.filter_cons]
  simp only [codeLexemes, hquote, hmarks, tightLexemes, hmark, hclass, List.head?_cons,
    Option.some.injEq, and_false, if_false, Option.toList_none, List.nil_append]

namespace Numeral

variable {n : Numeral}

/-- Behind its first digit a numeral with a point or an exponent has a digit or one of them. -/
theorem WellFormed.marker_behind (h : n.WellFormed) (hfloat : ¬ n.isInteger) {c : Char}
    {tail : List Char} (hchars : n.chars = c :: tail) (rest : List Char) :
    ∀ d ∈ (tail ++ rest).head?, d.toLower ∉ ['x', 'b', 'o'] := by
  have hdecimal : (n.fractionChars ++ n.exponentChars).head? = some '.' ∨
      (n.fractionChars ++ n.exponentChars).head? = some 'e' := by
    unfold isInteger at hfloat
    unfold fractionChars exponentChars
    cases hfraction : n.fraction <;> cases hexponent : n.exponent <;> simp_all
  obtain ⟨first, more, hwhole⟩ := List.exists_cons_of_ne_nil h.whole_ne
  have htail : tail = more ++ (n.fractionChars ++ n.exponentChars) := by
    rw [chars, hwhole, List.append_assoc, List.cons_append] at hchars
    exact (List.cons.inj hchars).2.symm
  intro d hd
  cases more with
  | nil =>
    rw [htail, List.nil_append, List.head?_append] at hd
    rcases hdecimal with hdecimal | hdecimal <;> rw [hdecimal] at hd <;> cases hd <;> decide
  | cons e more =>
    rw [htail] at hd
    cases hd
    exact (of_isDigit (h.whole d (by simp [hwhole]))).2.1

/-- Where a numeral with a point or an exponent stands, the float comes first. -/
theorem codeLexemes_float (h : n.WellFormed) (hfloat : ¬ n.isInteger)
    (hrest : Stops goesOnNumber rest) (tight : Bool) :
    ∃ others, codeLexemes tight (n.chars ++ rest) = ⟨.float, n.chars.length⟩ :: others := by
  have hlength := floatLength_append h hrest
  rw [if_neg hfloat] at hlength
  obtain ⟨c, tail, hchars, hc⟩ := h.head
  have hle : integerLength (n.chars ++ rest) ≤ n.chars.length := by
    have hgroups := groupsLength_whole h hrest
    have hwhole : n.whole.length ≤ n.chars.length := by simp [chars]
    have hmarker := h.marker_behind hfloat hchars rest
    rw [hchars, List.cons_append] at hgroups ⊢
    rw [← hchars]
    exact (integerLength_le_groupsLength hc hmarker).trans (hgroups.le.trans hwhole)
  have hne : n.chars.length ≠ 0 := by simp [hchars]
  rw [hchars, List.cons_append] at hlength hle ⊢
  rw [← hchars] at hlength hle ⊢
  rw [codeLexemes_digit hc, hlength]
  by_cases hinteger : integerLength (c :: (tail ++ rest)) = 0
  · exact ⟨[], by simp [hinteger, hne, byLength, insertByLength]⟩
  · exact ⟨[⟨.integer, integerLength (c :: (tail ++ rest))⟩], by
      simp [hinteger, hne, byLength, insertByLength, hle]⟩

end Numeral

/-- Where digits stand that no point and no exponent follows, there is only the integer. -/
theorem codeLexemes_integer {digits : List Char} (h : digits = ['0'] ∨ LeadingDigits digits)
    (hrest : Stops goesOnNumber rest) (tight : Bool) :
    codeLexemes tight (digits ++ rest) = [⟨.integer, digits.length⟩] := by
  have hdigits : ∀ c ∈ digits, c.isDigit := by
    rcases h with rfl | h
    · exact isDigit_of_mem_zero
    · exact h.isDigit
  have hne : digits ≠ [] := by
    rcases h with rfl | h
    · simp
    · obtain ⟨first, tail, rfl, -⟩ := h.head_ne
      simp
  have hfloat : floatLength (digits ++ rest) = 0 := by
    have hlength :=
      Numeral.floatLength_append (n := ⟨digits, none, none⟩) ⟨hne, hdigits, nofun⟩ hrest
    simpa [Numeral.chars, Numeral.fractionChars, Numeral.exponentChars, Numeral.isInteger]
      using hlength
  have hinteger : integerLength (digits ++ rest) = digits.length := by
    rcases h with rfl | h
    · cases rest with
      | nil => rfl
      | cons c rest =>
        have hc := stops_cons.mp hrest
        have hoctal : groupsLength (fun d => '0' ≤ d && d ≤ '7') (c :: rest) = 0 := by
          have hmono := groupsLength_mono isDigit_of_octal (c :: rest)
          have hgroups : groupsLength Char.isDigit ([] ++ c :: rest) = 0 :=
            groupsLength_append (by simp) hrest.of_goesOnNumber
          exact Nat.le_zero.mp (hgroups ▸ hmono)
        rw [List.singleton_append, integerLength,
          if_neg (toLower_ne_of_not_goesOnNumber hc (by decide)),
          if_neg (toLower_ne_of_not_goesOnNumber hc (by decide)),
          if_neg (toLower_ne_of_not_goesOnNumber hc (by decide)), hoctal]
        rfl
    · obtain ⟨first, tail, rfl, hzero⟩ := h.head_ne
      have htail : ∀ c ∈ tail, c.isDigit := fun c hc => hdigits c (List.mem_cons_of_mem _ hc)
      rw [List.cons_append, integerLength_cons hzero, if_pos (hdigits first List.mem_cons_self),
        groupsLength_append htail hrest.of_goesOnNumber]
      rfl
  obtain ⟨c, tail, rfl⟩ := List.exists_cons_of_ne_nil hne
  rw [List.cons_append] at hfloat hinteger ⊢
  rw [codeLexemes_digit (hdigits c List.mem_cons_self), hfloat, hinteger]
  simp [byLength, insertByLength]

end Php
end SiteSettings
