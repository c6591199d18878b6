import SiteSettings.Php.Lexeme
import SiteSettings.Proofs.Php.Fitting

/-!
# The lexemes at a place of code

Where a character begins no name, number or string, only marks can stand (`codeLexemes_mark`).  The
lexemes that a text can end with are single characters.
-/

namespace SiteSettings
namespace Php

variable {tight : Bool} {s : List Char} {l : Lexeme}

/-! ## All lexemes -/

theorem insertByLength_perm (l : Lexeme) (lexemes : List Lexeme) :
    (insertByLength l lexemes).Perm (l :: lexemes) := by
  induction lexemes with
  | nil => exact .refl _
  | cons other rest ih =>
    unfold insertByLength
    split
    · exact .refl _
    · exact (ih.cons other).trans (.swap l other rest)

theorem byLength_perm (lexemes : List Lexeme) : (byLength lexemes).Perm lexemes := by
  induction lexemes with
  | nil => exact .refl _
  | cons l rest ih => exact (insertByLength_perm l _).trans (ih.cons l)

theorem mem_codeLexemes :
    l ∈ codeLexemes tight s ↔ quoteOpening? s = some l ∨ l ∈ tightLexemes tight s ∨
      l ∈ markLexemes s ∨ (l ∈ keywordLexemes s ∨ l ∈ classLexemes s) ∧ l.length ≠ 0 := by
  rw [codeLexemes, (byLength_perm _).mem_iff]
  simp only [List.mem_append, List.mem_filter, Option.mem_toList, or_assoc, ne_eq, decide_not,
    Bool.not_eq_true', decide_eq_false_iff_not]

theorem mem_markLexemes :
    l ∈ markLexemes s ↔ ∃ m ∈ marks, beginsWith m s = true ∧ l = ⟨.mark m, m.length⟩ := by
  simp only [markLexemes, List.mem_map, List.mem_filter, and_assoc, eq_comm]

theorem quoteOpening?_terminal (h : quoteOpening? s = some l) :
    ∃ q ∈ [Quote.single, .double, .backtick], l.terminal = .opening q := by
  unfold quoteOpening? at h
  repeat' split at h
  all_goals first | (cases h; exact ⟨_, by decide, rfl⟩) | cases h

theorem terminal_of_mem_codeLexemes (hl : l ∈ codeLexemes tight s) :
    (∃ q ∈ [Quote.single, .double, .backtick], l.terminal = .opening q) ∨
      l.terminal = .tightParen ∨ (∃ m ∈ marks, beginsWith m s = true ∧ l = ⟨.mark m, m.length⟩) ∨
      (∃ w, l.terminal = .lowerWord w) ∨ (∃ w, l.terminal = .word w) ∨
      l.terminal ∈ [.float, .integer, .name] := by
  rcases mem_codeLexemes.mp hl with hl | hl | hl | ⟨hl | hl, -⟩
  · exact .inl (quoteOpening?_terminal hl)
  · unfold tightLexemes at hl
    split at hl
    · cases List.mem_singleton.mp hl
      exact .inr (.inl rfl)
    · nomatch hl
  · exact .inr (.inr (.inl (mem_markLexemes.mp hl)))
  · simp only [keywordLexemes, List.mem_cons, List.not_mem_nil, or_false] at hl
    rcases hl with rfl | rfl
    · exact .inr (.inr (.inr (.inl ⟨_, rfl⟩)))
    · exact .inr (.inr (.inr (.inr (.inl ⟨_, rfl⟩))))
  · refine .inr (.inr (.inr (.inr (.inr ?_))))
    simp only [classLexemes, List.mem_cons, List.not_mem_nil, or_false] at hl
    rcases hl with rfl | rfl | rfl <;> simp

/-! ## Marks -/

/-- A character that no name, number or string begins with. -/
def isMarkChar (c : Char) : Bool :=
  !(isLexicalNameStart c || c.isDigit || c ∈ ['.', '\'', '"', '`'])

theorem isAlpha_of_toLower {c d : Char} (hd : d.isAlpha = true) (h : c.toLower = d) :
    c.isAlpha = true := by
  subst h
  unfold Char.toLower at hd
  split at hd
  · next hupper =>
    have hisUpper : c.isUpper = true := decide_eq_true hupper
    change (c.isUpper || c.isLower) = true
    rw [hisUpper, Bool.true_or]
  · exact hd

theorem floatLength_eq_zero {c : Char} (hdigit : c.isDigit = false) (hunder : c ≠ '_')
    (hpoint : c ≠ '.') (hletter : c.toLower ≠ 'e') (rest : List Char) :
    floatLength (c :: rest) = 0 := by
  have hgroups : groupsLength Char.isDigit (c :: rest) = 0 := by
    simp [groupsLength, hdigit, hunder]
  simp [floatLength, hgroups, fractionLength, exponentLength, hletter, hpoint]

/-- At such a character there are only marks. -/
theorem codeLexemes_mark {c : Char} (hc : isMarkChar c = true) (tight : Bool) (rest : List Char) :
    codeLexemes tight (c :: rest) =
      byLength (tightLexemes tight (c :: rest) ++ markLexemes (c :: rest)) := by
  simp only [isMarkChar, Bool.not_eq_true', Bool.or_eq_false_iff, decide_eq_false_iff_not,
    List.mem_cons, List.not_mem_nil, or_false, not_or] at hc
  obtain ⟨⟨hname, hdigit⟩, hpoint, hsingle, hdouble, hbacktick⟩ := hc
  have halpha : c.isAlpha = false := by
    simp only [isLexicalNameStart, Bool.or_eq_false_iff] at hname
    exact hname.1.1.1.1.1.1
  have hlower : ∀ d : Char, d.isAlpha = true → c.toLower ≠ d := by
    intro d hd h
    rw [isAlpha_of_toLower hd h] at halpha
    nomatch halpha
  have hunder : c ≠ '_' := by
    rintro rfl
    exact absurd hname (by decide)
  have hzero : c ≠ '0' := by
    rintro rfl
    exact absurd hdigit (by decide)
  have hquote : quoteOpening? (c :: rest) = none := by
    unfold quoteOpening?
    split <;> simp_all
  have hnames : nameLength (c :: rest) = 0 := by simp [nameLength, hname]
  have hintegers : integerLength (c :: rest) = 0 := by
    unfold integerLength
    split <;> simp_all
  have hfloats := floatLength_eq_zero hdigit hunder hpoint (hlower 'e' (by decide)) rest
  simp [codeLexemes, hquote, keywordLexemes, classLexemes, hnames, hintegers, hfloats]

theorem mark_of_mem_codeLexemes {c : Char} (hc : isMarkChar c = true) (hparen : c ≠ '(')
    {rest : List Char} (hl : l ∈ codeLexemes tight (c :: rest)) :
    ∃ m ∈ marks, beginsWith m (c :: rest) = true ∧ l = ⟨.mark m, m.length⟩ := by
  rw [codeLexemes_mark hc, (byLength_perm _).mem_iff, List.mem_append] at hl
  rcases hl with hl | hl
  · simp [tightLexemes, hparen] at hl
  · exact mem_markLexemes.mp hl

/-- Some marks begin no other mark. -/
theorem codeLexemes_alone {c : Char} (hc : c ∈ [')', '[', ']', '\x7b', '\x7d', ';', ',', '$'])
    (tight : Bool) (rest : List Char) :
    codeLexemes tight (c :: rest) = [⟨.mark (String.singleton c), 1⟩] := by
  simp only [List.mem_cons, List.not_mem_nil, or_false] at hc
  rcases hc with rfl | rfl | rfl | rfl | rfl | rfl | rfl | rfl <;>
    rw [codeLexemes_mark (by decide)] <;> cases tight <;> rfl

theorem head?_of_beginsWith {m : String} (hm : m ∈ marks) {c : Char} {rest : List Char}
    (h : beginsWith m (c :: rest) = true) : m.toList.head? = some c := by
  have hne : m.toList ≠ [] := by
    have hall : (marks.all fun m => m.toList ≠ []) = true := by decide
    simpa using List.all_eq_true.mp hall m hm
  obtain ⟨d, ds, hd⟩ := List.exists_cons_of_ne_nil hne
  have hprefix := List.isPrefixOf_iff_prefix.mp h
  rw [hd, List.cons_prefix_cons] at hprefix
  rw [hd, hprefix.1]
  rfl

/-- What begins with an asterisk or an angle bracket to the left. -/
theorem kind_of_operator {m : String} (hm : m ∈ marks)
    (hhead : m.toList.head? = some '*' ∨ m.toList.head? = some '<') :
    markKind m = .operator ∨ markKind m = .clashing := by
  have hall : (marks.all fun m => !(m.toList.head? = some '*' || m.toList.head? = some '<') ||
      (markKind m = .operator || markKind m = .clashing)) = true := by decide
  rcases hhead with hhead | hhead <;> simpa [hhead] using List.all_eq_true.mp hall m hm

/-- A text is complete only behind a semicolon, a brace or a colon. -/
theorem head?_of_canFinish (hl : l ∈ codeLexemes tight s)
    (hfinish : l.terminal.kind.canFinish = true) :
    l.length = 1 ∧ ∃ c ∈ [';', '\x7d', ':'], s.head? = some c := by
  have hmark : ∃ m ∈ [";", "\x7d", ":"], beginsWith m s = true ∧ l.length = 1 := by
    rcases terminal_of_mem_codeLexemes hl with ⟨q, -, h⟩ | h | ⟨m, -, hbegins, rfl⟩ |
      ⟨w, h⟩ | ⟨w, h⟩ | h
    · rw [h] at hfinish
      nomatch hfinish
    · rw [h] at hfinish
      nomatch hfinish
    · have hm := Terminal.of_canFinish hfinish
      simp only [List.mem_cons, Terminal.mark.injEq, List.not_mem_nil, or_false, reduceCtorEq] at hm
      rcases hm with rfl | rfl | rfl <;> exact ⟨_, by decide, hbegins, rfl⟩
    · rw [h] at hfinish
      have hw := Terminal.of_canFinish hfinish
      simp at hw
    · rw [h] at hfinish
      have hw := Terminal.of_canFinish hfinish
      simp at hw
    · have ht := Terminal.of_canFinish hfinish
      generalize l.terminal = t at h ht
      simp only [List.mem_cons, List.not_mem_nil, or_false] at h ht
      rcases h with rfl | rfl | rfl <;> simp at ht
  obtain ⟨m, hm, hbegins, hlength⟩ := hmark
  obtain ⟨rest, rfl⟩ := List.isPrefixOf_iff_prefix.mp hbegins
  refine ⟨hlength, ?_⟩
  simp only [List.mem_cons, List.not_mem_nil, or_false] at hm
  rcases hm with rfl | rfl | rfl
  · exact ⟨';', by simp, rfl⟩
  · exact ⟨'\x7d', by simp, rfl⟩
  · exact ⟨':', by simp, rfl⟩

end Php
end SiteSettings
