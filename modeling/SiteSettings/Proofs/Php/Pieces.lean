import Mathlib.Data.List.Chain
import SiteSettings.Php.LiteralText
import SiteSettings.Proofs.Php.Recognition

/-!
# The pieces of a template

A template is read as pieces that stand one after another: lexemes, each of one terminal, and gaps
between them, which are blanks, comments and plain text.  What can stand at a place is said by the
lexer's functions alone (`GapAt`, `LexemeAt`); which of it is taken is the reader's business.

Pieces are one statement if the terminals of their lexemes derive one and a lexeme comes last
(`IsStatement`).  Gaps inside a statement, and those in front of it, belong to it.  A template that
is one statement after another, with gaps behind them, comes apart in that way (`DividesInto`).
-/

namespace SiteSettings
namespace Php

/-! ## What stands at a place -/

/-- Whether a gap of that length stands at the front of a text: blanks, a comment, or a closing tag
with the plain text behind it. -/
inductive GapAt (s : List Char) : Nat → Prop
  | blanks : GapAt s (blankLength s)
  | lineBlanks : GapAt s (runLength (fun c => isCodeBlank c && !isLineEnd c) s)
  | comment : GapAt s (commentLength s)
  | plain {n : Nat} {opens : Bool} (h : interruption? s = some (n, opens)) : GapAt s n

/-- Whether a lexeme stands at the front of a text: one of code or of a literal, the opening of a
literal of several lines, or, without a length, the end of a statement in front of a closing tag. -/
inductive LexemeAt (s : List Char) : Lexeme → Prop
  | code {tight : Bool} {l : Lexeme} (h : l ∈ codeLexemes tight s) : LexemeAt s l
  | opening {o : LineOpening} (h : lineOpening? s = some o) :
    LexemeAt s ⟨.opening o.quote, o.length⟩
  | text {place : TextPlace} {delimiter : List Char} {l : Lexeme}
      (h : l ∈ textLexemes place delimiter s) : LexemeAt s l
  | endTag (h : tagFollows s) : LexemeAt s ⟨.endTag, 0⟩

/-! ## Pieces -/

/-- A piece of a template: a lexeme with its terminal, or a gap, which has none. -/
structure Piece where
  terminal : Option Terminal
  text : List Char

namespace Piece

def isGap (p : Piece) : Bool :=
  p.terminal.isNone

/-- The text of pieces together. -/
def textOf (ps : List Piece) : List Char :=
  (ps.map text).flatten

/-- The terminals of the lexemes among pieces. -/
def terminalsOf (ps : List Piece) : List Terminal :=
  ps.filterMap terminal

@[simp] theorem textOf_append (ps qs : List Piece) :
    textOf (ps ++ qs) = textOf ps ++ textOf qs := by
  simp [textOf]

@[simp] theorem textOf_singleton (p : Piece) : textOf [p] = p.text := by
  simp [textOf]

@[simp] theorem terminalsOf_append (ps qs : List Piece) :
    terminalsOf (ps ++ qs) = terminalsOf ps ++ terminalsOf qs := by
  simp [terminalsOf]

@[simp] theorem terminalsOf_lexeme (t : Terminal) (text : List Char) :
    terminalsOf [⟨some t, text⟩] = [t] :=
  rfl

theorem terminalsOf_gaps {ps : List Piece} (h : ∀ p ∈ ps, p.isGap) : terminalsOf ps = [] := by
  rw [terminalsOf, List.filterMap_eq_nil_iff]
  exact fun p hp => Option.isNone_iff_eq_none.mp (h p hp)

theorem textOf_flatten (groups : List (List Piece)) :
    textOf groups.flatten = (groups.map textOf).flatten := by
  induction groups with
  | nil => rfl
  | cons ps rest ih => rw [List.flatten_cons, textOf_append, ih, List.map_cons, List.flatten_cons]

end Piece

open Piece

/-- Whether pieces stand one after another at the front of a text, up to what remains of it. -/
inductive Covers : List Char → List Piece → List Char → Prop
  | nil (s : List Char) : Covers s [] s
  | gap {s rest : List Char} {ps : List Piece} {n : Nat} (h : GapAt s n)
      (hrest : Covers (s.drop n) ps rest) : Covers s (⟨none, s.take n⟩ :: ps) rest
  | lexeme {s rest : List Char} {ps : List Piece} {l : Lexeme} (h : LexemeAt s l)
      (hrest : Covers (s.drop l.length) ps rest) :
      Covers s (⟨some l.terminal, s.take l.length⟩ :: ps) rest

theorem Covers.append {s middle rest : List Char} {ps qs : List Piece} (h : Covers s ps middle)
    (hrest : Covers middle qs rest) : Covers s (ps ++ qs) rest := by
  induction h with
  | nil => exact hrest
  | gap h _ ih => exact .gap h (ih hrest)
  | lexeme h _ ih => exact .lexeme h (ih hrest)

theorem Covers.text_eq {s rest : List Char} {ps : List Piece} (h : Covers s ps rest) :
    s = textOf ps ++ rest := by
  induction h with
  | nil => rfl
  | @gap s rest ps n _ _ ih =>
    rw [textOf, List.map_cons, List.flatten_cons, List.append_assoc, ← textOf, ← ih,
      List.take_append_drop]
  | @lexeme s rest ps l _ _ ih =>
    rw [textOf, List.map_cons, List.flatten_cons, List.append_assoc, ← textOf, ← ih,
      List.take_append_drop]

/-- Whether pieces are what a template is read as, up to what remains of it.  First comes the plain
text up to and with the first opening tag. -/
def ReadsAs (source : List Char) (ps : List Piece) (rest : List Char) : Prop :=
  ∃ n opens qs, plainLength source = (n, opens) ∧ ps = ⟨none, source.take n⟩ :: qs ∧
    Covers (source.drop n) qs rest

theorem ReadsAs.append {source middle rest : List Char} {ps qs : List Piece}
    (h : ReadsAs source ps middle) (hrest : Covers middle qs rest) :
    ReadsAs source (ps ++ qs) rest := by
  obtain ⟨n, opens, front, hplain, rfl, hcovers⟩ := h
  exact ⟨n, opens, front ++ qs, hplain, rfl, hcovers.append hrest⟩

theorem ReadsAs.text_eq {source rest : List Char} {ps : List Piece} (h : ReadsAs source ps rest) :
    source = textOf ps ++ rest := by
  obtain ⟨n, opens, qs, -, rfl, hcovers⟩ := h
  rw [textOf, List.map_cons, List.flatten_cons, List.append_assoc, ← textOf, ← hcovers.text_eq,
    List.take_append_drop]

/-! ## Statements -/

/-- Whether pieces end with a lexeme, and are not without text. -/
structure EndsInLexeme (ps : List Piece) : Prop where
  exists_last : ∃ front t text, ps = front ++ [⟨some t, text⟩]
  text_ne_nil : textOf ps ≠ []

/-- Whether pieces are one statement, up to its end. -/
structure IsStatement (ps : List Piece) : Prop extends EndsInLexeme ps where
  derives : Form.Derives (.rule .statement) (terminalsOf ps)

/-- Whether the first lexeme of `next` cannot go on with the statement `ps`, whatever
comes behind it. -/
def PartsFrom (ps next : List Piece) : Prop :=
  ∀ t ts, terminalsOf next = t :: ts →
    ∀ us, ¬ Form.Derives (.rule .statement) (terminalsOf ps ++ t :: us)

/-- Whether a template is read, up to what remains of it, as statements one after another and gaps
behind them. A statement goes on as long as what comes next can belong to it. -/
structure DividesInto (source : List Char) (statements : List (List Piece)) (gaps : List Piece)
    (rest : List Char) : Prop where
  reads : ReadsAs source (statements.flatten ++ gaps) rest
  are_statements : ∀ ps ∈ statements, IsStatement ps
  part : statements.IsChain PartsFrom
  gaps_gap : ∀ p ∈ gaps, p.isGap

theorem EndsInLexeme.terminalsOf_ne_nil {ps : List Piece} (h : EndsInLexeme ps) :
    terminalsOf ps ≠ [] := by
  obtain ⟨front, t, text, rfl⟩ := h.exists_last
  simp

/-- More pieces behind a lexeme change nothing about where it parts from what is before. -/
theorem PartsFrom.append {ps next : List Piece} (h : PartsFrom ps next)
    (hnext : terminalsOf next ≠ []) (more : List Piece) : PartsFrom ps (next ++ more) := by
  intro t ts hts us
  rw [terminalsOf_append] at hts
  cases hterminals : terminalsOf next with
  | nil => exact absurd hterminals hnext
  | cons u front =>
    rw [hterminals] at hts
    obtain ⟨rfl, -⟩ := List.cons.inj hts
    exact h u front hterminals us

/-! ## Lengths -/

theorem runLength_le (p : Char → Bool) (s : List Char) : runLength p s ≤ s.length :=
  (List.takeWhile_prefix p).length_le

theorem lineCommentLength_le (s : List Char) : lineCommentLength s ≤ s.length := by
  fun_induction lineCommentLength s with
  | case8 c rest hne ih =>
    simp only [List.length_cons]
    omega
  | _ => simp_all; try omega

theorem blockCommentLength?_le {s : List Char} {n : Nat} (h : blockCommentLength? s = some n) :
    n ≤ s.length := by
  fun_induction blockCommentLength? s generalizing n with
  | case1 => cases h
  | case2 rest =>
    cases h
    simp
  | case3 c rest hne ih =>
    obtain ⟨m, hm, rfl⟩ := Option.map_eq_some_iff.mp h
    have hle := ih hm
    simpa using hle

theorem commentLength_le (s : List Char) : commentLength s ≤ s.length := by
  unfold commentLength
  split
  · rename_i rest
    have hle := lineCommentLength_le rest
    simp only [List.length_cons]
    omega
  · simp
  · rename_i c rest
    have hle := lineCommentLength_le rest
    split <;> simp only [List.length_cons] <;> omega
  · rename_i rest
    cases hblock : blockCommentLength? rest with
    | none => simp
    | some n =>
      have hle := blockCommentLength?_le hblock
      simpa using hle
  · exact Nat.zero_le _

theorem tagLength_le {s : List Char} (h : beginsWith "<?" s) : tagLength s ≤ s.length := by
  have hlength : 2 ≤ s.length := (List.isPrefixOf_iff_prefix.mp h).length_le
  unfold tagLength
  split
  · simp
  · split <;> simp
  · exact hlength

theorem plainLength_le (s : List Char) : (plainLength s).1 ≤ s.length := by
  fun_induction plainLength s with
  | case1 => exact Nat.le_refl 0
  | case2 c rest htag => exact tagLength_le htag
  | case3 c rest _ n opens hrest ih =>
    rw [hrest] at ih
    exact Nat.succ_le_succ ih

theorem plainLengthInside_le (s : List Char) : (plainLengthInside s).1 ≤ s.length := by
  fun_induction plainLengthInside s with
  | case1 => exact Nat.le_refl 0
  | case2 c rest htag => exact tagLength_le htag
  | case3 c rest => simp
  | case4 c rest _ _ n opens hrest ih =>
    rw [hrest] at ih
    exact Nat.succ_le_succ ih

theorem interruption?_le {s : List Char} {n : Nat} {opens : Bool}
    (h : interruption? s = some (n, opens)) : n ≤ s.length := by
  unfold interruption? at h
  split at h
  · rename_i htag
    have hlength : 2 ≤ s.length := (List.isPrefixOf_iff_prefix.mp htag).length_le
    have hinside := plainLengthInside_le (s.drop 2)
    rw [List.length_drop] at hinside
    simp only [Option.some.injEq, Prod.mk.injEq] at h
    rw [← h.1]
    split <;> omega
  · cases h

/-- A gap is no longer than the text that it stands in. -/
theorem GapAt.length_le {s : List Char} {n : Nat} (h : GapAt s n) : n ≤ s.length := by
  cases h with
  | blanks => exact runLength_le _ s
  | lineBlanks => exact runLength_le _ s
  | comment => exact commentLength_le s
  | plain h => exact interruption?_le h

/-! ## The first lexeme of a statement -/

/-- The keywords that go on with a statement: further branches of an `if` and the
clauses of a `try`. -/
def continuations : List Terminal :=
  ["else", "elseif", "endif", "catch", "finally"].map .word

/-- The terminals whose lexemes can be without text: the ends of a literal, of its line and
of a statement. -/
def endings : List Terminal :=
  [.closing .single, .closing .double, .closing .backtick, .closing .heredoc, .closing .nowdoc,
    .lineEnd, .endTag]

theorem closing_mem_endings (q : Quote) : .closing q ∈ endings := by
  cases q <;> decide

/-- No statement begins with an ending or goes on with another one. -/
theorem after?_statement_eq_none {t : Terminal} (h : t ∈ endings ++ continuations) :
    (Ways.ofForm (.rule .statement)).after? t = none := by
  have hall : ∀ t ∈ endings ++ continuations,
      ((Ways.ofForm (.rule .statement)).after? t).isNone := by
    decide +kernel
  exact Option.isNone_iff_eq_none.mp (hall t h)

/-- A statement that would go on with another one is that one. -/
theorem IsStatement.head?_ne {ps : List Piece} (h : IsStatement ps) {t : Terminal}
    (ht : t ∈ continuations) : (terminalsOf ps).head? ≠ some t := by
  intro hhead
  obtain ⟨ts, hts⟩ := List.head?_eq_some_iff.mp hhead
  have hderives := h.derives
  rw [hts, ← Ways.accepts_ofForm_iff] at hderives
  exact Ways.not_accepts_of_after? (after?_statement_eq_none (List.mem_append_right _ ht)) hderives

/-- A loop that begins with `do` goes on to its condition. -/
theorem IsStatement.derives_of_do {ps : List Piece} (h : IsStatement ps) {ts : List Terminal}
    (hdo : terminalsOf ps = .word "do" :: ts) :
    (Form.seqs [Rule.statement, "while", Rule.parenthesized, Rule.semi]).Derives ts := by
  have hafter : (Form.rule .statement).after (Rule.after (.word "do") ruleDepth) (.word "do") =
      [[Form.seqs [Rule.statement, "while", Rule.parenthesized, Rule.semi]]] := by
    decide +kernel
  have hderives := h.derives
  rw [hdo, Form.derives_cons_iff, hafter] at hderives
  obtain ⟨forms, hforms, hderives⟩ := hderives
  obtain rfl := List.mem_singleton.mp hforms
  exact Form.deriveAll_singleton.mp hderives

theorem mem_insertByLength_iff {l other : Lexeme} {lexemes : List Lexeme} :
    l ∈ insertByLength other lexemes ↔ l = other ∨ l ∈ lexemes := by
  induction lexemes with
  | nil => simp [insertByLength]
  | cons first rest ih =>
    rw [insertByLength]
    split
    · rw [List.mem_cons]
    · rw [List.mem_cons, ih, List.mem_cons, or_left_comm]

theorem mem_byLength_iff {l : Lexeme} {lexemes : List Lexeme} :
    l ∈ byLength lexemes ↔ l ∈ lexemes := by
  induction lexemes with
  | nil => rfl
  | cons first rest ih =>
    rw [byLength, List.foldr_cons, mem_insertByLength_iff, ← byLength, ih, List.mem_cons]

theorem length_pos_of_mem_codeLexemes {tight : Bool} {s : List Char} {l : Lexeme}
    (h : l ∈ codeLexemes tight s) : 0 < l.length := by
  rw [codeLexemes, mem_byLength_iff, List.mem_append, List.mem_append, List.mem_append] at h
  rcases h with ((h | h) | h) | h
  · rw [Option.mem_toList] at h
    unfold quoteOpening? at h
    repeat' split at h
    all_goals cases h <;> simp
  · unfold tightLexemes at h
    split at h
    · obtain rfl := List.mem_singleton.mp h
      exact Nat.one_pos
    · cases h
  · have hmarks : ∀ m ∈ marks, 0 < m.length := by decide
    obtain ⟨m, hm, rfl⟩ := List.mem_map.mp h
    exact hmarks m (List.mem_filter.mp hm).1
  · have hfilter := (List.mem_filter.mp h).2
    simp only [ne_eq, decide_not, Bool.not_eq_true', decide_eq_false_iff_not] at hfilter
    exact Nat.pos_of_ne_zero hfilter

theorem length_pos_of_lineOpening? {s : List Char} {o : LineOpening} (h : lineOpening? s = some o) :
    0 < o.length := by
  obtain ⟨-, h⟩ := Option.ite_none_right_eq_some.mp h
  obtain ⟨-, h⟩ := Option.ite_none_left_eq_some.mp h
  rcases ite_eq_iff.mp h with ⟨-, h⟩ | ⟨-, h⟩
  · obtain ⟨-, h⟩ := Option.ite_none_right_eq_some.mp h
    cases h
    exact Nat.succ_pos _
  · cases h
    dsimp only
    repeat' split
    all_goals omega

/-- Only what closes a literal or ends its line can be without length. -/
theorem length_pos_of_part? {q : Quote} {behind : Bool} {s : List Char} {l : Lexeme}
    (h : part? q behind s = some l) : 0 < l.length ∨ l.terminal = .lineEnd := by
  unfold part? at h
  dsimp only at h
  split at h
  · rename_i hcontent
    cases h
    exact .inl (Nat.pos_of_ne_zero hcontent)
  · unfold textEnd? at h
    repeat' split at h
    all_goals cases h <;> simp

theorem terminal_of_closing? {q : Quote} {delimiter s : List Char} {blanks : Nat} {l : Lexeme}
    (h : closing? q delimiter blanks s = some l) : l.terminal = .closing q := by
  unfold closing? at h
  split at h
  · cases h
    rfl
  · cases h

/-- What stands in a literal is a closing, a part of it, or the end of the line
behind an opening. -/
theorem cases_of_mem_textLexemes {place : TextPlace} {delimiter s : List Char} {l : Lexeme}
    (h : l ∈ textLexemes place delimiter s) :
    (∃ q blanks, closing? q delimiter blanks s = some l) ∨ (∃ q behind, part? q behind s = some l) ∨
      l.terminal = .lineEnd := by
  have hpart {q : Quote} {behind : Bool} (h : l ∈ (partOfLine? q behind delimiter s).toList) :
      part? q behind s = some l :=
    (Option.ite_none_left_eq_some.mp (Option.mem_toList.mp h)).2
  cases place with
  | opened q =>
    have hopened := Option.mem_toList.mp h
    unfold afterOpening? at hopened
    split at hopened
    · next hsome =>
      cases hopened
      exact .inl ⟨_, _, hsome⟩
    · dsimp only at hopened
      obtain ⟨-, hend⟩ := Option.ite_none_left_eq_some.mp hopened
      cases hend
      exact .inr (.inr rfl)
  | lineStart q =>
    unfold textLexemes lineStartLexemes at h
    dsimp only at h
    split at h
    · split at h
      · exact .inl ⟨_, _, Option.mem_toList.mp h⟩
      · exact .inr (.inl ⟨_, _, Option.mem_toList.mp h⟩)
    · rcases List.mem_append.mp h with h | h
      · exact .inr (.inl ⟨_, _, hpart h⟩)
      · exact .inl ⟨_, _, Option.mem_toList.mp h⟩
  | _ => exact .inr (.inl ⟨_, _, hpart h⟩)

/-- Only an ending can be without length. -/
theorem length_pos_of_mem_textLexemes {place : TextPlace} {delimiter s : List Char} {l : Lexeme}
    (h : l ∈ textLexemes place delimiter s) : 0 < l.length ∨ l.terminal ∈ endings := by
  have hend (hend : l.terminal = .lineEnd) : l.terminal ∈ endings := by
    rw [hend]
    decide
  rcases cases_of_mem_textLexemes h with ⟨q, blanks, hclosing⟩ | ⟨q, behind, hpart⟩ | hline
  · rw [terminal_of_closing? hclosing]
    exact .inr (closing_mem_endings q)
  · exact (length_pos_of_part? hpart).imp_right hend
  · exact .inr (hend hline)

/-- What a statement begins with is not without length. -/
theorem LexemeAt.length_pos {s : List Char} {l : Lexeme} (h : LexemeAt s l) {ways : Ways}
    (hstart : (Ways.ofForm (.rule .statement)).after? l.terminal = some ways) : 0 < l.length := by
  have hnot : l.terminal ∉ endings := by
    intro hend
    rw [after?_statement_eq_none (List.mem_append_left _ hend)] at hstart
    cases hstart
  cases h with
  | code h => exact length_pos_of_mem_codeLexemes h
  | opening h => exact length_pos_of_lineOpening? h
  | text h => exact (length_pos_of_mem_textLexemes h).resolve_right hnot
  | endTag => exact absurd (by decide) hnot

end Php
end SiteSettings
