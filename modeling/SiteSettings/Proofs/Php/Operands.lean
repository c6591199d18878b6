import SiteSettings.Proofs.Assignments
import SiteSettings.Proofs.Php.Spelling

/-!
# Generated values are operands of the grammar

A text is an operand if it is read as one wherever that can stand in code, up to what ends it there:
a bracket, a comma, a semicolon or an arrow (`IsOperand`).  Names, numerals, quoted texts, calls and
array literals are operands, each by the form it has in the grammar, so the text of every value is
one (`Expr.isOperand_text`).  The induction is on the expression; an array literal goes through its
items one after another, with the comma and the line end behind each.
-/

namespace SiteSettings
namespace Php

open Form Reader Rule

/-! ## Marks and names -/

namespace Place

/-- Code inside some frames, behind something that is not special. -/
def code (frames : List Frame) : Place :=
  ⟨.other, frames, false⟩

theorem excludes_of_unknown {p : Place} {t : Terminal} (h : t.kind = .unknown) : p.excludes t := by
  have hnone (p : Place) : p.after? t = none := by
    rw [after?, h]
    exact ite_self _
  simp [excludes, hnone]

end Place

theorem isPlainBlank_of_isLexicalNameStart {c : Char} (hc : isLexicalNameStart c) :
    isPlainBlank c = false := by
  by_contra hplain
  have hle : c.toNat ≤ 32 := by
    simp only [isPlainBlank, Bool.not_eq_false, Bool.or_eq_true, Bool.and_eq_true, beq_iff_eq,
      decide_eq_true_eq, Char.le_def, UInt32.le_iff_toNat_le] at hplain
    rcases hplain with rfl | ⟨-, hle⟩
    · decide
    · exact Nat.le_trans hle (by decide)
  have hsmall : ∀ n < 33, isLexicalNameStart (Char.ofNat n) = false := by decide
  have h := hsmall c.toNat (by omega)
  rw [Char.ofNat_toNat] at h
  rw [h] at hc
  cases hc

theorem isDense_of_isLexicalNameStart {c : Char} (hc : isLexicalNameStart c) : isDense c := by
  have hne (d : Char) (hd : isLexicalNameStart d = false) : c ≠ d := by
    rintro rfl
    rw [hd] at hc
    nomatch hc
  rw [isDense_iff]
  refine ⟨?_, hne _ (by decide), hne _ (by decide), hne _ (by decide), hne _ (by decide)⟩
  simp [isCodeBlank, isPlainBlank_of_isLexicalNameStart hc, hne '\u00a0' (by decide),
    hne '\u200b' (by decide), hne '\u2060' (by decide), hne '\ufeff' (by decide)]

theorem isDense_of_isDigit {c : Char} (hc : c.isDigit) : isDense c := by
  have hten : ∀ n < 10, isDense (Nat.digitChar n) := by decide
  rw [← digitChar_digitValue hc]
  exact hten _ (digitValue_lt hc)

/-- Three marks go on behind a minus. -/
theorem eq_minus_of_beginsWith {m : String} (hm : m ∈ marks) {rest : List Char}
    (hbegins : beginsWith m ('-' :: rest)) (hrest : ∀ c ∈ rest.head?, c ∉ ['=', '>', '-']) :
    m = "-" := by
  have hall : (marks.all fun m => m.toList.head? ≠ some '-' ||
      m ∈ ["-=", "->", "--", "-"]) = true := by decide
  have hmark := List.all_eq_true.mp hall m hm
  rw [head?_of_beginsWith hm hbegins] at hmark
  simp only [ne_eq, not_true_eq_false, decide_false, Bool.false_or, decide_eq_true_eq,
    List.mem_cons, List.not_mem_nil, or_false] at hmark
  have hfollows (c : Char) (hc : c ∈ ['=', '>', '-']) :
      ['-', c].isPrefixOf ('-' :: rest) = false := by
    cases rest with
    | nil => rfl
    | cons d rest =>
      have hne : d ≠ c := by
        rintro rfl
        exact hrest d rfl hc
      simp [List.isPrefixOf, Ne.symm hne]
  rcases hmark with rfl | rfl | rfl | rfl
  · nomatch (hfollows '=' (by simp)).symm.trans hbegins
  · nomatch (hfollows '>' (by simp)).symm.trans hbegins
  · nomatch (hfollows '-' (by simp)).symm.trans hbegins
  · rfl

namespace Form.Spells

variable {p q : Place} {rest : List Char}

theorem mark (c : Char) (hc : c ∈ [')', '[', ']', '\x7b', '\x7d', ';', ',', '$']) (hp : p.isCode)
    (hq : p.after? (.mark (String.singleton c)) = some q) (rest : List Char) :
    (Form.token (.mark (String.singleton c))).Spells p (c :: rest) q rest := by
  have hdense : isDense c := by
    have hall : ([')', '[', ']', '\x7b', '\x7d', ';', ',', '$'].all isDense) = true := by decide
    exact List.all_eq_true.mp hall c hc
  refine .token (Consumes.lexeme (w := []) hp hdense hq fun tight => ?_)
  rw [codeLexemes_alone hc]
  exact p.picks_cons _ []

theorem paren (hp : p.isCode) (hvisibility : p.last ≠ .visibility) (hfinal : p.isFinal = false)
    (hq : p.after? (.mark "(") = some q) (rest : List Char) :
    (Form.token (.mark "(")).Spells p ('(' :: rest) q rest := by
  refine .token (Consumes.lexeme (w := []) hp (by decide) hq fun tight => ?_)
  have htight : p.excludes .tightParen := by
    simp [Place.excludes, Place.after?, Terminal.kind, Place.afterKind?, hvisibility, hfinal]
  have hlexemes : codeLexemes tight ('(' :: rest) =
      tightLexemes tight ('(' :: rest) ++ [⟨.mark "(", 1⟩] := by
    rw [codeLexemes_mark (by decide)]
    cases tight <;> rfl
  refine ⟨tightLexemes tight ('(' :: rest), [], hlexemes, fun other hother => ?_⟩
  unfold tightLexemes at hother
  split at hother
  · cases List.mem_singleton.mp hother
    exact htight
  · cases hother

/-- A word that can be nothing else is a name. -/
theorem name {w : List Char} (hw : IsWord w rest) (hp : p.isCode) (hq : p.after? .name = some q)
    (hwords : p.excludes (.lowerWord (String.ofList w)) ∧
      p.excludes (.word (String.ofList (w.map Char.toLower))))
    (hnumbers : p.excludes .float ∧ p.excludes .integer ∨
      floatLength (w ++ rest) = 0 ∧ integerLength (w ++ rest) = 0) :
    (Form.token .name).Spells p (w ++ rest) q rest := by
  obtain ⟨c, tail, rfl, hc⟩ := hw.head
  refine .token (Consumes.lexeme hp (isDense_of_isLexicalNameStart hc) hq fun tight => ?_)
  have hlexemes {l : Lexeme} : l ∈ codeLexemes tight (c :: tail ++ rest) ↔ _ := hw.mem_codeLexemes
  rw [List.cons_append] at hlexemes
  refine Place.picks_of_mem (hlexemes.mpr (.inr (.inr (.inl rfl)))) fun l hl => ?_
  rcases hlexemes.mp hl with rfl | rfl | rfl | ⟨hl, hne⟩
  · exact .inr hwords.1
  · exact .inr hwords.2
  · exact .inl rfl
  · rcases hnumbers with ⟨hfloat, hinteger⟩ | ⟨hfloat, hinteger⟩
    · rcases hl with rfl | rfl
      · exact .inr hfloat
      · exact .inr hinteger
    · rcases hl with rfl | rfl
      · exact absurd hfloat hne
      · exact absurd hinteger hne

/-- A sign stands alone in front of what no mark goes on with. -/
theorem minus (hp : p.isCode) (hq : p.after? (.mark "-") = some q)
    (hrest : ∀ c ∈ rest.head?, c ∉ ['=', '>', '-']) :
    (Form.token (.mark "-")).Spells p ('-' :: rest) q rest := by
  refine .token (Consumes.lexeme (w := []) hp (by decide) hq fun tight => ?_)
  refine Place.picks_of_mem (mem_codeLexemes.mpr (.inr (.inr (.inl ?_)))) fun l hl => .inl ?_
  · exact mem_markLexemes.mpr ⟨"-", by decide, rfl, rfl⟩
  · obtain ⟨m, hm, hbegins, rfl⟩ := mark_of_mem_codeLexemes (by decide) (by decide) hl
    cases eq_minus_of_beginsWith hm hbegins hrest
    rfl

/-! ## Expressions -/

variable {s s' s'' : List Char} {q' : Place}

theorem optNone {f : Form} : (opt f).Spells p s p s :=
  .other .empty

theorem optSome {f : Form} (h : f.Spells p s q s') : (opt f).Spells p s q s' :=
  .one h

theorem operandOfAtom (h : (Form.rule atom).Spells p s q s') :
    (Form.rule operand).Spells p s q s' :=
  .rule (.one (.other (.other (.other (.other (.one (h.seq optNone)))))))

theorem operandOfValue (h : (Form.rule valueStart).Spells p s q s')
    (hmore : (opt (Form.rule operandAfterValue)).Spells q s' q' s'') :
    (Form.rule operand).Spells p s q' s'' :=
  .rule (.one (.other (.other (.other (.other (.other (.other (h.seq hmore))))))))

theorem operandOfMinus (h : (Form.token (.mark "-")).Spells p s q s')
    (hmore : (Form.rule operand).Spells q s' q' s'') : (Form.rule operand).Spells p s q' s'' :=
  .rule (.one (.one (.seq (.other (.one h)) (hmore.seq optNone))))

theorem exprOfOperand (h : (Form.rule operand).Spells p s q s') :
    (Form.rule expr).Spells p s q s' :=
  .rule (h.seq .manyNil)

end Form.Spells

/-! ## Scalars -/

/-- A text that spells what a form derives wherever that can stand in code, up to what ends it. -/
structure IsTextOf (f : Form) (text : List Char) : Prop where
  head : ∃ c tail, text = c :: tail ∧ isDense c
  spells : ∀ {frames : List Frame} {rest : List Char}, (Place.code frames).isCode → Ends rest →
    f.Spells (.code frames) (text ++ rest) (.code frames) rest

abbrev IsOperand (text : List Char) : Prop :=
  IsTextOf (.rule operand) text

theorem Ends.stops_number {rest : List Char} (h : Ends rest) : Stops goesOnNumber rest :=
  h.stops (by decide)

theorem Ends.ends_word {rest : List Char} (h : Ends rest) :
    ∀ c ∈ rest.head?, endsWord c = true := by
  have hstops : Stops (fun c => !endsWord c) rest := h.stops (by decide)
  intro c hc
  simpa using hstops c hc

namespace IsOperand

theorem float {n : Numeral} (h : n.WellFormed) (hfloat : ¬ n.isInteger) : IsOperand n.chars := by
  obtain ⟨c, tail, hchars, hc⟩ := h.head
  refine ⟨⟨c, tail, hchars, isDense_of_isDigit hc⟩, fun {frames rest} hcode hends => ?_⟩
  have hlexeme (tight : Bool) : (Place.code frames).Picks (codeLexemes tight (n.chars ++ rest))
      ⟨.float, n.chars.length⟩ := by
    obtain ⟨others, hlexemes⟩ := n.codeLexemes_float h hfloat hends.stops_number tight
    exact hlexemes ▸ Place.picks_cons _ _ others
  rw [hchars, List.cons_append] at hlexeme ⊢
  exact .operandOfAtom (.rule (.one (.rule (.other (.one
    (.token (Consumes.lexeme hcode (isDense_of_isDigit hc) rfl hlexeme)))))))

theorem integer {digits : List Char} (h : digits = ['0'] ∨ LeadingDigits digits) :
    IsOperand digits := by
  obtain ⟨c, tail, hchars, hc⟩ : ∃ c tail, digits = c :: tail ∧ c.isDigit := by
    rcases h with rfl | h
    · exact ⟨'0', [], rfl, by decide⟩
    · obtain ⟨c, tail, hdigits, -⟩ := h.head_ne
      exact ⟨c, tail, hdigits, h.isDigit c (by simp [hdigits])⟩
  refine ⟨⟨c, tail, hchars, isDense_of_isDigit hc⟩, fun {frames rest} hcode hends => ?_⟩
  have hlexeme (tight : Bool) : (Place.code frames).Picks (codeLexemes tight (digits ++ rest))
      ⟨.integer, digits.length⟩ := by
    rw [codeLexemes_integer h hends.stops_number tight]
    exact Place.picks_cons _ _ []
  rw [hchars, List.cons_append] at hlexeme ⊢
  exact .operandOfAtom (.rule (.one (.rule (.one
    (.token (Consumes.lexeme hcode (isDense_of_isDigit hc) rfl hlexeme))))))

theorem negative {text : List Char} (h : IsOperand text)
    (hhead : ∃ c tail, text = c :: tail ∧ c ∉ ['=', '>', '-']) : IsOperand ('-' :: text) := by
  refine ⟨⟨'-', text, rfl, by decide⟩, fun {frames rest} hcode hends => ?_⟩
  obtain ⟨c, tail, rfl, hc⟩ := hhead
  have hsign : ∀ d ∈ (c :: (tail ++ rest)).head?, d ∉ ['=', '>', '-'] := by
    rintro d ⟨⟩
    exact hc
  exact .operandOfMinus (q := .code frames) (.minus hcode rfl hsign) (h.spells hcode hends)

/-- A digit does not make a longer mark of a minus. -/
theorem not_continues {c : Char} (hc : c.isDigit) : c ∉ ['=', '>', '-'] := by
  intro hmem
  simp only [List.mem_cons, List.not_mem_nil, or_false] at hmem
  rcases hmem with rfl | rfl | rfl <;> exact absurd hc (by decide)

/-- The words that can only be names. -/
theorem name_spells {w : String} (hw : w ∈ ["INF", "NAN", "PHP_INT_MIN", "file_exists", "getenv"])
    {frames : List Frame} {rest : List Char} (hcode : (Place.code frames).isCode)
    (hends : ∀ c ∈ rest.head?, endsWord c = true) :
    (Form.rule valueStart).Spells (.code frames) (w.toList ++ rest) (.code frames) rest := by
  have hall : ∀ w ∈ ["INF", "NAN", "PHP_INT_MIN", "file_exists", "getenv"],
      w.toList.all isLexicalNameChar ∧
      (Terminal.lowerWord (String.ofList w.toList)).kind = .unknown ∧
      (Terminal.word (String.ofList (w.toList.map Char.toLower))).kind = .unknown ∧
      w.toList.head?.any fun c =>
        isLexicalNameStart c && !c.isDigit && c != '_' && c != '.' && c.toLower != 'e' := by
    decide
  obtain ⟨hchars, hlower, hword, hhead⟩ := hall w hw
  obtain ⟨c, tail, hw'⟩ := List.exists_cons_of_ne_nil (l := w.toList) fun hnil => by
    rw [hnil] at hhead
    nomatch hhead
  rw [hw', List.head?_cons, Option.any_some] at hhead
  simp only [Bool.and_eq_true, bne_iff_ne, ne_eq, Bool.not_eq_true'] at hhead
  obtain ⟨⟨⟨⟨hstart, hdigit⟩, hunder⟩, hpoint⟩, hletter⟩ := hhead
  have hfloat : floatLength (w.toList ++ rest) = 0 := by
    rw [hw']
    exact floatLength_eq_zero hdigit hunder hpoint hletter (tail ++ rest)
  have hinteger : integerLength (w.toList ++ rest) = 0 := by
    have hzero : c ≠ '0' := by
      rintro rfl
      exact absurd hdigit (by decide)
    rw [hw', List.cons_append, integerLength_cons hzero, hdigit]
    rfl
  have hspells : (Form.token .name).Spells (.code frames) (w.toList ++ rest) (.code frames) rest :=
    .name ⟨⟨c, tail, hw', hstart⟩, List.all_eq_true.mp hchars, hends⟩ hcode rfl
      ⟨Place.excludes_of_unknown hlower, Place.excludes_of_unknown hword⟩ (.inr ⟨hfloat, hinteger⟩)
  exact .rule (.one (.rule (.seq .optNone (.seq hspells .manyNil))))

theorem constant {w : String} (hw : w ∈ ["INF", "NAN", "PHP_INT_MIN"]) : IsOperand w.toList := by
  refine ⟨?_, fun {frames rest} hcode hends => ?_⟩
  · simp only [List.mem_cons, List.not_mem_nil, or_false] at hw
    rcases hw with rfl | rfl | rfl
    · exact ⟨'I', _, rfl, by decide⟩
    · exact ⟨'N', _, rfl, by decide⟩
    · exact ⟨'P', _, rfl, by decide⟩
  · have hname := List.mem_append_left ["file_exists", "getenv"] hw
    exact .operandOfValue (name_spells hname hcode hends.ends_word) .optNone

/-- A quoted text needs nothing behind it. -/
theorem quoted_spells (text : String) {frames : List Frame} (hcode : (Place.code frames).isCode)
    (rest : List Char) :
    (Form.rule operand).Spells (.code frames) ((Php.quoted text).toList ++ rest)
      (.code frames) rest := by
  have hderives : (literalOf .single (.inside .single)).Derives (quotedTerminals text.toList) := by
    have hclosing : (Form.rule (.text (.inside .single))).Derives [.closing .single] :=
      .rule (.altOne (.token _))
    by_cases htext : text.toList = []
    · rw [quotedTerminals, if_pos htext]
      exact .seq (.token _) hclosing
    · rw [quotedTerminals, if_neg htext]
      exact .seq (.token _) (.rule (.altOther (.altOne (.seq (.token _) hclosing))))
  rw [CodeReader.quoted_append]
  exact .operandOfValue (.rule (.other (.other (.one (.one
    ⟨_, hderives, Consumes.quoted hcode rfl text.toList rest⟩))))) .optNone

theorem quoted (text : String) : IsOperand (quoted text).toList := by
  refine ⟨⟨'\'', escapeQuotes text.toList ++ ['\''], ?_, by decide⟩,
    fun {frames rest} hcode _ => quoted_spells text hcode rest⟩
  simpa using CodeReader.quoted_append text []

theorem integerText {text : List Char} {n : Int} (h : IntegerText text n) : IsOperand text := by
  cases h with
  | zero => exact integer (.inl rfl)
  | positive h _ => exact integer (.inr h)
  | negative h _ =>
    obtain ⟨c, tail, hdigits, -⟩ := h.head_ne
    exact (integer (.inr h)).negative
      ⟨c, tail, hdigits, not_continues (h.isDigit c (hdigits ▸ List.mem_cons_self))⟩

/-- Every scalar is written as an operand. -/
theorem scalar (value : Scalar) : IsOperand value.text.toList := by
  unfold Scalar.text
  split
  · exact quoted _
  · split
    · exact constant (by simp)
    · exact integerText (integerText_toString _)
  · rename_i x
    split
    · exact constant (by simp)
    · split
      · split
        · exact (constant (w := "INF") (by simp)).negative ⟨'I', _, rfl, by decide⟩
        · exact constant (by simp)
      · rename_i hnan hinfinite
        have hfinite := Binary64.isFinite_of_not_isNaN hnan hinfinite
        obtain ⟨n, hformed, hfloat, hchars⟩ := Binary64.exists_numeral_literal hfinite
        rw [hchars]
        cases x.isNegative with
        | true =>
          obtain ⟨c, tail, hhead, hc⟩ := hformed.head
          exact (float hformed hfloat).negative ⟨c, tail, hhead, not_continues hc⟩
        | false => exact float hformed hfloat

/-! ## Calls and arrays -/

theorem spells_expr {text : List Char} (h : IsOperand text) {frames : List Frame} {rest : List Char}
    (hcode : (Place.code frames).isCode) (hends : Ends rest) :
    (Form.rule expr).Spells (.code frames) (text ++ rest) (.code frames) rest :=
  .exprOfOperand (h.spells hcode hends)

theorem call {function : String} (hf : function ∈ ["file_exists", "getenv"]) {inner : List Char}
    (h : IsOperand inner) : IsOperand (function.toList ++ '(' :: (inner ++ [')'])) := by
  refine ⟨?_, fun {frames rest} hcode hends => ?_⟩
  · simp only [List.mem_cons, List.not_mem_nil, or_false] at hf
    rcases hf with rfl | rfl
    · exact ⟨'f', _, rfl, by decide⟩
    · exact ⟨'g', _, rfl, by decide⟩
  · have hname : (Form.rule valueStart).Spells (.code frames)
        (function.toList ++ '(' :: (inner ++ ')' :: rest)) (.code frames)
          ('(' :: (inner ++ ')' :: rest)) := by
      refine name_spells ?_ hcode fun c hc => ?_
      · simp only [List.mem_cons, List.not_mem_nil, or_false] at hf ⊢
        tauto
      · cases hc
        decide
    have hopen : (Form.token (.mark "(")).Spells (.code frames) ('(' :: (inner ++ ')' :: rest))
        (.code (.paren :: frames)) (inner ++ ')' :: rest) :=
      .paren hcode (by simp [Place.code]) (by simp [Place.code, Place.isFinal]) rfl _
    have hargument : (Form.rule .argument).Spells (.code (.paren :: frames)) (inner ++ ')' :: rest)
        (.code (.paren :: frames)) (')' :: rest) :=
      .rule (.seq .optNone (.seq .optNone (.other (.other (h.spells_expr rfl (.mark (by simp)))))))
    have hclose : (Form.token (.mark ")")).Spells (.code (.paren :: frames)) (')' :: rest)
        (.code frames) rest := .mark ')' (by simp) rfl rfl rest
    have harguments : (Form.rule .arguments).Spells (.code frames) ('(' :: (inner ++ ')' :: rest))
        (.code frames) rest :=
      .rule (.seq hopen (.seq (.optSome (.other (.seq (.seq hargument .manyNil) .optNone))) hclose))
    rw [List.append_assoc, List.cons_append, List.append_assoc, List.singleton_append]
    exact .operandOfValue hname
      (.optSome (.rule (.one (.one (.seq (.rule (.other (.other (.one harguments)))) .optNone)))))

end IsOperand

/-! ## Blanks -/

theorem isPlainBlank_space : ∀ c ∈ [' '], isPlainBlank c :=
  List.forall_mem_singleton.mpr rfl

theorem isPlainBlank_lineEnd : ∀ c ∈ ['\n'], isPlainBlank c :=
  List.forall_mem_singleton.mpr rfl

theorem isPlainBlank_spaces (n : Nat) : ∀ c ∈ (Text.spaces n).toList, isPlainBlank c := by
  intro c hc
  rw [Text.spaces, String.toList_ofList] at hc
  rw [List.eq_of_mem_replicate hc]
  rfl

theorem isPlainBlank_newLine {blanks : List Char} (h : ∀ c ∈ blanks, isPlainBlank c) :
    ∀ c ∈ '\n' :: blanks, isPlainBlank c :=
  List.forall_mem_cons.mpr ⟨rfl, h⟩

/-! ## Items -/

/-- An item of an array literal without the blanks in front of it and the comma behind it. -/
def itemText (indent depth : Nat) : ArrayItem → List Char
  | .plain value => (value.text indent depth).toList
  | .keyed key value =>
    (key.text indent depth).toList ++ ' ' :: '=' :: '>' :: ' ' :: (value.text indent depth).toList

theorem toList_itemLine (indent depth : Nat) (i : ArrayItem) : (itemLine indent depth i).toList =
    (Text.spaces (indent * depth)).toList ++ (itemText indent depth i ++ [',', '\n']) := by
  cases i <;> simp [itemLine, itemText]

/-- Blanks may stand in front of a text. -/
theorem IsTextOf.spells_behind {f : Form} {text : List Char} (h : IsTextOf f text)
    (hf : f.nullable = false) {blanks : List Char} (hblanks : ∀ c ∈ blanks, isPlainBlank c)
    {frames : List Frame} {rest : List Char} (hcode : (Place.code frames).isCode)
    (hends : Ends rest) :
    f.Spells (.code frames) (blanks ++ (text ++ rest)) (.code frames) rest := by
  have hspells := h.spells hcode hends
  obtain ⟨c, tail, rfl, hc⟩ := h.head
  exact .skip hcode (.blanks_dense hblanks hc) hf hspells

theorem isTextOf_keyed {key value : List Char} (hkey : IsOperand key) (hvalue : IsOperand value) :
    IsTextOf (.rule arrayItem) (key ++ ' ' :: '=' :: '>' :: ' ' :: value) := by
  refine ⟨?_, fun {frames rest} hcode hends => ?_⟩
  · obtain ⟨c, tail, rfl, hc⟩ := hkey.head
    exact ⟨c, tail ++ ' ' :: '=' :: '>' :: ' ' :: value, rfl, hc⟩
  · have harrow : (Form.token (.mark "=>")).Spells (.code frames)
        (' ' :: '=' :: '>' :: ' ' :: (value ++ rest)) (.code frames) (' ' :: (value ++ rest)) := by
      refine .skip hcode (.blanks_dense isPlainBlank_space (by decide)) rfl
        (.token (Consumes.lexeme (w := ['>']) hcode (by decide) rfl fun tight => ?_))
      have hlexemes : codeLexemes tight ('=' :: '>' :: ' ' :: (value ++ rest)) =
          [⟨.mark "=>", 2⟩, ⟨.mark "=", 1⟩] := by
        rw [codeLexemes_mark (by decide)]
        cases tight <;> rfl
      exact hlexemes ▸ Place.picks_cons _ _ _
    have hexpr : IsTextOf (.rule expr) value := ⟨hvalue.head, hvalue.spells_expr⟩
    have htext : key ++ ' ' :: '=' :: '>' :: ' ' :: value ++ rest =
        key ++ (' ' :: '=' :: '>' :: ' ' :: (value ++ rest)) := by simp
    rw [htext]
    exact .rule (.one (.seq (hkey.spells_expr hcode .arrow)
      (.optSome (.seq harrow (.one (hexpr.spells_behind rfl isPlainBlank_space hcode hends))))))

/-! ## Arrays -/

section

variable {indent depth : Nat} {frames : List Frame} {rest blanks : List Char}

theorem spells_comma {p : Place} (hp : p.isCode) (hq : p.after? (.mark ",") = some p)
    (rest : List Char) :
    (Form.token (.mark ",")).Spells p (',' :: rest) p rest :=
  .mark ',' (by simp) hp hq rest

/-- An item on a line of its own, up to the comma. -/
theorem spells_itemLine {text : List Char} (h : IsTextOf (.rule arrayItem) text) (width : Nat)
    (rest : List Char) :
    (Form.rule arrayItem).Spells (.code (.bracket :: frames))
      ('\n' :: ((Text.spaces width).toList ++ (text ++ ',' :: rest))) (.code (.bracket :: frames))
        (',' :: rest) :=
  h.spells_behind rfl (isPlainBlank_newLine (isPlainBlank_spaces width)) rfl (.mark (by simp))

/-- The items behind the first one, each with the comma in front of it. -/
theorem spells_moreItems :
    ∀ {items : List ArrayItem},
      (∀ i ∈ items, IsTextOf (.rule arrayItem) (itemText indent depth i)) →
    (Form.many (.seq (Form.token (.mark ",")) (.rule arrayItem))).Spells
      (.code (.bracket :: frames))
      (',' :: '\n' :: ((itemLines indent depth items).toList ++ (blanks ++ ']' :: rest)))
      (.code (.bracket :: frames)) (',' :: '\n' :: (blanks ++ ']' :: rest))
  | [], _ => .manyNil
  | i :: more, h => by
    obtain ⟨hi, hmore⟩ := List.forall_mem_cons.mp h
    rw [itemLines, String.toList_append, toList_itemLine]
    simp only [List.append_assoc, List.cons_append, List.nil_append]
    exact .manyCons (.seq (spells_comma rfl rfl _) (spells_itemLine hi _ _))
      (spells_moreItems hmore)

/-- The items with everything around them. -/
theorem spells_items {i : ArrayItem} {more : List ArrayItem}
    (h : ∀ j ∈ i :: more, IsTextOf (.rule arrayItem) (itemText indent depth j))
    (hcode : (Place.code frames).isCode) (hblanks : ∀ c ∈ blanks, isPlainBlank c) :
    (Form.rule arrayLiteral).Spells (.code frames)
      ('[' :: '\n' :: ((itemLines indent depth (i :: more)).toList ++ (blanks ++ ']' :: rest)))
      (.code frames) rest := by
  obtain ⟨hi, hmore⟩ := List.forall_mem_cons.mp h
  have hopen (s : List Char) : (Form.token (.mark "[")).Spells (.code frames) ('[' :: s)
      (.code (.bracket :: frames)) s := .mark '[' (by simp) hcode rfl s
  have hclose : (Form.token (.mark "]")).Spells (.code (.bracket :: frames))
      ('\n' :: (blanks ++ ']' :: rest))
      (.code frames) rest :=
    .skip rfl (.blanks_dense (isPlainBlank_newLine hblanks) (by decide)) rfl
      (.mark ']' (by simp) rfl rfl rest)
  rw [itemLines, String.toList_append, toList_itemLine]
  simp only [List.append_assoc, List.cons_append, List.nil_append]
  refine .rule (.one (.seq (hopen _) (.seq (.seq ?_ (.optSome (spells_comma rfl rfl _))) hclose)))
  exact .optSome (.seq (spells_itemLine hi _ _) (spells_moreItems hmore))

end

theorem isOperand_array {indent depth : Nat} {items : List ArrayItem}
    (h : ∀ i ∈ items, IsTextOf (.rule arrayItem) (itemText indent (depth + 1) i)) :
    IsOperand ((Expr.array items).text indent depth).toList := by
  cases items with
  | nil =>
    have htext : ((Expr.array []).text indent depth).toList = ['[', ']'] := by rw [Expr.text]; rfl
    refine htext ▸ ⟨⟨'[', [']'], rfl, by decide⟩, fun {frames rest} hcode _ => ?_⟩
    have hopen : (Form.token (.mark "[")).Spells (.code frames) ('[' :: ']' :: rest)
        (.code (.bracket :: frames)) (']' :: rest) := .mark '[' (by simp) hcode rfl _
    have hclose : (Form.token (.mark "]")).Spells (.code (.bracket :: frames)) (']' :: rest)
        (.code frames) rest := .mark ']' (by simp) rfl rfl rest
    have hliteral : (Form.rule arrayLiteral).Spells (.code frames) ('[' :: ']' :: rest)
        (.code frames) rest :=
      .rule (.one (.seq hopen (.seq (.seq .optNone .optNone) hclose)))
    exact .operandOfValue (.rule (.other (.other (.other (.one hliteral))))) .optNone
  | cons i more =>
    rw [toList_array indent depth (List.cons_ne_nil i more)]
    refine ⟨⟨'[', _, rfl, by decide⟩, fun {frames rest} hcode _ => ?_⟩
    simp only [List.append_assoc, List.cons_append, List.nil_append]
    exact .operandOfValue (.rule (.other (.other (.other (.one
      (spells_items h hcode (isPlainBlank_spaces (indent * depth)))))))) .optNone

/-! ## Values -/

mutual

/-- Whether an expression is made of scalars, arrays and the calls of generated code alone. -/
def Expr.isValue : Expr → Bool
  | .call function [inner] => function ∈ ["file_exists", "getenv"] && inner.isValue
  | .array items => areValues items
  | .scalar _ => true
  | _ => false
termination_by structural expr => expr

def ArrayItem.isValue : ArrayItem → Bool
  | .plain value => value.isValue
  | .keyed key value => key.isValue && value.isValue
termination_by structural item => item

def areValues : List ArrayItem → Bool
  | [] => true
  | item :: rest => item.isValue && areValues rest
termination_by structural items => items

end

section

variable (indent : Nat)

mutual

/-- **The text of a value is an operand of the grammar.** -/
theorem Expr.isOperand_text : ∀ (e : Expr), e.isValue → ∀ (depth : Nat),
    IsOperand (e.text indent depth).toList
  | .variable _, h, _ => nomatch h
  | .element _ _, h, _ => nomatch h
  | .assign _ _, h, _ => nomatch h
  | .inclusion _ _, h, _ => nomatch h
  | .call _ [], h, _ => nomatch h
  | .call _ (_ :: _ :: _), h, _ => nomatch h
  | .call function [inner], h, depth => by
    simp only [Expr.isValue, Bool.and_eq_true, decide_eq_true_eq] at h
    rw [toList_call, argumentTexts, argumentTexts, joinText]
    exact .call h.1 (inner.isOperand_text h.2 depth)
  | .array items, h, depth => by
    rw [Expr.isValue] at h
    exact isOperand_array (areValues_text items h (depth + 1))
  | .scalar value, _, depth => by
    rw [Expr.text]
    exact .scalar value

theorem ArrayItem.isTextOf_itemText : ∀ (i : ArrayItem), i.isValue → ∀ (depth : Nat),
    IsTextOf (.rule arrayItem) (itemText indent depth i)
  | .plain value, h, depth => by
    have hvalue := value.isOperand_text h depth
    exact ⟨hvalue.head, fun hcode hends =>
      .rule (.one (.seq (hvalue.spells_expr hcode hends) .optNone))⟩
  | .keyed key value, h, depth => by
    simp only [ArrayItem.isValue, Bool.and_eq_true] at h
    exact isTextOf_keyed (key.isOperand_text h.1 depth) (value.isOperand_text h.2 depth)

theorem areValues_text : ∀ (items : List ArrayItem), areValues items → ∀ (depth : Nat),
    ∀ i ∈ items, IsTextOf (.rule arrayItem) (itemText indent depth i)
  | [], _, _ => nofun
  | i :: more, h, depth => by
    simp only [areValues, Bool.and_eq_true] at h
    exact List.forall_mem_cons.mpr ⟨i.isTextOf_itemText h.1 depth, areValues_text more h.2 depth⟩

end

end

end Php
end SiteSettings
