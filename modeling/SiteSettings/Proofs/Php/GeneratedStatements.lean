import SiteSettings.Proofs.Php.Operands

/-!
# Generated statements are statements of the grammar

The assignments and the include guard are statements of the grammar, whatever follows them.  A
target is printed with its innermost variable first and its last key last, while the tree holds the
last key at its root; so what may follow the text of a target is a premise of the lemma about it
(`Expr.spells_target`).
-/

namespace SiteSettings
namespace Php

open Form Form.Spells Reader Rule

/-! ## Targets -/

theorem Place.excludes_of_dollar {p : Place} (hp : p.last = .dollar) {t : Terminal}
    (h : admits .dollar t.kind = false) : p.excludes t := by
  have hnone : p.after? t = none := by
    rw [after?, hp, h]
    rfl
  simp [excludes, hnone, isFinal, hp]

/-- Behind a dollar sign no word is a keyword. -/
theorem Place.admits_dollar_word (w : String) : admits .dollar (Terminal.word w).kind = false := by
  change admits .dollar (wordKind w) = false
  unfold wordKind
  split_ifs <;> rfl

theorem Place.admits_dollar_lowerWord (w : String) :
    admits .dollar (Terminal.lowerWord w).kind = false := by
  change admits .dollar (if w ∈ lowerWords then .become .other else .unknown) = false
  split <;> rfl

/-- Whether a variable's name is a single name where it is written without quotes. -/
def isLexable (name : String) : Bool :=
  !isPlainName name || name.toList.all isLexicalNameChar

/-- Whether an expression is a variable or an element of one, at keys that are values. -/
def Expr.isTarget : Expr → Bool
  | .variable name => isLexable name
  | .element base index => base.isTarget && index.isValue
  | _ => false
termination_by structural expr => expr

section

variable {q : Place} {rest s' : List Char}

/-- The places behind a variable or an element of one. -/
theorem isCode_become (last : Last) : (Place.start.become last).isCode := rfl

theorem spells_dollar (rest : List Char) : (Form.token (.mark "$")).Spells .start ('$' :: rest)
    (Place.start.become .dollar) rest :=
  .mark '$' (by simp) rfl rfl rest

/-- A variable is read up to the end of its name. -/
theorem spells_variable {name : String} (h : isLexable name)
    (hends : ∀ c ∈ rest.head?, endsWord c = true) :
    ∃ last, (last = .other ∨ last = .brace) ∧ (Form.rule variableStart).Spells .start
      ((variableText name).toList ++ rest) (Place.start.become last) rest := by
  unfold variableText
  split
  · next hplain =>
    have hchars : ∀ c ∈ name.toList, isLexicalNameChar c := by
      simpa [isLexable, hplain] using h
    obtain ⟨c, tail, hname, hstart⟩ := CodeReader.exists_cons_of_isPlainName hplain
    have hlexical : isLexicalNameStart c := by
      have hc := hchars c (by simp [hname])
      rw [isLexicalNameChar, Bool.or_eq_true] at hc
      exact hc.resolve_right (CodeReader.not_isDigit_of_isNameStart hstart)
    have hword : IsWord name.toList rest := ⟨⟨c, tail, hname, hlexical⟩, hchars, hends⟩
    have hspells : (Form.token .name).Spells (Place.start.become .dollar) (name.toList ++ rest)
        (Place.start.become .other) rest :=
      .name hword rfl rfl ⟨Place.excludes_of_dollar rfl (Place.admits_dollar_lowerWord _),
        Place.excludes_of_dollar rfl (Place.admits_dollar_word _)⟩ (.inl ⟨rfl, rfl⟩)
    have htext : ("$" ++ name).toList ++ rest = '$' :: (name.toList ++ rest) := by simp
    rw [htext]
    exact ⟨.other, .inl rfl, .rule (.one (.rule (.seq (spells_dollar _) (.one hspells))))⟩
  · have hopen (s : List Char) : (Form.token (.mark "\x7b")).Spells (Place.start.become .dollar)
        ('\x7b' :: s) (.code [.brace]) s := .mark '\x7b' (by simp) rfl rfl s
    have hquoted : (Form.rule expr).Spells (.code [.brace]) ((quoted name).toList ++ '\x7d' :: rest)
        (.code [.brace]) ('\x7d' :: rest) :=
      .exprOfOperand (IsOperand.quoted_spells name rfl _)
    have hclose : (Form.token (.mark "\x7d")).Spells (.code [.brace]) ('\x7d' :: rest)
        (Place.start.become .brace) rest := .mark '\x7d' (by simp) rfl rfl rest
    have htext : ("$\x7b" ++ quoted name ++ "\x7d").toList ++ rest =
        '$' :: '\x7b' :: ((quoted name).toList ++ '\x7d' :: rest) := by
      simp
    rw [htext]
    exact ⟨.brace, .inr rfl, .rule (.one (.rule (.seq (spells_dollar _)
      (.other (.other (.seq (hopen _) (.seq hquoted hclose)))))))⟩

/-- An element is read behind what its base is read as. -/
theorem spells_element {last : Last} (hlast : last = .other ∨ last = .brace) {index : List Char}
    (hindex : IsOperand index)
    (hmore : (opt (Form.rule operandAfterVariable)).Spells (Place.start.become .other) rest q s') :
    (opt (Form.rule operandAfterVariable)).Spells (Place.start.become last)
      ('[' :: (index ++ ']' :: rest)) q s' := by
  have hopen : (Form.token (.mark "[")).Spells (Place.start.become last)
      ('[' :: (index ++ ']' :: rest))
      (.code [.bracket]) (index ++ ']' :: rest) :=
    .mark '[' (by simp) rfl (by rcases hlast with rfl | rfl <;> rfl) _
  have hclose : (Form.token (.mark "]")).Spells (.code [.bracket]) (']' :: rest)
      (Place.start.become .other) rest := .mark ']' (by simp) rfl rfl rest
  have haccess : (Form.rule elementAccess).Spells (Place.start.become last)
      ('[' :: (index ++ ']' :: rest)) (Place.start.become .other) rest :=
    .rule (.one (.seq hopen (.seq (.optSome (hindex.spells_expr rfl (.mark (by simp)))) hclose)))
  exact .optSome (.rule (.one (.one (.seq haccess hmore))))

/-- **The text of a target begins an operand**, with whatever may follow a variable behind it. -/
theorem Expr.spells_target (indent depth : Nat) : ∀ (e : Expr), e.isTarget → ∀ {rest : List Char},
    (∀ c ∈ rest.head?, endsWord c = true) →
    (∀ last, (last = .other ∨ last = .brace) →
      (opt (Form.rule operandAfterVariable)).Spells (Place.start.become last) rest q s') →
    (Form.rule operand).Spells .start ((e.text indent depth).toList ++ rest) q s'
  | .variable name, h, rest, hends, hmore => by
    rw [Expr.text]
    obtain ⟨last, hlast, hspells⟩ := spells_variable h hends
    have hchain := hspells.seq (hmore last hlast)
    exact .rule (.one (.other (.other (.other (.other (.other (.one hchain)))))))
  | .element base index, h, rest, _, hmore => by
    simp only [Expr.isTarget, Bool.and_eq_true] at h
    rw [toList_element]
    simp only [List.append_assoc, List.cons_append, List.nil_append]
    refine base.spells_target indent depth h.1 (by simp; decide) fun last hlast => ?_
    exact spells_element hlast (index.isOperand_text indent h.2 depth) (hmore .other (.inl rfl))

end

/-! ## Assignments -/

/-- What is assigned behind a variable. -/
theorem spells_assignmentTail {last : Last} (hlast : last = .other ∨ last = .brace)
    {value : List Char} (hvalue : IsOperand value) (rest : List Char) :
    (opt (Form.rule operandAfterVariable)).Spells (Place.start.become last)
      (' ' :: '=' :: ' ' :: (value ++ ';' :: rest)) (.code []) (';' :: rest) := by
  have hequals : (Form.token (.mark "=")).Spells (Place.start.become last)
      (' ' :: '=' :: ' ' :: (value ++ ';' :: rest)) (.code []) (' ' :: (value ++ ';' :: rest)) := by
    refine .skip (isCode_become last) (.blanks_dense isPlainBlank_space (by decide)) rfl
      (.token (Consumes.lexeme (w := []) (isCode_become last) (by decide)
        (by rcases hlast with rfl | rfl <;> rfl) fun tight => ?_))
    have hlexemes : codeLexemes tight ('=' :: ' ' :: (value ++ ';' :: rest)) =
        [⟨.mark "=", 1⟩] := by
      rw [codeLexemes_mark (by decide)]
      cases tight <;> rfl
    exact hlexemes ▸ Place.picks_cons _ _ _
  have hsource : (Form.rule operand).Spells (.code []) ([' '] ++ (value ++ ';' :: rest)) (.code [])
      (';' :: rest) :=
    hvalue.spells_behind rfl isPlainBlank_space rfl (.mark (by simp))
  exact .optSome
    (.rule (.other (.other (.other (.rule (.one (.seq hequals (.seq .optNone hsource))))))))

/-- The semicolon behind a statement. -/
theorem spells_semi {frames : List Frame} (hcode : (Place.code frames).isCode) (rest : List Char) :
    (Form.rule semi).Spells (.code frames) (';' :: rest) ⟨.ended, frames, false⟩ rest :=
  .rule (.one (.mark ';' (by simp) hcode rfl rest))

/-- **The text of an assignment is a statement of the grammar.** -/
theorem Stmt.spells_assignment (indent : Nat) {target value : Expr} (ht : target.isTarget)
    (hv : value.isValue) (comments : List String) (rest : List Char) :
    (Form.rule statement).Spells .start
      (((Stmt.expression (.assign target value) comments).text indent 0).toList ++ rest)
      ⟨.ended, [], false⟩ rest := by
  have hoperand : (Form.rule operand).Spells .start ((target.text indent 0).toList ++
      ' ' :: '=' :: ' ' :: ((value.text indent 0).toList ++ ';' :: rest)) (.code [])
        (';' :: rest) :=
    target.spells_target indent 0 ht (by simp; decide) fun last hlast =>
      spells_assignmentTail hlast (value.isOperand_text indent hv 0) rest
  rw [toList_expression, toList_assign]
  simp only [List.append_assoc, List.cons_append, List.nil_append]
  have hstatement := (Form.Spells.exprOfOperand hoperand).seq (spells_semi rfl rest)
  exact .rule (.one (.other (.other (.other (.one hstatement)))))

/-! ## The include guard -/

/-- The word with which a guard begins. -/
theorem spells_if (rest : List Char) :
    (Form.token (.word "if")).Spells .start ('i' :: 'f' :: ' ' :: rest)
    ⟨.header true, [], false⟩ (' ' :: rest) := by
  refine .token (Consumes.lexeme (w := ['f']) rfl (by decide) rfl fun tight => ?_)
  have hlexemes : codeLexemes tight ('i' :: 'f' :: ' ' :: rest) =
      [⟨.lowerWord "if", 2⟩, ⟨.word "if", 2⟩, ⟨.name, 2⟩] := by
    cases tight <;> rfl
  exact ⟨[⟨.lowerWord "if", 2⟩], [⟨.name, 2⟩], hlexemes,
    List.forall_mem_singleton.mpr (Place.excludes_of_unknown rfl)⟩

/-- The inclusion in the block of a guard. -/
theorem spells_includeOnce {path : List Char} (hpath : IsOperand path) (rest : List Char) :
    (Form.rule operand).Spells (.code [.brace])
      ("include_once".toList ++ ' ' :: (path ++ ';' :: rest))
      (.code [.brace]) (';' :: rest) := by
  have hword : (Form.token (.word "include_once")).Spells (.code [.brace])
      ("include_once".toList ++ ' ' :: (path ++ ';' :: rest)) (.code [.brace])
      (' ' :: (path ++ ';' :: rest)) := by
    refine .token (Consumes.lexeme (w := "nclude_once".toList) rfl (by decide) rfl fun tight => ?_)
    have hlexemes : codeLexemes tight ("include_once".toList ++ ' ' :: (path ++ ';' :: rest)) =
        [⟨.lowerWord "include_once", 12⟩, ⟨.word "include_once", 12⟩, ⟨.name, 12⟩] := by
      cases tight <;> rfl
    exact ⟨[⟨.lowerWord "include_once", 12⟩], [⟨.name, 12⟩], hlexemes,
      List.forall_mem_singleton.mpr (Place.excludes_of_unknown rfl)⟩
  have hoperand : (Form.rule operand).Spells (.code [.brace]) ([' '] ++ (path ++ ';' :: rest))
      (.code [.brace]) (';' :: rest) :=
    hpath.spells_behind rfl isPlainBlank_space rfl (.mark (by simp))
  exact .rule (.other (.one (.seq (.other (.other (.one hword))) hoperand)))

section

variable {condition path blanks : List Char}

/-- The condition of a guard in its parentheses. -/
theorem spells_condition (hcondition : IsOperand condition) (rest : List Char) :
    (Form.rule parenthesized).Spells ⟨.header true, [], false⟩
      (' ' :: '(' :: (condition ++ ')' :: rest))
      ⟨.ready true, [], false⟩ rest := by
  have hopen : (Form.token (.mark "(")).Spells ⟨.header true, [], false⟩
      (' ' :: '(' :: (condition ++ ')' :: rest)) (.code [.header true])
        (condition ++ ')' :: rest) :=
    .skip rfl (.blanks_dense isPlainBlank_space (by decide)) rfl (.paren rfl (by simp) rfl rfl _)
  have hclose : (Form.token (.mark ")")).Spells (.code [.header true]) (')' :: rest)
      ⟨.ready true, [], false⟩ rest := .mark ')' (by simp) rfl rfl rest
  exact .rule (.seq hopen (.seq (hcondition.spells_expr rfl (.mark (by simp))) hclose))

/-- The block of a guard. -/
theorem spells_inclusionBlock (hpath : IsOperand path) (hblanks : ∀ c ∈ blanks, isPlainBlank c)
    (rest : List Char) :
    (Form.rule block).Spells ⟨.ready true, [], false⟩ (' ' :: '\x7b' :: '\n' ::
      (blanks ++ ("include_once".toList ++ ' ' :: (path ++ ';' :: '\n' :: '\x7d' :: rest))))
      ⟨.brace, [], false⟩ rest := by
  have hopen (s : List Char) : (Form.token (.mark "\x7b")).Spells ⟨.ready true, [], false⟩
      (' ' :: '\x7b' :: s) (.code [.brace]) s :=
    .skip rfl (.blanks_dense isPlainBlank_space (by decide)) rfl (.mark '\x7b' (by simp) rfl rfl s)
  have hclose : (Form.token (.mark "\x7d")).Spells ⟨.ended, [.brace], false⟩
      ('\n' :: '\x7d' :: rest)
      ⟨.brace, [], false⟩ rest :=
    .skip rfl (.blanks_dense isPlainBlank_lineEnd (by decide)) rfl
      (.mark '\x7d' (by simp) rfl rfl rest)
  have hexpr := Spells.exprOfOperand (spells_includeOnce hpath ('\n' :: '\x7d' :: rest))
  have hstatement : (Form.rule statement).Spells (.code [.brace]) ('\n' ::
      (blanks ++ ("include_once".toList ++ ' ' :: (path ++ ';' :: '\n' :: '\x7d' :: rest))))
      ⟨.ended, [.brace], false⟩ ('\n' :: '\x7d' :: rest) :=
    .skip rfl (.blanks_dense (isPlainBlank_newLine hblanks) (by decide)) rfl
      (.rule (.one (.other (.other (.other (.one (.seq hexpr (spells_semi rfl _))))))))
  exact .rule (.seq (hopen _) (.seq (.manyCons hstatement .manyNil) hclose))

/-- **The text of a guard is a statement of the grammar.** -/
theorem spells_guard (hcondition : IsOperand condition) (hpath : IsOperand path)
    (hblanks : ∀ c ∈ blanks, isPlainBlank c) (rest : List Char) :
    (Form.rule statement).Spells .start
      ('i' :: 'f' :: ' ' :: '(' :: (condition ++ ')' :: ' ' :: '\x7b' ::
      '\n' ::
        (blanks ++ ("include_once".toList ++ ' ' :: (path ++ ';' :: '\n' :: '\x7d' :: rest)))))
      ⟨.brace, [], false⟩ rest := by
  have hblock := spells_inclusionBlock hpath hblanks rest
  have hbody : (Form.rule statement).Spells ⟨.ready true, [], false⟩ _ ⟨.brace, [], false⟩ rest :=
    .rule (.one (.other (.one hblock)))
  exact .rule (.other (.one (.rule (.seq (spells_if _) (.seq (spells_condition hcondition _)
    (.one (.seq hbody (.seq .manyNil .optNone))))))))

end

end Php
end SiteSettings
