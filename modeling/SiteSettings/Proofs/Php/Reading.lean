import SiteSettings.Proofs.Php.Numerals

/-!
# Generated code reads back

What the printer writes for an expression or a statement, the reader takes off the front of any
text that goes on behind it, and nothing more (`expression_text`, `nestedStatement_text`).  The
layout is lost on the way, and of the numbers that are not numbers only one is left (`oneNaN`); all
else comes back.

Three things make it work.  A quoted text ends at the first quote that no backslash escapes, so it
can hold anything.  An expression is followed by one of a few marks (`Ends`), none of which can go
on with it.  And the indices behind a variable are read one after another, while the tree holds the
last one at its root: `indexed_place` follows the tree and says what is left to be read.

The induction is on expressions.  In it the length of the text bounds both the nesting and the
length of every list.
-/

namespace SiteSettings
namespace Php

/-! ## One value that is not a number -/

/-- All numbers that are not numbers taken for one, as they are all written alike. -/
def Scalar.oneNaN : Scalar → Scalar
  | .float x => .float (if x.isNaN then Binary64.nan false else x)
  | s => s

mutual

def Expr.oneNaN : Expr → Expr
  | .variable name => .variable name
  | .element base index => .element base.oneNaN index.oneNaN
  | .assign target value => .assign target.oneNaN value.oneNaN
  | .call function arguments => .call function (argumentsOneNaN arguments)
  | .inclusion kind path => .inclusion kind path.oneNaN
  | .array items => .array (itemsOneNaN items)
  | .scalar value => .scalar value.oneNaN
termination_by structural expr => expr

def argumentsOneNaN : List Expr → List Expr
  | [] => []
  | argument :: rest => argument.oneNaN :: argumentsOneNaN rest
termination_by structural arguments => arguments

def ArrayItem.oneNaN : ArrayItem → ArrayItem
  | .plain value => .plain value.oneNaN
  | .keyed key value => .keyed key.oneNaN value.oneNaN
termination_by structural item => item

def itemsOneNaN : List ArrayItem → List ArrayItem
  | [] => []
  | item :: rest => item.oneNaN :: itemsOneNaN rest
termination_by structural items => items

end

mutual

def Stmt.oneNaN : Stmt → Stmt
  | .verbatim chunk => .verbatim chunk
  | .ifThen condition body comments => .ifThen condition.oneNaN (bodyOneNaN body) comments
  | .expression value comments => .expression value.oneNaN comments
termination_by structural stmt => stmt

def bodyOneNaN : List Stmt → List Stmt
  | [] => []
  | stmt :: rest => stmt.oneNaN :: bodyOneNaN rest
termination_by structural stmts => stmts

end

theorem Expr.isPlace_oneNaN (e : Expr) : e.oneNaN.isPlace = e.isPlace := by
  fun_induction Expr.isPlace e with
  | case1 name => rfl
  | case2 base index ih => exact ih
  | case3 e hvariable helement => cases e <;> simp_all [oneNaN, isPlace]

/-! ## Code that can be read back -/

/-- Whether the literal of a scalar is read back as it. -/
def Scalar.IsReadable : Scalar → Prop
  | .float x => x.isFinite → x.ReadsBack
  | _ => True

mutual

/-- Whether calls have names of functions, only places have indices or are assigned to, and all
numbers are read back. -/
def Expr.IsReadable : Expr → Prop
  | .variable _ => True
  | .element base index => base.isPlace ∧ base.IsReadable ∧ index.IsReadable
  | .assign target value => target.isPlace ∧ target.IsReadable ∧ value.IsReadable
  | .call function arguments => isIdentifier function ∧ ArgumentsReadable arguments
  | .inclusion _ path => path.IsReadable
  | .array items => ItemsReadable items
  | .scalar value => value.IsReadable
termination_by structural expr => expr

def ArgumentsReadable : List Expr → Prop
  | [] => True
  | argument :: rest => argument.IsReadable ∧ ArgumentsReadable rest
termination_by structural arguments => arguments

def ArrayItem.IsReadable : ArrayItem → Prop
  | .plain value => value.IsReadable
  | .keyed key value => key.IsReadable ∧ value.IsReadable
termination_by structural item => item

def ItemsReadable : List ArrayItem → Prop
  | [] => True
  | item :: rest => item.IsReadable ∧ ItemsReadable rest
termination_by structural items => items

end

mutual

/-- Whether a statement is generated code that can be read back; nested statements
have no comments. -/
def Stmt.IsReadable : Stmt → Prop
  | .verbatim _ => False
  | .ifThen condition body _ => condition.IsReadable ∧ BodyReadable body
  | .expression value _ => value.IsReadable
termination_by structural stmt => stmt

def BodyReadable : List Stmt → Prop
  | [] => True
  | stmt :: rest => stmt.comments = [] ∧ stmt.IsReadable ∧ BodyReadable rest
termination_by structural stmts => stmts

end

/-- What stands behind an expression: a mark that cannot go on with it, or the arrow of an item. -/
inductive Ends : List Char → Prop
  | mark {c : Char} {rest : List Char} (h : c ∈ [']', ')', ',', ';']) : Ends (c :: rest)
  | arrow {rest : List Char} : Ends (' ' :: '=' :: '>' :: rest)

namespace CodeReader

/-! ## Blanks and marks -/

theorem skipSpace_append {blanks : List Char} (h : ∀ c ∈ blanks, isSpace c) (s : List Char) :
    skipSpace (blanks ++ s) = skipSpace s :=
  List.dropWhile_append_of_pos h

theorem skipSpace_of_stops {s : List Char} (h : Stops isSpace s) : skipSpace s = s := by
  have hdrop := h.dropWhile_append fun (c : Char) (hc : c ∈ []) => nomatch hc
  exact hdrop

theorem isSpace_spaces (n : Nat) : ∀ c ∈ (Text.spaces n).toList, isSpace c := by
  intro c hc
  rw [Text.spaces, String.toList_ofList] at hc
  rw [List.eq_of_mem_replicate hc]
  rfl

theorem mark?_append {blanks : List Char} (h : ∀ c ∈ blanks, isSpace c) (mark : Char)
    (s : List Char) :
    mark? mark (blanks ++ s) = mark? mark s := by
  rw [mark?, mark?, skipSpace_append h]

theorem mark?_cons {c : Char} (h : ¬ isSpace c) (rest : List Char) :
    mark? c (c :: rest) = some rest := by
  rw [mark?, skipSpace_of_stops (stops_cons.mpr h)]
  exact if_pos rfl

theorem mark?_eq_none {mark c : Char} {s tail : List Char} (h : skipSpace s = c :: tail)
    (hc : c ≠ mark) :
    mark? mark s = none := by
  rw [mark?, h]
  exact if_neg hc

end CodeReader

namespace Ends

variable {rest : List Char}

/-- No character of a class follows if none of these five is in it. -/
theorem stops (h : Ends rest) {p : Char → Bool}
    (hp : [' ', ']', ')', ',', ';'].all (fun c => !p c) = true) : Stops p rest := by
  have hnone : ∀ c ∈ [' ', ']', ')', ',', ';'], ¬ p c := by simpa using hp
  cases h with
  | mark hc => exact stops_cons.mpr (hnone _ (List.mem_cons_of_mem _ hc))
  | arrow => exact stops_cons.mpr (hnone ' ' List.mem_cons_self)

theorem mark?_eq_none (h : Ends rest) {mark : Char} (hmark : mark ∉ [']', ')', ',', ';', '=']) :
    CodeReader.mark? mark rest = none := by
  cases h with
  | @mark c tail hc =>
    have hspace : Stops CodeReader.isSpace (c :: tail) := by
      have hall : [']', ')', ',', ';'].all (fun c => !CodeReader.isSpace c) = true := rfl
      have hnone := List.all_eq_true.mp hall c hc
      exact stops_cons.mpr (by simpa using hnone)
    refine CodeReader.mark?_eq_none (CodeReader.skipSpace_of_stops hspace) ?_
    rintro rfl
    exact hmark (by simp_all)
  | arrow =>
    refine CodeReader.mark?_eq_none (c := '=') rfl ?_
    rintro rfl
    exact hmark (by simp)

theorem assign?_eq_none (h : Ends rest) : CodeReader.assign? rest = none := by
  cases h with
  | mark hc =>
    simp only [List.mem_cons, List.not_mem_nil, or_false] at hc
    rcases hc with rfl | rfl | rfl | rfl <;> rfl
  | arrow => rfl

end Ends

namespace CodeReader

/-! ## Names and quoted texts -/

theorem name_append {word : String} (h : isPlainName word) {rest : List Char}
    (hrest : Stops isNameChar rest) : name (word.toList ++ rest) = some (word, rest) := by
  unfold isPlainName at h
  split at h
  · cases h
  · rename_i c tail hword
    obtain ⟨hstart, htail⟩ := (Bool.and_eq_true _ _).mp h
    have hchars : ∀ d ∈ tail, isNameChar d := List.all_eq_true.mp htail
    rw [hword, List.cons_append, name, if_pos hstart, hrest.takeWhile_append hchars,
      hrest.dropWhile_append hchars, ← hword, String.ofList_toList]

/-- **A quoted text can hold anything**: it is read up to its own end. -/
theorem quotedText_escapeQuotes (text rest : List Char) :
    quotedText (escapeQuotes text ++ '\'' :: rest) = some (text, rest) := by
  induction text with
  | nil => rfl
  | cons c tail ih =>
    by_cases hc : c = '\\' ∨ c = '\''
    · rw [escapeQuotes, if_pos hc]
      rcases hc with rfl | rfl <;> simp [quotedText, ih]
    · obtain ⟨hbackslash, hquote⟩ := not_or.mp hc
      rw [escapeQuotes, if_neg hc, List.cons_append, quotedText]
      · rw [ih]
        rfl
      · exact fun s hs _ => hbackslash hs
      · exact fun s hs _ => hbackslash hs
      · exact hquote

theorem quoted_append (text : String) (rest : List Char) :
    (quoted text).toList ++ rest = '\'' :: (escapeQuotes text.toList ++ '\'' :: rest) := by
  simp [quoted]

theorem literal_quoted (text : String) (rest : List Char) :
    literal ((quoted text).toList ++ rest) = some (text, rest) := by
  rw [quoted_append, literal, quotedText_escapeQuotes]
  simp

theorem exists_cons_of_isPlainName {word : String} (h : isPlainName word) :
    ∃ c tail, word.toList = c :: tail ∧ isNameStart c := by
  unfold isPlainName at h
  split at h
  · cases h
  · exact ⟨_, _, ‹_›, ((Bool.and_eq_true _ _).mp h).1⟩

theorem toList_variableText (name : String) : ∃ tail, (variableText name).toList = '$' :: tail := by
  unfold variableText
  split <;> simp

theorem variableExpr_text (name : String) {rest : List Char} (hrest : Stops isNameChar rest) :
    variableExpr ((variableText name).toList ++ rest) = some (.variable name, rest) := by
  unfold variableText
  split
  · rename_i hplain
    have hread := name_append hplain hrest
    obtain ⟨c, tail, hname, hstart⟩ := exists_cons_of_isPlainName hplain
    have htext : ("$" ++ name).toList ++ rest = '$' :: (name.toList ++ rest) := by simp
    rw [htext, variableExpr, hread]
    · rfl
    · rw [hname]
      intro s hs
      have hc : c = '\x7b' := (List.cons.inj hs).1
      subst hc
      exact absurd hstart (by decide)
  · have htext : ("$\x7b" ++ quoted name ++ "\x7d").toList ++ rest =
        '$' :: '\x7b' :: ((quoted name).toList ++ '\x7d' :: rest) := by
      simp
    have hstart : Stops isSpace ((quoted name).toList ++ '\x7d' :: rest) := by
      rw [quoted_append]
      exact stops_cons.mpr (by decide)
    have hbrace : mark? '\x7d' ('\x7d' :: rest) = some rest := mark?_cons (by decide) rest
    rw [htext, variableExpr, skipSpace_of_stops hstart, literal_quoted]
    simp [hbrace]

/-! ## Words -/

theorem number_eq_none {c : Char} (hc : ¬ c.isDigit) (negative : Bool) (tail : List Char) :
    number negative (c :: tail) = none := by
  have hnumeral : numeral (c :: tail) = none := by
    rw [numeral, List.takeWhile_cons_of_neg hc]
    exact if_pos rfl
  rw [number, hnumeral]
  rfl

theorem not_isDigit_of_isNameStart {c : Char} (h : isNameStart c) : ¬ c.isDigit := by
  intro hdigit
  have hten : ∀ n < 10, ¬ isNameStart (Nat.digitChar n) := by decide
  rw [← digitChar_digitValue hdigit] at h
  exact hten _ (digitValue_lt hdigit) h

section

variable (expression : CodeReader Expr) (limit : Nat) {rest : List Char}

/-- A word begins no other operand. -/
theorem operand_word {word : String} (h : isPlainName word) :
    operand expression limit (word.toList ++ rest) =
      wordOperand expression limit (word.toList ++ rest) := by
  obtain ⟨c, tail, hword, hstart⟩ := exists_cons_of_isPlainName h
  have hne {d : Char} (hd : ¬ isNameStart d) : c ≠ d := by
    rintro rfl
    exact hd hstart
  rw [hword, List.cons_append, operand, number_eq_none (not_isDigit_of_isNameStart hstart)]
  · exact fun s hs => hne (by decide) (List.cons.inj hs).1
  · exact fun s hs => hne (by decide) (List.cons.inj hs).1
  · exact fun s hs => hne (by decide) (List.cons.inj hs).1
  · exact fun s hs => hne (by decide) (List.cons.inj hs).1

theorem inclusion?_eq_none {word : String} (h : ¬ reservedWords.contains (lowered word)) :
    inclusion? word = none := by
  refine List.find?_eq_none.mpr fun kind _ hkind => h ?_
  rw [← beq_iff_eq.mp hkind]
  cases kind <;> decide

/-- A constant is read unless it is called. -/
theorem operand_constant {word : String} {value : Scalar} (hname : isIdentifier word)
    (hvalue : constant? word = some value) (hends : Ends rest) :
    operand expression limit (word.toList ++ rest) = some (.scalar value, rest) := by
  obtain ⟨hplain, hreserved⟩ := (Bool.and_eq_true _ _).mp hname
  have hreserved : ¬ reservedWords.contains (lowered word) := by simpa using hreserved
  have hrest : Stops isNameChar rest := hends.stops (by decide)
  have hcall : mark? '(' rest = none := hends.mark?_eq_none (by decide)
  simp only [operand_word expression limit hplain, wordOperand, name_append hplain hrest,
    Option.bind_eq_bind, Option.bind_some, inclusion?_eq_none hreserved, if_neg hreserved, hcall,
    hvalue, Option.map_some]

theorem operand_call {function : String} (hname : isIdentifier function) {s : List Char}
    {arguments : List Expr} (h : listUntil ')' expression limit s = some (arguments, rest)) :
    operand expression limit (function.toList ++ '(' :: s) =
      some (.call function arguments, rest) := by
  obtain ⟨hplain, hreserved⟩ := (Bool.and_eq_true _ _).mp hname
  have hreserved : ¬ reservedWords.contains (lowered function) := by simpa using hreserved
  have hopen : mark? '(' ('(' :: s) = some s := mark?_cons (by decide) s
  rw [operand_word expression limit hplain, wordOperand,
    name_append hplain (stops_cons.mpr (by decide))]
  simp only [Option.bind_eq_bind, Option.bind_some, inclusion?_eq_none hreserved, if_neg hreserved,
    hopen, h, Option.map_some]

theorem operand_inclusion (kind : Inclusion) {s : List Char} {path : Expr}
    (h : expression (' ' :: s) = some (path, rest)) :
    operand expression limit (kind.keyword.toList ++ ' ' :: s) =
      some (.inclusion kind path, rest) := by
  have hplain : isPlainName kind.keyword := by cases kind <;> decide
  have hkind : inclusion? kind.keyword = some kind := by cases kind <;> decide
  rw [operand_word expression limit hplain, wordOperand,
    name_append hplain (stops_cons.mpr (by decide))]
  simp only [Option.bind_eq_bind, Option.bind_some, hkind, h, Option.map_some]

theorem stops_word {word : String} (h : isPlainName word) :
    Stops isSpace (word.toList ++ rest) := by
  obtain ⟨c, tail, hword, hstart⟩ := exists_cons_of_isPlainName h
  rw [hword]
  refine stops_cons.mpr fun hspace => ?_
  simp only [isSpace, Bool.or_eq_true, beq_iff_eq] at hspace
  rcases hspace with ((rfl | rfl) | rfl) | rfl <;> exact absurd hstart (by decide)

theorem operand_scalar {value : Scalar} (h : value.IsReadable) (hends : Ends rest) :
    operand expression limit (value.text.toList ++ rest) = some (.scalar value.oneNaN, rest) := by
  have hnumeral : Stops isNumeralChar rest := hends.stops (by decide)
  cases value with
  | string text =>
    rw [Scalar.text, quoted_append, operand, ← quoted_append, literal_quoted]
    rfl
  | integer n =>
    by_cases hn : n = Int64.minValue
    · rw [Scalar.text, if_pos hn, hn]
      exact operand_constant expression limit (by decide) rfl hends
    · rw [Scalar.text, if_neg hn]
      exact operand_numeral expression limit (isNumeralOf_integer hn) hnumeral
  | float x =>
    by_cases hnan : x.isNaN
    · rw [Scalar.text, if_pos hnan, Scalar.oneNaN, if_pos hnan]
      exact operand_constant expression limit (by decide) rfl hends
    · rw [Scalar.text, if_neg hnan, Scalar.oneNaN, if_neg hnan]
      by_cases hinfinite : x.isInfinite
      · have hx := Binary64.eq_infinity hinfinite
        rw [if_pos hinfinite]
        cases hneg : x.isNegative with
        | true =>
          have hname : name ("INF".toList ++ rest) = some ("INF", rest) :=
            name_append (by decide) (hends.stops (by decide))
          have htext : "-INF".toList ++ rest = '-' :: ("INF".toList ++ rest) := rfl
          have hnumber : number true ("INF".toList ++ rest) = none :=
            number_eq_none (by decide) true _
          rw [hneg] at hx
          rw [if_pos rfl, htext, operand, negated, hnumber, hname, hx]
          rfl
        | false =>
          rw [hneg] at hx
          rw [if_neg (by decide), hx]
          exact operand_constant expression limit (by decide) rfl hends
      · have hfinite := Binary64.isFinite_of_not_isNaN hnan hinfinite
        rw [if_neg hinfinite]
        exact operand_numeral expression limit ((h hfinite).isNumeralOf hfinite) hnumeral

end

/-! ## Blanks before an expression -/

section

variable {blanks : List Char} (hblanks : ∀ c ∈ blanks, isSpace c)

include hblanks

theorem expression_append (limit : Nat) (s : List Char) :
    expression limit (blanks ++ s) = expression limit s := by
  cases limit with
  | zero => rfl
  | succ limit => rw [expression, expression, indexed, indexed, skipSpace_append hblanks]

theorem item_append (limit : Nat) (s : List Char) :
    item (expression limit) (blanks ++ s) = item (expression limit) s := by
  rw [item, item, expression_append hblanks]

theorem listUntil_append {α : Type} {element : CodeReader α}
    (helement : ∀ s, element (blanks ++ s) = element s) (close : Char) (limit : Nat)
    (s : List Char) :
    listUntil close element limit (blanks ++ s) = listUntil close element limit s := by
  cases limit with
  | zero => rfl
  | succ limit => rw [listUntil, listUntil, helement, mark?_append hblanks]

end

theorem expression_blank {c : Char} (hc : isSpace c) (limit : Nat) (s : List Char) :
    expression limit (c :: s) = expression limit s := by
  have hblank : ∀ d ∈ [c], isSpace d := by simpa using hc
  exact expression_append hblank limit s

theorem item_blank {c : Char} (hc : isSpace c) (limit : Nat) (s : List Char) :
    item (expression limit) (c :: s) = item (expression limit) s := by
  rw [item, item, expression_blank hc]

theorem listUntil_blank {α : Type} {element : CodeReader α} {c : Char} (hc : isSpace c)
    (helement : ∀ s, element (c :: s) = element s) (close : Char) (limit : Nat) (s : List Char) :
    listUntil close element limit (c :: s) = listUntil close element limit s := by
  have hblank : ∀ d ∈ [c], isSpace d := by simpa using hc
  exact listUntil_append hblank helement close limit s

/-! ## Lists -/

section

variable {α : Type} {element : CodeReader α} {close : Char} {limit : Nat} {s rest : List Char}

theorem listUntil_nil (limit : Nat) (hclose : mark? close s = some rest) (h : element s = none) :
    listUntil close element (limit + 1) s = some ([], rest) := by
  rw [listUntil, h]
  simp [hclose]

theorem listUntil_cons {tail : List Char} {first : α} {others : List α}
    (h : element s = some (first, ',' :: tail))
    (htail : listUntil close element limit tail = some (others, rest)) :
    listUntil close element (limit + 1) s = some (first :: others, rest) := by
  have hcomma : mark? ',' (',' :: tail) = some tail := mark?_cons (by decide) tail
  rw [listUntil, h]
  simp [hcomma, htail]

end

/-! ## Operands and indices -/

theorem operand_array (nested : CodeReader Expr) (limit : Nat) {s rest : List Char}
    {items : List ArrayItem} (h : listUntil ']' (item nested) limit s = some (items, rest)) :
    operand nested limit ('[' :: s) = some (.array items, rest) := by
  rw [operand, h]
  rfl

theorem indices_of_none {nested : CodeReader Expr} {limit : Nat} (hlimit : 0 < limit) {base : Expr}
    {s : List Char} (h : mark? '[' s = none) : indices nested limit base s = some (base, s) := by
  obtain ⟨left, rfl⟩ := Nat.exists_eq_succ_of_ne_zero (Nat.ne_of_gt hlimit)
  rw [indices, h]

/-- What is read with its indices is the whole expression if nothing goes on behind it. -/
theorem expression_of_indexed {limit : Nat} {s rest : List Char} {e : Expr}
    (h : indexed (expression limit) limit s = some (e, rest)) (hends : Ends rest) :
    expression (limit + 1) s = some (e, rest) := by
  rw [expression, h]
  simp [hends.assign?_eq_none]

/-- So is an operand. -/
theorem expression_of_operand {limit : Nat} (hlimit : 0 < limit) {s rest : List Char} {e : Expr}
    (hs : Stops isSpace s) (h : operand (expression limit) limit s = some (e, rest))
    (hends : Ends rest) : expression (limit + 1) s = some (e, rest) := by
  have hindexed : indexed (expression limit) limit s = some (e, rest) := by
    rw [indexed, skipSpace_of_stops hs, h]
    exact indices_of_none hlimit (hends.mark?_eq_none (by decide))
  exact expression_of_indexed hindexed hends

/-- Marks that close begin no expression. -/
theorem expression_eq_none {c : Char} (hc : c ∈ [']', ')', '\x7d']) (limit : Nat)
    (rest : List Char) :
    expression limit (c :: rest) = none := by
  cases limit with
  | zero => rfl
  | succ limit =>
    have hoperand : operand (expression limit) limit (skipSpace (c :: rest)) = none := by
      simp only [List.mem_cons, List.not_mem_nil, or_false] at hc
      rcases hc with rfl | rfl | rfl <;> rfl
    rw [expression, indexed, hoperand]
    rfl

theorem item_eq_none (limit : Nat) (rest : List Char) :
    item (expression limit) (']' :: rest) = none := by
  rw [item, expression_eq_none (by simp)]
  rfl

/-- One more index is read behind a place. -/
theorem indexed_element {nested : CodeReader Expr} {limit left : Nat} {s index rest : List Char}
    {base key : Expr} (hbase : indexed nested limit s =
      indices nested (left + 1) base ('[' :: (index ++ ']' :: rest)))
    (hindex : nested (index ++ ']' :: rest) = some (key, ']' :: rest)) :
    indexed nested limit s = indices nested left (.element base key) rest := by
  have hopen : mark? '[' ('[' :: (index ++ ']' :: rest)) = some (index ++ ']' :: rest) :=
    mark?_cons (by decide) _
  have hclose : mark? ']' (']' :: rest) = some rest := mark?_cons (by decide) rest
  rw [hbase, indices, hopen]
  simp [hindex, hclose]

/-! ## Expressions -/

theorem operand_variable (nested : CodeReader Expr) (limit : Nat) (name : String) {rest : List Char}
    (hrest : Stops isNameChar rest) :
    operand nested limit ((variableText name).toList ++ rest) = some (.variable name, rest) := by
  obtain ⟨tail, htail⟩ := toList_variableText name
  rw [htail, List.cons_append, operand, ← List.cons_append, ← htail, variableExpr_text name hrest]

theorem stops_variable (name : String) {rest : List Char} :
    Stops isSpace ((variableText name).toList ++ rest) := by
  obtain ⟨tail, htail⟩ := toList_variableText name
  rw [htail]
  exact stops_cons.mpr (by decide)

theorem length_variableText_pos (name : String) : 0 < (variableText name).toList.length := by
  obtain ⟨tail, htail⟩ := toList_variableText name
  rw [htail]
  exact Nat.succ_pos _

/-- The index of an element is read behind its base. -/
theorem expression_element {limit left : Nat} {s index rest : List Char} {base key : Expr}
    (hbase : indexed (expression limit) limit s =
      indices (expression limit) (left + 1) base ('[' :: (index ++ ']' :: rest)))
    (hleft : 0 < left)
    (hindex : expression limit (index ++ ']' :: rest) = some (key, ']' :: rest))
    (hends : Ends rest) : expression (limit + 1) s = some (.element base key, rest) := by
  have helement := indexed_element hbase hindex
  rw [indices_of_none hleft (hends.mark?_eq_none (by decide))] at helement
  exact expression_of_indexed helement hends

/-- The value of an assignment is read behind its target, which must be a place. -/
theorem expression_assign {limit : Nat} {s source rest : List Char} {target value : Expr}
    (hplace : target.isPlace)
    (htarget : indexed (expression limit) limit s = some (target, ' ' :: '=' :: ' ' :: source))
    (hvalue : expression limit source = some (value, rest)) :
    expression (limit + 1) s = some (.assign target value, rest) := by
  rw [← expression_blank (c := ' ') rfl] at hvalue
  have hassign : assign? (' ' :: '=' :: ' ' :: source) = some (' ' :: source) := rfl
  rw [expression, htarget]
  simp [hplace, hassign, hvalue]

theorem expression_call {limit : Nat} (hlimit : 0 < limit) {function : String}
    (hname : isIdentifier function) {s rest : List Char} {arguments : List Expr}
    (h : listUntil ')' (expression limit) limit s = some (arguments, rest)) (hends : Ends rest) :
    expression (limit + 1) (function.toList ++ '(' :: s) =
      some (.call function arguments, rest) := by
  have hplain := ((Bool.and_eq_true _ _).mp hname).1
  exact expression_of_operand hlimit (stops_word hplain)
    (operand_call (expression limit) limit hname h) hends

theorem expression_inclusion {limit : Nat} (hlimit : 0 < limit) (kind : Inclusion)
    {s rest : List Char} {path : Expr} (h : expression limit s = some (path, rest))
    (hends : Ends rest) :
    expression (limit + 1) (kind.keyword.toList ++ ' ' :: s) =
      some (.inclusion kind path, rest) := by
  rw [← expression_blank (c := ' ') rfl] at h
  have hplain : isPlainName kind.keyword := by cases kind <;> decide
  exact expression_of_operand hlimit (stops_word hplain)
    (operand_inclusion (expression limit) limit kind h) hends

theorem expression_array {limit : Nat} (hlimit : 0 < limit) {s rest : List Char}
    {items : List ArrayItem}
    (h : listUntil ']' (item (expression limit)) limit s = some (items, rest)) (hends : Ends rest) :
    expression (limit + 1) ('[' :: s) = some (.array items, rest) :=
  expression_of_operand hlimit (stops_cons.mpr (by decide))
    (operand_array (expression limit) limit h) hends

theorem expression_array_nil (limit : Nat) {rest : List Char} (hends : Ends rest) :
    expression (limit + 1 + 1) ('[' :: ']' :: rest) = some (.array [], rest) := by
  have hnone : item (expression (limit + 1)) (']' :: rest) = none := item_eq_none (limit + 1) rest
  have hread := listUntil_nil limit (mark?_cons (by decide) rest) hnone
  exact expression_array (Nat.succ_pos limit) hread hends

/-- A scalar begins with something visible. -/
theorem exists_cons_scalar {value : Scalar} (h : value.IsReadable) :
    ∃ c tail, value.text.toList = c :: tail ∧ ¬ isSpace c := by
  have hnumeral {text : List Char} (h : IsNumeralOf text value) :
      ∃ c tail, text = c :: tail ∧ ¬ isSpace c := by
    obtain ⟨c, tail, htext, hc⟩ := h.head
    refine ⟨c, tail, htext, fun hspace => ?_⟩
    simp only [isSpace, Bool.or_eq_true, beq_iff_eq] at hspace
    rcases hspace with ((rfl | rfl) | rfl) | rfl <;> exact absurd hc (by decide)
  unfold Scalar.text
  split
  · exact ⟨'\'', _, by rw [← List.append_nil (quoted _).toList, quoted_append], by decide⟩
  · rename_i n
    split
    · exact ⟨'P', _, rfl, by decide⟩
    · exact hnumeral (isNumeralOf_integer ‹_›)
  · rename_i x
    split
    · exact ⟨'N', _, rfl, by decide⟩
    · split
      · split
        · exact ⟨'-', _, rfl, by decide⟩
        · exact ⟨'I', _, rfl, by decide⟩
      · rename_i hnan hinfinite
        have hfinite := Binary64.isFinite_of_not_isNaN hnan hinfinite
        exact hnumeral ((h hfinite).isNumeralOf hfinite)

end CodeReader

/-! ## The characters of an expression -/

section

variable (indent depth : Nat)

theorem toList_element (base index : Expr) : ((Expr.element base index).text indent depth).toList =
    (base.text indent depth).toList ++ '[' :: ((index.text indent depth).toList ++ [']']) := by
  simp [Expr.text]

theorem toList_assign (target value : Expr) :
    ((Expr.assign target value).text indent depth).toList =
    (target.text indent depth).toList ++ ' ' :: '=' :: ' ' :: (value.text indent depth).toList := by
  simp [Expr.text]

theorem toList_call (function : String) (arguments : List Expr) :
    ((Expr.call function arguments).text indent depth).toList =
      function.toList ++ '(' ::
        ((joinText ", " (argumentTexts indent depth arguments)).toList ++ [')']) := by
  simp [Expr.text]

theorem toList_inclusion (kind : Inclusion) (path : Expr) :
    ((Expr.inclusion kind path).text indent depth).toList =
      kind.keyword.toList ++ ' ' :: (path.text indent depth).toList := by
  simp [Expr.text]

theorem toList_array {items : List ArrayItem} (h : items ≠ []) :
    ((Expr.array items).text indent depth).toList = '[' :: '\n' ::
      ((itemLines indent (depth + 1) items).toList ++
        (Text.spaces (indent * depth)).toList ++ [']']) := by
  cases items with
  | nil => exact absurd rfl h
  | cons item rest => simp [Expr.text, itemLines]

theorem toList_arguments (argument next : Expr) (more : List Expr) :
    (joinText ", " (argumentTexts indent depth (argument :: next :: more))).toList =
      (argument.text indent depth).toList ++ ',' :: ' ' ::
        (joinText ", " (argumentTexts indent depth (next :: more))).toList := by
  simp [argumentTexts, joinText]

theorem toList_plain (value : Expr) : (itemLine indent depth (.plain value)).toList =
    (Text.spaces (indent * depth)).toList ++ ((value.text indent depth).toList ++ [',', '\n']) := by
  simp [itemLine]

theorem toList_keyed (key value : Expr) : (itemLine indent depth (.keyed key value)).toList =
    (Text.spaces (indent * depth)).toList ++ ((key.text indent depth).toList ++
      ' ' :: '=' :: '>' :: ' ' :: ((value.text indent depth).toList ++ [',', '\n'])) := by
  simp [itemLine]

theorem length_itemLine_pos (i : ArrayItem) : 0 < (itemLine indent depth i).toList.length := by
  cases i with
  | plain value => simp only [toList_plain, List.length_append, List.length_cons]; omega
  | keyed key value => simp only [toList_keyed, List.length_append, List.length_cons]; omega

end

/-! ## Expressions -/

namespace CodeReader

variable (indent : Nat)

mutual

/-- **An expression that can be read back is read back**, whatever follows its end. -/
theorem expression_text : ∀ (e : Expr), e.IsReadable → ∀ (depth limit : Nat),
    (e.text indent depth).toList.length < limit → ∀ (rest : List Char), Ends rest →
    expression limit ((e.text indent depth).toList ++ rest) = some (e.oneNaN, rest)
  | .variable name, _, depth, limit, hlength, rest, hends => by
    have hpositive := length_variableText_pos name
    rw [Expr.text] at hlength ⊢
    obtain ⟨limit, rfl⟩ := Nat.exists_eq_succ_of_ne_zero (n := limit) (by omega)
    exact expression_of_operand (by omega) (stops_variable name)
      (operand_variable (expression limit) limit name (hends.stops (by decide))) hends
  | .element base index, ⟨hplace, hbase, hindex⟩, depth, limit, hlength, rest, hends => by
    rw [toList_element] at hlength ⊢
    simp only [List.length_append, List.length_cons, List.length_nil] at hlength
    obtain ⟨limit, rfl⟩ := Nat.exists_eq_succ_of_ne_zero (n := limit) (by omega)
    obtain ⟨left, hleft, hread⟩ := indexed_place base hplace hbase depth limit limit (by omega)
      (by omega) ('[' :: ((index.text indent depth).toList ++ ']' :: rest))
      (stops_cons.mpr (by decide))
    obtain ⟨left, rfl⟩ := Nat.exists_eq_succ_of_ne_zero (n := left) (by omega)
    have hkey := expression_text index hindex depth limit (by omega) (']' :: rest)
      (.mark (by simp))
    simp only [List.append_assoc, List.cons_append, List.nil_append]
    exact expression_element hread (by omega) hkey hends
  | .assign target value, ⟨hplace, htarget, hvalue⟩, depth, limit, hlength, rest, hends => by
    rw [toList_assign] at hlength ⊢
    simp only [List.length_append, List.length_cons] at hlength
    obtain ⟨limit, rfl⟩ := Nat.exists_eq_succ_of_ne_zero (n := limit) (by omega)
    obtain ⟨left, hleft, hread⟩ := indexed_place target hplace htarget depth limit limit (by omega)
      (by omega) (' ' :: '=' :: ' ' :: ((value.text indent depth).toList ++ rest))
      (stops_cons.mpr (by decide))
    rw [indices_of_none (by omega) rfl] at hread
    have hsource := expression_text value hvalue depth limit (by omega) rest hends
    simp only [List.append_assoc, List.cons_append]
    exact expression_assign (by rw [Expr.isPlace_oneNaN, hplace]) hread hsource
  | .call function arguments, ⟨hname, harguments⟩, depth, limit, hlength, rest, hends => by
    rw [toList_call] at hlength ⊢
    simp only [List.length_append, List.length_cons, List.length_nil] at hlength
    obtain ⟨limit, rfl⟩ := Nat.exists_eq_succ_of_ne_zero (n := limit) (by omega)
    have hread := arguments_text arguments harguments depth limit limit (by omega) (by omega) rest
    simp only [List.append_assoc, List.cons_append, List.nil_append]
    exact expression_call (by omega) hname hread hends
  | .inclusion kind path, h, depth, limit, hlength, rest, hends => by
    rw [toList_inclusion] at hlength ⊢
    simp only [List.length_append, List.length_cons] at hlength
    obtain ⟨limit, rfl⟩ := Nat.exists_eq_succ_of_ne_zero (n := limit) (by omega)
    have hread := expression_text path h depth limit (by omega) rest hends
    simp only [List.append_assoc, List.cons_append]
    exact expression_inclusion (by omega) kind hread hends
  | .array [], _, depth, limit, hlength, rest, hends => by
    have htext : ((Expr.array []).text indent depth).toList = ['[', ']'] := by rw [Expr.text]; rfl
    rw [htext] at hlength ⊢
    simp only [List.length_cons, List.length_nil] at hlength
    obtain ⟨limit, rfl⟩ : ∃ left, limit = left + 1 + 1 := ⟨limit - 2, by omega⟩
    exact expression_array_nil limit hends
  | .array (first :: more), h, depth, limit, hlength, rest, hends => by
    rw [toList_array indent depth (List.cons_ne_nil first more)] at hlength ⊢
    simp only [List.length_append, List.length_cons, List.length_nil] at hlength
    obtain ⟨limit, rfl⟩ := Nat.exists_eq_succ_of_ne_zero (n := limit) (by omega)
    have hread := items_text (first :: more) h (depth + 1) limit limit (by omega) (by omega)
      (isSpace_spaces (indent * depth)) rest
    rw [← listUntil_blank (c := '\n') rfl (item_blank rfl limit)] at hread
    simp only [List.append_assoc, List.cons_append, List.nil_append]
    exact expression_array (by omega) hread hends
  | .scalar value, h, depth, limit, hlength, rest, hends => by
    obtain ⟨c, tail, htext, hspace⟩ := exists_cons_scalar h
    rw [Expr.text] at hlength ⊢
    have hvisible : Stops isSpace (value.text.toList ++ rest) := by
      rw [htext]
      exact stops_cons.mpr hspace
    rw [htext, List.length_cons] at hlength
    obtain ⟨limit, rfl⟩ := Nat.exists_eq_succ_of_ne_zero (n := limit) (by omega)
    exact expression_of_operand (by omega) hvisible
      (operand_scalar (expression limit) limit h hends) hends

/-- A place is read up to its last index; enough of the limit is left for those behind it. -/
theorem indexed_place : ∀ (e : Expr), e.isPlace → e.IsReadable → ∀ (depth nested limit : Nat),
    (e.text indent depth).toList.length ≤ nested → (e.text indent depth).toList.length ≤ limit →
    ∀ (rest : List Char), Stops isNameChar rest →
    ∃ left, limit < left + (e.text indent depth).toList.length ∧
      indexed (expression nested) limit ((e.text indent depth).toList ++ rest) =
        indices (expression nested) left e.oneNaN rest
  | .variable name, _, _, depth, nested, limit, hnested, hlimit, rest, hrest => by
    have hpositive := length_variableText_pos name
    rw [Expr.text]
    refine ⟨limit, by omega, ?_⟩
    rw [indexed, skipSpace_of_stops (stops_variable name),
      operand_variable (expression nested) limit name hrest]
    rfl
  | .element base index, hplace, ⟨_, hbase, hindex⟩, depth, nested, limit, hnested, hlimit,
    rest, hrest => by
    rw [toList_element] at hnested hlimit ⊢
    simp only [List.length_append, List.length_cons, List.length_nil] at hnested hlimit
    have hkey :=
      expression_text index hindex depth nested (by omega) (']' :: rest) (.mark (by simp))
    obtain ⟨left, hleft, hread⟩ :=
      indexed_place base hplace hbase depth nested limit (by omega) (by omega)
      ('[' :: ((index.text indent depth).toList ++ ']' :: rest)) (stops_cons.mpr (by decide))
    obtain ⟨left, rfl⟩ := Nat.exists_eq_succ_of_ne_zero (n := left) (by omega)
    refine ⟨left, ?_, ?_⟩
    · simp only [List.length_append, List.length_cons, List.length_nil]
      omega
    · simp only [List.append_assoc, List.cons_append, List.nil_append]
      exact indexed_element hread hkey

theorem arguments_text : ∀ (arguments : List Expr), ArgumentsReadable arguments →
    ∀ (depth nested limit : Nat),
    (joinText ", " (argumentTexts indent depth arguments)).toList.length < nested →
    (joinText ", " (argumentTexts indent depth arguments)).toList.length < limit →
    ∀ (rest : List Char), listUntil ')' (expression nested) limit
        ((joinText ", " (argumentTexts indent depth arguments)).toList ++ ')' :: rest) =
      some (argumentsOneNaN arguments, rest)
  | [], _, depth, nested, limit, _, hlimit, rest => by
    obtain ⟨limit, rfl⟩ := Nat.exists_eq_succ_of_ne_zero (n := limit) (by omega)
    exact listUntil_nil limit (mark?_cons (by decide) rest)
      (expression_eq_none (by simp) nested rest)
  | [argument], ⟨h, _⟩, depth, nested, limit, hnested, hlimit, rest => by
    obtain ⟨limit, rfl⟩ := Nat.exists_eq_succ_of_ne_zero (n := limit) (by omega)
    have hread := expression_text argument h depth nested hnested (')' :: rest) (.mark (by simp))
    have hclose : mark? ')' (')' :: rest) = some rest := mark?_cons (by decide) rest
    have hcomma : mark? ',' (')' :: rest) = none := rfl
    rw [argumentTexts, argumentTexts, joinText, listUntil, hread]
    simp [hclose, hcomma, argumentsOneNaN]
  | argument :: next :: more, ⟨h, hmore⟩, depth, nested, limit, hnested, hlimit, rest => by
    rw [toList_arguments] at hnested hlimit ⊢
    simp only [List.length_append, List.length_cons] at hnested hlimit
    obtain ⟨limit, rfl⟩ := Nat.exists_eq_succ_of_ne_zero (n := limit) (by omega)
    have hread := expression_text argument h depth nested (by omega) (',' :: ' ' ::
      ((joinText ", " (argumentTexts indent depth (next :: more))).toList ++ ')' :: rest))
        (.mark (by simp))
    have hrest := arguments_text (next :: more) hmore depth nested limit (by omega) (by omega) rest
    rw [← listUntil_blank (c := ' ') rfl (expression_blank rfl nested)] at hrest
    simp only [List.append_assoc, List.cons_append]
    exact listUntil_cons hread hrest

theorem item_text : ∀ (i : ArrayItem), i.IsReadable → ∀ (depth nested : Nat),
    (itemLine indent depth i).toList.length < nested → ∀ (rest : List Char),
    item (expression nested) ((itemLine indent depth i).toList ++ rest) =
      some (i.oneNaN, ',' :: '\n' :: rest)
  | .plain value, h, depth, nested, hnested, rest => by
    rw [toList_plain] at hnested ⊢
    simp only [List.length_append, List.length_cons, List.length_nil] at hnested
    have hread :=
      expression_text value h depth nested (by omega) (',' :: '\n' :: rest) (.mark (by simp))
    have harrow : arrow? (',' :: '\n' :: rest) = none := rfl
    simp only [List.append_assoc, List.cons_append, List.nil_append]
    rw [item_append (isSpace_spaces _), item, hread]
    simp [harrow, ArrayItem.oneNaN]
  | .keyed key value, ⟨hkey, hvalue⟩, depth, nested, hnested, rest => by
    rw [toList_keyed] at hnested ⊢
    simp only [List.length_append, List.length_cons, List.length_nil] at hnested
    have hread := expression_text key hkey depth nested (by omega) (' ' :: '=' :: '>' :: ' ' ::
      ((value.text indent depth).toList ++ ',' :: '\n' :: rest)) .arrow
    have hsource :=
      expression_text value hvalue depth nested (by omega) (',' :: '\n' :: rest) (.mark (by simp))
    rw [← expression_blank (c := ' ') rfl] at hsource
    have harrow : arrow? (' ' :: '=' :: '>' :: ' ' :: ((value.text indent depth).toList ++
        ',' :: '\n' :: rest)) = some
          (' ' :: ((value.text indent depth).toList ++ ',' :: '\n' :: rest)) := rfl
    simp only [List.append_assoc, List.cons_append, List.nil_append]
    rw [item_append (isSpace_spaces _), item, hread]
    simp [harrow, hsource, ArrayItem.oneNaN]

theorem items_text : ∀ (items : List ArrayItem), ItemsReadable items →
    ∀ (depth nested limit : Nat), (itemLines indent depth items).toList.length < nested →
    (itemLines indent depth items).toList.length < limit →
    ∀ {blanks : List Char}, (∀ c ∈ blanks, isSpace c) → ∀ (rest : List Char),
    listUntil ']' (item (expression nested)) limit
        ((itemLines indent depth items).toList ++ (blanks ++ ']' :: rest)) =
      some (itemsOneNaN items, rest)
  | [], _, depth, nested, limit, _, hlimit, blanks, hblanks, rest => by
    obtain ⟨limit, rfl⟩ := Nat.exists_eq_succ_of_ne_zero (n := limit) (by omega)
    have hnone : item (expression nested) (']' :: rest) = none := item_eq_none nested rest
    rw [itemLines, String.toList_empty, List.nil_append,
      listUntil_append hblanks (item_append hblanks nested)]
    exact listUntil_nil limit (mark?_cons (by decide) rest) hnone
  | i :: more, ⟨h, hmore⟩, depth, nested, limit, hnested, hlimit, blanks, hblanks, rest => by
    rw [itemLines, String.toList_append] at hnested hlimit ⊢
    rw [List.length_append] at hnested hlimit
    obtain ⟨limit, rfl⟩ := Nat.exists_eq_succ_of_ne_zero (n := limit) (by omega)
    have hline := length_itemLine_pos indent depth i
    have hread := item_text i h depth nested (by omega)
      ((itemLines indent depth more).toList ++ (blanks ++ ']' :: rest))
    have hrest := items_text more hmore depth nested limit (by omega) (by omega) hblanks rest
    rw [← listUntil_blank (c := '\n') rfl (item_blank rfl nested)] at hrest
    rw [List.append_assoc]
    exact listUntil_cons hread hrest

end

end CodeReader

/-! ## Statements -/

theorem Stmt.withComments_comments (stmt : Stmt) : stmt.withComments stmt.comments = stmt := by
  cases stmt <;> rfl

section

variable (indent depth : Nat)

theorem toList_expression (value : Expr) (comments : List String) :
    ((Stmt.expression value comments).text indent depth).toList =
      (value.text indent depth).toList ++ [';'] := by
  simp [Stmt.text]

theorem toList_ifThen (condition : Expr) (body : List Stmt) (comments : List String) :
    ((Stmt.ifThen condition body comments).text indent depth).toList =
      "if".toList ++ ' ' :: '(' ::
        ((condition.text indent depth).toList ++ ')' :: ' ' :: '\x7b' :: '\n' ::
        ((bodyLines indent (depth + 1) body).toList ++
          ((Text.spaces (indent * depth)).toList ++ ['\x7d']))) := by
  simp [Stmt.text]

theorem toList_bodyLines {stmt : Stmt} (h : stmt.comments = []) (more : List Stmt) :
    (bodyLines indent depth (stmt :: more)).toList =
      (Text.spaces (indent * depth)).toList ++ ((stmt.text indent depth).toList ++
        '\n' :: (bodyLines indent depth more).toList) := by
  simp [bodyLines, h, commentLines]

end

namespace CodeReader

theorem nestedStatement_append {blanks : List Char} (hblanks : ∀ c ∈ blanks, isSpace c)
    (limit : Nat) (s : List Char) :
    nestedStatement limit (blanks ++ s) = nestedStatement limit s := by
  cases limit with
  | zero => rfl
  | succ limit =>
    rw [nestedStatement, nestedStatement, expression_append hblanks, ifWord?, ifWord?,
      skipSpace_append hblanks]

theorem nestedStatement_eq_none (limit : Nat) (rest : List Char) :
    nestedStatement limit ('\x7d' :: rest) = none := by
  cases limit with
  | zero => rfl
  | succ limit =>
    have hword : ifWord? ('\x7d' :: rest) = none := rfl
    rw [nestedStatement, expression_eq_none (by simp), hword]
    rfl

theorem block_append {blanks : List Char} (hblanks : ∀ c ∈ blanks, isSpace c) (nested limit : Nat)
    (s : List Char) :
    block (nestedStatement nested) limit (blanks ++ s) =
      block (nestedStatement nested) limit s := by
  cases limit with
  | zero => rfl
  | succ limit => rw [block, block, nestedStatement_append hblanks, mark?_append hblanks]

theorem block_blank {c : Char} (hc : isSpace c) (nested limit : Nat) (s : List Char) :
    block (nestedStatement nested) limit (c :: s) = block (nestedStatement nested) limit s := by
  have hblank : ∀ d ∈ [c], isSpace d := by simpa using hc
  exact block_append hblank nested limit s

/-- The word `if` begins no expression. -/
theorem expression_if (limit : Nat) (s : List Char) :
    expression limit ("if".toList ++ ' ' :: s) = none := by
  cases limit with
  | zero => rfl
  | succ limit =>
    have hplain : isPlainName "if" := by decide
    have hoperand : operand (expression limit) limit ("if".toList ++ ' ' :: s) = none := by
      rw [operand_word (expression limit) limit hplain, wordOperand,
        name_append hplain (stops_cons.mpr (by decide))]
      rfl
    rw [expression, indexed, skipSpace_of_stops (stops_word hplain), hoperand]
    rfl

theorem ifWord?_if (s : List Char) : ifWord? ("if".toList ++ ' ' :: s) = some (' ' :: s) := by
  have hplain : isPlainName "if" := by decide
  have hlowered : lowered "if" = "if" := by decide
  rw [ifWord?, skipSpace_of_stops (stops_word hplain),
    name_append hplain (stops_cons.mpr (by decide))]
  simp [hlowered]

/-- The condition and the body are read behind the word. -/
theorem conditional_append {limit : Nat} {nested : CodeReader Stmt}
    {condition body rest : List Char} {value : Expr} {stmts : List Stmt}
    (hcondition : expression limit (condition ++ ')' :: ' ' :: '\x7b' :: body) =
      some (value, ')' :: ' ' :: '\x7b' :: body))
    (hbody : block nested limit body = some (stmts, rest)) :
    conditional limit nested (' ' :: '(' :: (condition ++ ')' :: ' ' :: '\x7b' :: body)) =
      some (.ifThen value stmts [], rest) := by
  have hopen (s : List Char) : mark? '(' (' ' :: '(' :: s) = some s := rfl
  have hclose (s : List Char) : mark? ')' (')' :: s) = some s := rfl
  have hbrace (s : List Char) : mark? '\x7b' (' ' :: '\x7b' :: s) = some s := rfl
  simp [conditional, hopen, hcondition, hclose, hbrace, hbody]

variable (indent : Nat)

mutual

/-- **A statement that can be read back is read back**, whatever follows it. -/
theorem nestedStatement_text : ∀ (stmt : Stmt), stmt.IsReadable → ∀ (depth limit : Nat),
    (stmt.text indent depth).toList.length < limit → ∀ (rest : List Char),
    nestedStatement limit ((stmt.text indent depth).toList ++ rest) =
      some ((stmt.withComments []).oneNaN, rest)
  | .expression value comments, h, depth, limit, hlength, rest => by
    rw [toList_expression] at hlength ⊢
    simp only [List.length_append, List.length_cons, List.length_nil] at hlength
    obtain ⟨limit, rfl⟩ := Nat.exists_eq_succ_of_ne_zero (n := limit) (by omega)
    have hread :=
      expression_text indent value h depth limit (by omega) (';' :: rest) (.mark (by simp))
    have hmark : mark? ';' (';' :: rest) = some rest := mark?_cons (by decide) rest
    simp only [List.append_assoc, List.cons_append, List.nil_append]
    rw [nestedStatement, hread]
    simp [hmark, Stmt.withComments, Stmt.oneNaN]
  | .ifThen condition body comments, ⟨hcondition, hbody⟩, depth, limit, hlength, rest => by
    rw [toList_ifThen] at hlength ⊢
    simp only [List.length_append, List.length_cons] at hlength
    obtain ⟨limit, rfl⟩ := Nat.exists_eq_succ_of_ne_zero (n := limit) (by omega)
    have hblock := body_text body hbody (depth + 1) limit limit (by omega) (by omega)
      (isSpace_spaces (indent * depth)) rest
    rw [← block_blank (c := '\n') rfl] at hblock
    have hread :=
      expression_text indent condition hcondition depth limit (by omega) (')' :: ' ' :: '\x7b' ::
      '\n' :: ((bodyLines indent (depth + 1) body).toList ++
        ((Text.spaces (indent * depth)).toList ++ '\x7d' :: rest))) (.mark (by simp))
    simp only [List.append_assoc, List.cons_append, List.nil_append]
    rw [nestedStatement, expression_if]
    simp only [ifWord?_if, Option.bind_eq_bind, Option.bind_some]
    exact conditional_append hread hblock

theorem body_text : ∀ (body : List Stmt), BodyReadable body → ∀ (depth nested limit : Nat),
    (bodyLines indent depth body).toList.length < nested →
    (bodyLines indent depth body).toList.length < limit →
    ∀ {blanks : List Char}, (∀ c ∈ blanks, isSpace c) → ∀ (rest : List Char),
    block (nestedStatement nested) limit
        ((bodyLines indent depth body).toList ++ (blanks ++ '\x7d' :: rest)) =
      some (bodyOneNaN body, rest)
  | [], _, depth, nested, limit, _, hlimit, blanks, hblanks, rest => by
    obtain ⟨limit, rfl⟩ := Nat.exists_eq_succ_of_ne_zero (n := limit) (by omega)
    have hclose : mark? '\x7d' ('\x7d' :: rest) = some rest := mark?_cons (by decide) rest
    rw [bodyLines, String.toList_empty, List.nil_append, block_append hblanks, block,
      nestedStatement_eq_none]
    simp [hclose, bodyOneNaN]
  | stmt :: more, ⟨hcomments, h, hmore⟩, depth, nested, limit, hnested, hlimit, blanks,
    hblanks, rest => by
    rw [toList_bodyLines indent depth hcomments] at hnested hlimit ⊢
    simp only [List.length_append, List.length_cons] at hnested hlimit
    obtain ⟨limit, rfl⟩ := Nat.exists_eq_succ_of_ne_zero (n := limit) (by omega)
    have hread := nestedStatement_text stmt h depth nested (by omega)
      ('\n' :: ((bodyLines indent depth more).toList ++ (blanks ++ '\x7d' :: rest)))
    have hrest := body_text more hmore depth nested limit (by omega) (by omega) hblanks rest
    rw [← block_blank (c := '\n') rfl] at hrest
    have hsame : stmt.withComments [] = stmt := by rw [← hcomments, stmt.withComments_comments]
    simp only [List.append_assoc, List.cons_append]
    rw [block, nestedStatement_append (isSpace_spaces _), hread, hsame]
    simp [hrest, bodyOneNaN]

end

/-- The same at the top, where the text itself says how much room there must be. -/
theorem statement_text {stmt : Stmt} (h : stmt.IsReadable) (depth : Nat) (rest : List Char) :
    statement ((stmt.text indent depth).toList ++ rest) =
      some ((stmt.withComments []).oneNaN, rest) := by
  refine nestedStatement_text indent stmt h depth _ ?_ rest
  rw [List.length_append]
  omega

end CodeReader
end Php
end SiteSettings
