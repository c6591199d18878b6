import SiteSettings.Php.Printer
import SiteSettings.Proofs.Php.Levels
import SiteSettings.Proofs.Results

/-!
# Printing with margins

The printer makes the space in front of nested lines when it comes to a block: the margin of the
lines in it first, and that of its closing bracket when all of them are written.  Here the margins
are given by a function that may refuse one, and printing ends with the first refusal (`layout`).

The levels of what is printed decide everything.  Printing ends with the refusal at the first of
them that has one (`Document.asks_layout`); and if each gets its spaces, the text is the one that
the printer writes (`Document.layout_eq`).
-/

namespace SiteSettings
namespace Php

variable {ε : Type}

/-! ## Printing with margins that may be refused -/

section

variable (margin : Nat → Except ε String)

mutual

/-- The text of an expression whose first line stands at nesting `depth`. -/
def Expr.layout (depth : Nat) : Expr → Except ε String
  | .variable name => .ok (variableText name)
  | .element base index => do
    let baseText ← base.layout depth
    let indexText ← index.layout depth
    .ok (baseText ++ "[" ++ indexText ++ "]")
  | .assign target value => do
    let targetText ← target.layout depth
    let valueText ← value.layout depth
    .ok (targetText ++ " = " ++ valueText)
  | .call function arguments => do
    let texts ← argumentLayouts depth arguments
    .ok (function ++ "(" ++ joinText ", " texts ++ ")")
  | .inclusion kind path => do
    let pathText ← path.layout depth
    .ok (kind.keyword ++ " " ++ pathText)
  | .array [] => .ok "[]"
  | .array (item :: items) => do
    let inner ← margin (depth + 1)
    let first ← itemLayout inner (depth + 1) item
    let rest ← itemLayouts inner (depth + 1) items
    let outer ← margin depth
    .ok ("[\n" ++ first ++ rest ++ outer ++ "]")
  | .scalar value => .ok value.text
termination_by structural expr => expr

def argumentLayouts (depth : Nat) : List Expr → Except ε (List String)
  | [] => .ok []
  | argument :: rest => do
    let text ← argument.layout depth
    let texts ← argumentLayouts depth rest
    .ok (text :: texts)
termination_by structural arguments => arguments

/-- An item of an array literal behind the margin of its line. -/
def itemLayout (inner : String) (depth : Nat) : ArrayItem → Except ε String
  | .plain value => do
    let valueText ← value.layout depth
    .ok (inner ++ valueText ++ ",\n")
  | .keyed key value => do
    let keyText ← key.layout depth
    let valueText ← value.layout depth
    .ok (inner ++ keyText ++ " => " ++ valueText ++ ",\n")
termination_by structural item => item

def itemLayouts (inner : String) (depth : Nat) : List ArrayItem → Except ε String
  | [] => .ok ""
  | item :: rest => do
    let text ← itemLayout inner depth item
    let more ← itemLayouts inner depth rest
    .ok (text ++ more)
termination_by structural items => items

end

mutual

/-- The text of a statement at nesting `depth`. -/
def Stmt.layout (depth : Nat) : Stmt → Except ε String
  | .verbatim chunk => .ok chunk.text
  | .expression value _ => do
    let valueText ← value.layout margin depth
    .ok (valueText ++ ";")
  | .ifThen condition body _ => do
    let conditionText ← condition.layout margin depth
    let inner ← margin (depth + 1)
    let lines ← bodyLayout inner (depth + 1) body
    let outer ← margin depth
    .ok ("if (" ++ conditionText ++ ") \x7b\n" ++ lines ++ outer ++ "\x7d")
termination_by structural stmt => stmt

/-- The statements of a block, each behind the margin of the block. -/
def bodyLayout (inner : String) (depth : Nat) : List Stmt → Except ε String
  | [] => .ok ""
  | stmt :: rest => do
    let text ← stmt.layout depth
    let more ← bodyLayout inner depth rest
    .ok (commentLines inner stmt.comments ++ inner ++ text ++ "\n" ++ more)
termination_by structural stmts => stmts

end

/-- Writes the next statement of a document. -/
def Rendering.writeLayout (r : Rendering) (stmt : Stmt) : Except ε Rendering :=
  match stmt with
  | .verbatim chunk => .ok ⟨r.text ++ chunk.text, chunk.endsInCode⟩
  | stmt => do
    let text ← stmt.layout margin 0
    let before := r.text ++ r.lead
    .ok ⟨before ++ commentBlock before stmt.comments ++ text ++ "\n", true⟩

/-- The text of a document. -/
def Document.layout (doc : Document) : Except ε String :=
  (doc.statements.foldlM (Rendering.writeLayout margin) Rendering.start).map Rendering.text

end

/-! ## The first refusal decides -/

/-- Why the margin at a depth is refused. -/
def refusal? (margin : Nat → Except ε String) (depth : Nat) : Option ε :=
  match margin depth with
  | .error error => some error
  | .ok _ => none

theorem refusal?_of_error {margin : Nat → Except ε String} {depth : Nat} {error : ε}
    (h : margin depth = .error error) : refusal? margin depth = some error := by
  rw [refusal?, h]

theorem refusal?_of_ok {margin : Nat → Except ε String} {depth : Nat} {text : String}
    (h : margin depth = .ok text) : refusal? margin depth = none := by
  rw [refusal?, h]

/-- Whether printing asks for the margins at these depths, in order, and ends with the
first refusal. -/
def Asks {α : Type} (margin : Nat → Except ε String) (levels : List Nat) (printed : Except ε α) :
    Prop :=
  ∃ answer, printed = answerUnless (refusal? margin) levels answer

namespace Asks

variable {margin : Nat → Except ε String} {α β : Type} {levels more : List Nat} {first : Except ε α}

theorem ok (answer : α) : Asks margin [] (.ok answer) :=
  ⟨answer, rfl⟩

theorem single (margin : Nat → Except ε String) (depth : Nat) :
    Asks margin [depth] (margin depth) := by
  cases h : margin depth with
  | error error => exact ⟨"", by rw [answerUnless_cons_of_some (refusal?_of_error h)]⟩
  | ok text => exact ⟨text, by rw [answerUnless_cons_of_none (refusal?_of_ok h), answerUnless_nil]⟩

theorem bind {next : α → Except ε β} (hfirst : Asks margin levels first)
    (hnext : ∀ answer, Asks margin more (next answer)) :
    Asks margin (levels ++ more) (first >>= next) := by
  obtain ⟨answer, rfl⟩ := hfirst
  obtain ⟨result, hresult⟩ := hnext answer
  exact ⟨result, answerUnless_bind hresult⟩

/-- Putting the text together asks for nothing. -/
theorem map (hfirst : Asks margin levels first) (f : α → β) :
    Asks margin levels (first >>= fun answer => .ok (f answer)) := by
  obtain ⟨answer, rfl⟩ := hfirst
  exact ⟨f answer, answerUnless_bind_of_ok rfl⟩

end Asks

section

variable {margin : Nat → Except ε String}

mutual

theorem Expr.asks_layout (depth : Nat) : ∀ expr : Expr,
    Asks margin (expr.levels depth) (expr.layout margin depth)
  | .variable _ => .ok _
  | .element base index => by
    rw [Expr.layout, Expr.levels]
    exact (base.asks_layout depth).bind fun _ => (index.asks_layout depth).map _
  | .assign target value => by
    rw [Expr.layout, Expr.levels]
    exact (target.asks_layout depth).bind fun _ => (value.asks_layout depth).map _
  | .call _ arguments => by
    rw [Expr.layout, Expr.levels]
    exact (asks_argumentLayouts depth arguments).map _
  | .inclusion _ path => by
    rw [Expr.layout, Expr.levels]
    exact (path.asks_layout depth).map _
  | .array [] => .ok _
  | .array (item :: items) => by
    rw [Expr.layout, Expr.levels]
    refine (Asks.single margin _).bind fun inner => ?_
    refine (asks_itemLayout inner _ item).bind fun _ => ?_
    exact (asks_itemLayouts inner _ items).bind fun _ => (Asks.single margin depth).map _
  | .scalar _ => .ok _

theorem asks_argumentLayouts (depth : Nat) : ∀ arguments : List Expr,
    Asks margin (argumentLevels depth arguments) (argumentLayouts margin depth arguments)
  | [] => .ok _
  | argument :: rest => by
    rw [argumentLayouts, argumentLevels]
    exact (argument.asks_layout depth).bind fun _ => (asks_argumentLayouts depth rest).map _

theorem asks_itemLayout (inner : String) (depth : Nat) : ∀ item : ArrayItem,
    Asks margin (itemLevels depth item) (itemLayout margin inner depth item)
  | .plain value => by
    rw [itemLayout, itemLevels]
    exact (value.asks_layout depth).map _
  | .keyed key value => by
    rw [itemLayout, itemLevels]
    exact (key.asks_layout depth).bind fun _ => (value.asks_layout depth).map _

theorem asks_itemLayouts (inner : String) (depth : Nat) : ∀ items : List ArrayItem,
    Asks margin (itemsLevels depth items) (itemLayouts margin inner depth items)
  | [] => .ok _
  | item :: rest => by
    rw [itemLayouts, itemsLevels]
    exact (asks_itemLayout inner depth item).bind fun _ => (asks_itemLayouts inner depth rest).map _

end

mutual

theorem Stmt.asks_layout (depth : Nat) : ∀ stmt : Stmt,
    Asks margin (stmt.levels depth) (stmt.layout margin depth)
  | .verbatim _ => .ok _
  | .expression value _ => by
    rw [Stmt.layout, Stmt.levels]
    exact (value.asks_layout depth).map _
  | .ifThen condition body _ => by
    rw [Stmt.layout, Stmt.levels]
    refine (condition.asks_layout depth).bind fun _ => (Asks.single margin _).bind fun inner => ?_
    exact (asks_bodyLayout inner _ body).bind fun _ => (Asks.single margin depth).map _

theorem asks_bodyLayout (inner : String) (depth : Nat) : ∀ stmts : List Stmt,
    Asks margin (bodyLevels depth stmts) (bodyLayout margin inner depth stmts)
  | [] => .ok _
  | stmt :: rest => by
    rw [bodyLayout, bodyLevels]
    exact (stmt.asks_layout depth).bind fun _ => (asks_bodyLayout inner depth rest).map _

end

/-- One statement of a document. -/
theorem Rendering.asks_writeLayout (r : Rendering) (stmt : Stmt) :
    Asks margin (stmt.levels 0) (r.writeLayout margin stmt) := by
  cases stmt with
  | verbatim _ => exact .ok _
  | _ => exact (Stmt.asks_layout 0 _).map _

/-- A document asks for the margins of its statements, one after another. -/
theorem Document.asks_layout (doc : Document) : Asks margin doc.levels (doc.layout margin) := by
  have hrun (stmts : List Stmt) (r : Rendering) : Asks margin (stmts.flatMap (Stmt.levels 0))
      (stmts.foldlM (Rendering.writeLayout margin) r) := by
    induction stmts generalizing r with
    | nil => exact .ok r
    | cons stmt rest ih =>
      rw [List.foldlM_cons, List.flatMap_cons]
      exact (r.asks_writeLayout stmt).bind ih
  obtain ⟨r, hr⟩ := hrun doc.statements .start
  exact ⟨r.text, by rw [layout, hr, answerUnless_map]; rfl⟩

end

/-! ## The text, where nothing is refused -/

section

variable {margin : Nat → Except ε String} {indent : Nat}

/-- Whether the margins at these depths are the ones of the printer. -/
def Indents (margin : Nat → Except ε String) (indent : Nat) (levels : List Nat) : Prop :=
  ∀ depth ∈ levels, margin depth = .ok (Text.spaces (indent * depth))

theorem indents_append {levels more : List Nat} :
    Indents margin indent (levels ++ more) ↔
      Indents margin indent levels ∧ Indents margin indent more :=
  List.forall_mem_append

theorem indents_singleton {depth : Nat} :
    Indents margin indent [depth] ↔ margin depth = .ok (Text.spaces (indent * depth)) :=
  List.forall_mem_singleton

mutual

theorem Expr.layout_eq (depth : Nat) : ∀ expr : Expr, Indents margin indent (expr.levels depth) →
    expr.layout margin depth = .ok (expr.text indent depth)
  | .variable _, _ => rfl
  | .element base index, h => by
    obtain ⟨hbase, hindex⟩ := indents_append.mp h
    rw [Expr.layout, base.layout_eq depth hbase, ok_bind, index.layout_eq depth hindex, ok_bind,
      Expr.text]
  | .assign target value, h => by
    obtain ⟨htarget, hvalue⟩ := indents_append.mp h
    rw [Expr.layout, target.layout_eq depth htarget, ok_bind, value.layout_eq depth hvalue, ok_bind,
      Expr.text]
  | .call _ arguments, h => by
    rw [Expr.layout, argumentLayouts_eq depth arguments h, ok_bind, Expr.text]
  | .inclusion _ path, h => by
    rw [Expr.layout, path.layout_eq depth h, ok_bind, Expr.text]
  | .array [], _ => rfl
  | .array (item :: items), h => by
    obtain ⟨hinner, hmore⟩ := indents_append.mp h
    obtain ⟨hitem, hmore⟩ := indents_append.mp hmore
    obtain ⟨hitems, houter⟩ := indents_append.mp hmore
    rw [Expr.layout, indents_singleton.mp hinner, ok_bind, itemLayout_eq _ item hitem, ok_bind,
      itemLayouts_eq _ items hitems, ok_bind, indents_singleton.mp houter, ok_bind, Expr.text]
  | .scalar _, _ => rfl

theorem argumentLayouts_eq (depth : Nat) : ∀ arguments : List Expr,
    Indents margin indent (argumentLevels depth arguments) →
    argumentLayouts margin depth arguments = .ok (argumentTexts indent depth arguments)
  | [], _ => rfl
  | argument :: rest, h => by
    obtain ⟨hargument, hrest⟩ := indents_append.mp h
    rw [argumentLayouts, argument.layout_eq depth hargument, ok_bind,
      argumentLayouts_eq depth rest hrest, ok_bind, argumentTexts]

theorem itemLayout_eq (depth : Nat) :
    ∀ item : ArrayItem, Indents margin indent (itemLevels depth item) →
    itemLayout margin (Text.spaces (indent * depth)) depth item = .ok (itemLine indent depth item)
  | .plain value, h => by
    rw [itemLayout, value.layout_eq depth h, ok_bind, itemLine]
  | .keyed key value, h => by
    obtain ⟨hkey, hvalue⟩ := indents_append.mp h
    rw [itemLayout, key.layout_eq depth hkey, ok_bind, value.layout_eq depth hvalue, ok_bind,
      itemLine]

theorem itemLayouts_eq (depth : Nat) : ∀ items : List ArrayItem,
    Indents margin indent (itemsLevels depth items) →
    itemLayouts margin (Text.spaces (indent * depth)) depth items =
      .ok (itemLines indent depth items)
  | [], _ => rfl
  | item :: rest, h => by
    obtain ⟨hitem, hrest⟩ := indents_append.mp h
    rw [itemLayouts, itemLayout_eq depth item hitem, ok_bind, itemLayouts_eq depth rest hrest,
      ok_bind, itemLines]

end

mutual

theorem Stmt.layout_eq (depth : Nat) : ∀ stmt : Stmt, Indents margin indent (stmt.levels depth) →
    stmt.layout margin depth = .ok (stmt.text indent depth)
  | .verbatim _, _ => rfl
  | .expression value _, h => by
    rw [Stmt.layout, value.layout_eq depth h, ok_bind, Stmt.text]
  | .ifThen condition body _, h => by
    obtain ⟨hcondition, hmore⟩ := indents_append.mp h
    obtain ⟨hinner, hmore⟩ := indents_append.mp hmore
    obtain ⟨hbody, houter⟩ := indents_append.mp hmore
    rw [Stmt.layout, condition.layout_eq depth hcondition, ok_bind, indents_singleton.mp hinner,
      ok_bind, bodyLayout_eq _ body hbody, ok_bind, indents_singleton.mp houter, ok_bind, Stmt.text]

theorem bodyLayout_eq (depth : Nat) :
    ∀ stmts : List Stmt, Indents margin indent (bodyLevels depth stmts) →
    bodyLayout margin (Text.spaces (indent * depth)) depth stmts =
      .ok (bodyLines indent depth stmts)
  | [], _ => rfl
  | stmt :: rest, h => by
    obtain ⟨hstmt, hrest⟩ := indents_append.mp h
    rw [bodyLayout, stmt.layout_eq depth hstmt, ok_bind, bodyLayout_eq depth rest hrest, ok_bind,
      bodyLines]

end

theorem Rendering.writeLayout_eq (r : Rendering) {stmt : Stmt}
    (h : Indents margin indent (stmt.levels 0)) :
    r.writeLayout margin stmt = .ok (r.write indent stmt) := by
  cases stmt with
  | verbatim _ => rfl
  | ifThen condition body comments =>
    rw [writeLayout, Stmt.layout_eq 0 _ h]
    · rfl
    · exact fun _ => nofun
  | expression value comments =>
    rw [writeLayout, Stmt.layout_eq 0 _ h]
    · rfl
    · exact fun _ => nofun

/-- If every margin it asks for is what the printer writes, a document is printed as
it is rendered. -/
theorem Document.layout_eq {doc : Document} (h : Indents margin indent doc.levels) :
    doc.layout margin = .ok (doc.render indent) := by
  have hrun (stmts : List Stmt) (hstmts : Indents margin indent (stmts.flatMap (Stmt.levels 0)))
      (r : Rendering) : stmts.foldlM (Rendering.writeLayout margin) r =
        .ok (stmts.foldl (Rendering.write indent) r) := by
    induction stmts generalizing r with
    | nil => rfl
    | cons stmt rest ih =>
      obtain ⟨hstmt, hrest⟩ := indents_append.mp hstmts
      rw [List.foldlM_cons, r.writeLayout_eq hstmt, ok_bind, ih hrest, List.foldl_cons]
  rw [layout, hrun doc.statements h]
  rfl

end

end Php
end SiteSettings
