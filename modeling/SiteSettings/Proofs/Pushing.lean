import Mathlib.Data.List.Basic
import Mathlib.Data.List.Induction
import SiteSettings.Proofs.Rendering

/-!
# Documents grow at their end

Pushing a statement adds to the rendering and takes nothing back, so the place of a statement
depends on those before it alone.  What the printer adds for a generated statement has four parts:
the end of an open line, its own opening tag, a blank line above comments, and then the statement's
block, which begins and ends with a line.

The tag is the part that needs the history.  A rendering remembers one bit of it, whether code may
follow, and `inCode_foldl_write` says what that bit is: the last statement decides, and without one
the text is not code.
-/

namespace SiteSettings

namespace Text

/-- Whether what comes next begins a line. -/
def AtLineStart (before : String) : Prop :=
  before = "" ∨ endsLine before

theorem endsLine_append {ending : String} (h : endsLine ending) (before : String) :
    endsLine (before ++ ending) := by
  simp only [endsLine, endsIn, List.isSuffixOf_iff_suffix, String.toList_append] at h ⊢
  exact h.trans (List.suffix_append _ _)

end Text

namespace Php

namespace Stmt

/-- Whether the printer lays the statement out, rather than copying it. -/
def isGenerated : Stmt → Bool
  | .verbatim _ => false
  | _ => true

/-- A generated statement below its comments, each part on lines of its own. -/
def block (indent : Nat) (stmt : Stmt) : String :=
  joinText "\n" (stmt.comments.map (· ++ "\n")) ++ stmt.text indent 0 ++ "\n"

theorem endsLine_block (indent : Nat) (stmt : Stmt) : Text.endsLine (stmt.block indent) :=
  Text.endsLine_append_newline _

end Stmt

/-- Whether plain text would follow the statements: there is none, or the last one is template text
that does not end in code. -/
def EndsOutsideCode (stmts : List Stmt) : Prop :=
  stmts = [] ∨ ∃ chunk, stmts.getLast? = some (.verbatim chunk) ∧ chunk.endsInCode = false

namespace Rendering

variable (indent : Nat)

/-! ## One statement -/

/-- What ends the last line of the text, if it is open. -/
def lineEnd (r : Rendering) : String :=
  if r.text ≠ "" ∧ ¬ Text.endsLine r.text then "\n" else ""

/-- The printer's own opening tag, if the text is not code. -/
def openingTag (r : Rendering) : String :=
  if r.inCode then "" else "<?php\n"

/-- A blank line above comments, unless there is one. -/
def blankLine (r : Rendering) (stmt : Stmt) : String :=
  if stmt.comments.isEmpty then ""
  else if r.text ++ r.lead ≠ "" ∧ ¬ Text.endsBlankLine (r.text ++ r.lead) then "\n" else ""

theorem lead_eq (r : Rendering) : r.lead = r.lineEnd ++ r.openingTag :=
  rfl

theorem commentBlock_eq (r : Rendering) (stmt : Stmt) :
    commentBlock (r.text ++ r.lead) stmt.comments =
      r.blankLine stmt ++ joinText "\n" (stmt.comments.map (· ++ "\n")) := by
  rw [commentBlock, blankLine]
  split
  · rename_i hnone
    rw [List.isEmpty_iff.mp hnone]
    rfl
  · rfl

theorem write_generated (r : Rendering) {stmt : Stmt} (h : stmt.isGenerated) :
    write indent r stmt =
      ⟨r.text ++ r.lineEnd ++ r.openingTag ++ r.blankLine stmt ++ stmt.block indent, true⟩ := by
  have hwrite : write indent r stmt =
      ⟨r.text ++ r.lead ++ commentBlock (r.text ++ r.lead) stmt.comments ++
      stmt.text indent 0 ++ "\n", true⟩ := by
    cases stmt with
    | verbatim chunk => cases h
    | _ => rfl
  rw [hwrite, commentBlock_eq, lead_eq, Stmt.block]
  simp only [String.append_assoc]

/-- Whatever is written comes behind what is there. -/
theorem exists_text_write (r : Rendering) (stmt : Stmt) :
    ∃ more, (write indent r stmt).text = r.text ++ more := by
  cases stmt with
  | verbatim chunk => exact ⟨chunk.text, rfl⟩
  | _ =>
    rw [write_generated indent r rfl]
    simp only [String.append_assoc]
    exact ⟨_, rfl⟩

/-- A block begins a line. -/
theorem atLineStart_block (r : Rendering) (stmt : Stmt) :
    Text.AtLineStart (r.text ++ r.lineEnd ++ r.openingTag ++ r.blankLine stmt) := by
  have hlineEnd : Text.AtLineStart (r.text ++ r.lineEnd) := by
    rw [lineEnd]
    split
    · exact .inr (Text.endsLine_append_newline _)
    · rename_i hnot
      rw [String.append_empty]
      by_cases hempty : r.text = ""
      · exact .inl hempty
      · exact .inr (by simpa [hempty] using hnot)
  have hopeningTag : Text.AtLineStart (r.text ++ r.lineEnd ++ r.openingTag) := by
    rw [openingTag]
    split
    · rwa [String.append_empty]
    · exact .inr (Text.endsLine_append (by decide) _)
  rw [blankLine]
  split
  · rwa [String.append_empty]
  · split
    · exact .inr (Text.endsLine_append_newline _)
    · rwa [String.append_empty]

/-! ## Many statements -/

theorem exists_text_foldl_write (stmts : List Stmt) (r : Rendering) :
    ∃ more, (stmts.foldl (write indent) r).text = r.text ++ more := by
  induction stmts generalizing r with
  | nil => exact ⟨"", by simp⟩
  | cons stmt rest ih =>
    obtain ⟨first, hfirst⟩ := exists_text_write indent r stmt
    obtain ⟨more, hmore⟩ := ih (write indent r stmt)
    refine ⟨first ++ more, ?_⟩
    rw [List.foldl_cons, hmore, hfirst, String.append_assoc]

/-- The last statement decides whether code may follow. -/
theorem inCode_foldl_write (stmts : List Stmt) :
    (stmts.foldl (write indent) start).inCode = false ↔ EndsOutsideCode stmts := by
  rcases List.eq_nil_or_concat' stmts with rfl | ⟨front, last, rfl⟩
  · exact iff_of_true rfl (.inl rfl)
  · have hlast : EndsOutsideCode (front ++ [last]) ↔
        ∃ chunk, last = .verbatim chunk ∧ chunk.endsInCode = false := by
      simp [EndsOutsideCode]
    rw [hlast, List.foldl_concat]
    cases last with
    | verbatim chunk => simp [write]
    | _ => simp [write]

end Rendering

/-! ## Documents -/

namespace Document

/-- The document of statements that were pushed one after another. -/
def ofPushes (stmts : List Stmt) : Document :=
  stmts.foldl push empty

theorem statements_ofPushes (stmts : List Stmt) : (ofPushes stmts).statements = stmts := by
  induction stmts using List.reverseRecOn with
  | nil => rfl
  | append_singleton stmts last ih =>
    rw [ofPushes, List.foldl_concat, ← ofPushes, push, ih]

theorem push_ofPushes (stmts : List Stmt) (next : Stmt) :
    (ofPushes stmts).push next = ofPushes (stmts ++ [next]) := by
  rw [ofPushes, ofPushes, List.foldl_concat]

theorem render_ofPushes (stmts : List Stmt) (indent : Nat) :
    (ofPushes stmts).render indent = (stmts.foldl (Rendering.write indent) .start).text := by
  rw [render, statements_ofPushes]

/-- **Rendering is append-only.**  After any pushes, whatever is pushed next comes behind the
rendering so far.

Where a generated statement was pushed, its block, comments included, begins a line and ends with a
line end. Between the text so far and the block stand at most a line end, the printer's own opening
tag and a blank line. The tag is there exactly if the statement is the first one or stands behind
template text that does not end in code; behind another generated statement it never is. -/
theorem render_append_only (indent : Nat) (pushed : List Stmt) :
    (∀ next, ∃ more, ((ofPushes pushed).push next).render indent =
      (ofPushes pushed).render indent ++ more) ∧
    ∀ front stmt back, pushed = front ++ stmt :: back → stmt.isGenerated →
      ∃ lineEnd tag blank more,
        (ofPushes pushed).render indent =
          (ofPushes front).render indent ++ lineEnd ++ tag ++ blank ++ stmt.block indent ++ more ∧
        Text.AtLineStart ((ofPushes front).render indent ++ lineEnd ++ tag ++ blank) ∧
        Text.endsLine (stmt.block indent) ∧
        (lineEnd = "" ∨ lineEnd = "\n") ∧ (blank = "" ∨ blank = "\n") ∧
        (tag = "" ∨ tag = "<?php\n") ∧ (tag = "<?php\n" ↔ EndsOutsideCode front) ∧
        ∀ last, front.getLast? = some last → last.isGenerated → tag = "" := by
  refine ⟨fun next => ?_, fun front stmt back hpushed hstmt => ?_⟩
  · rw [push_ofPushes, render_ofPushes, render_ofPushes, List.foldl_concat]
    exact Rendering.exists_text_write indent _ next
  · generalize hr : front.foldl (Rendering.write indent) Rendering.start = r
    have hmode : r.inCode = false ↔ EndsOutsideCode front := by
      rw [← hr]
      exact Rendering.inCode_foldl_write indent front
    have htag : r.openingTag = "<?php\n" ↔ EndsOutsideCode front := by
      rw [← hmode, Rendering.openingTag]
      cases r.inCode <;> simp
    have htags : r.openingTag = "" ∨ r.openingTag = "<?php\n" := by
      rw [Rendering.openingTag]
      exact ite_eq_or_eq _ _ _
    obtain ⟨more, hmore⟩ := Rendering.exists_text_foldl_write indent back (r.write indent stmt)
    have hrender : (ofPushes pushed).render indent = r.text ++ r.lineEnd ++ r.openingTag ++
        r.blankLine stmt ++ stmt.block indent ++ more := by
      rw [render_ofPushes, hpushed, List.foldl_append, List.foldl_cons, hr, hmore,
        Rendering.write_generated indent r hstmt]
    rw [render_ofPushes front, hr]
    refine ⟨r.lineEnd, r.openingTag, r.blankLine stmt, more, hrender, r.atLineStart_block stmt,
      stmt.endsLine_block indent, ?_, ?_, htags, htag, ?_⟩
    · rw [Rendering.lineEnd]
      exact (ite_eq_or_eq _ _ _).symm
    · rw [Rendering.blankLine]
      split
      · exact .inl rfl
      · exact (ite_eq_or_eq _ _ _).symm
    · intro last hlast hgenerated
      refine htags.resolve_right fun hopened => ?_
      rcases htag.mp hopened with rfl | ⟨chunk, hchunk, -⟩
      · cases hlast
      · obtain rfl := Option.some.inj (hlast.symm.trans hchunk)
        cases hgenerated

/-- Plain text without a line end, and behind it two assignments, the first one with comments: only
that one has an opening tag in front of it. -/
theorem render_append_only_below_plain_text :
    let first : Stmt := .expression (.assign (.variable "a") (.string "x")) ["// one", "// two"]
    let second : Stmt := .expression (.assign (.variable "b") (.string "y")) []
    let pushed : List Stmt := [.verbatim ⟨"<b>", false⟩, first, second]
    (pushed = [.verbatim ⟨"<b>", false⟩] ++ first :: [second] ∧ first.isGenerated ∧
      ∃ lineEnd blank more, (ofPushes pushed).render 2 =
        "<b>" ++ lineEnd ++ "<?php\n" ++ blank ++ "// one\n\n// two\n$a = 'x';\n" ++ more) ∧
    (pushed = [.verbatim ⟨"<b>", false⟩, first] ++ second :: [] ∧ second.isGenerated ∧
      ∃ lineEnd blank more, (ofPushes pushed).render 2 =
        (ofPushes [.verbatim ⟨"<b>", false⟩, first]).render 2 ++ lineEnd ++ "" ++ blank ++
        "$b = 'y';\n" ++
          more) := by
  intro first second pushed
  have hblock : first.block 2 = "// one\n\n// two\n$a = 'x';\n" := by decide +kernel
  have hblock' : second.block 2 = "$b = 'y';\n" := by decide +kernel
  have hchunk : (ofPushes [.verbatim ⟨"<b>", false⟩]).render 2 = "<b>" := by decide +kernel
  refine ⟨⟨rfl, rfl, ?_⟩, rfl, rfl, ?_⟩
  · obtain ⟨lineEnd, tag, blank, more, hrender, -, -, -, -, -, htag, -⟩ :=
      (render_append_only 2 pushed).2 [.verbatim ⟨"<b>", false⟩] first [second] rfl rfl
    rw [htag.mpr (.inr ⟨_, rfl, rfl⟩), hblock, hchunk] at hrender
    exact ⟨lineEnd, blank, more, hrender⟩
  · obtain ⟨lineEnd, tag, blank, more, hrender, -, -, -, -, -, -, hconsecutive⟩ :=
      (render_append_only 2 pushed).2 [.verbatim ⟨"<b>", false⟩, first] second [] rfl rfl
    rw [hconsecutive first rfl rfl, hblock'] at hrender
    exact ⟨lineEnd, blank, more, hrender⟩

end Document
end Php
end SiteSettings
