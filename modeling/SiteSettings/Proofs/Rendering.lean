import SiteSettings.Php.Printer
import SiteSettings.Php.Template

/-!
# Rendering a document statement by statement

What the printer puts between two statements depends on two things only: how the text so far ends,
and whether code may follow it.  Chunks of a template are written as they are, so the text behind
them is the template again and the mode is that of the last chunk.  A generated statement leaves the
rendering `Ready`: in code, at the start of a line.  From then on nothing stands in front of a
statement without comments, and no trace is left of what came before.
-/

namespace SiteSettings

/-! ## How a text ends -/

namespace Text

theorem endsIn_append (before ending : String) : endsIn ending (before ++ ending) := by
  simp [endsIn]

theorem endsLine_append_newline (before : String) : endsLine (before ++ "\n") :=
  endsIn_append before "\n"

/-- A line end behind anything but a line end does not make a blank line. -/
theorem endsBlankLine_append (before : String) {c : Char} (h : c ≠ '\n') :
    ¬ endsBlankLine (before ++ String.singleton c ++ "\n") := by
  intro hend
  have hsuffix : ['\n', '\n'] <:+ before.toList ++ [c, '\n'] := by
    simpa [endsBlankLine, endsIn] using hend
  have hlast := List.suffix_of_suffix_length_le hsuffix
    (List.suffix_append before.toList [c, '\n']) (by simp)
  have heq : ['\n', '\n'] = [c, '\n'] := hlast.eq_of_length rfl
  exact h (List.cons.inj heq).1.symm

end Text

namespace Php

/-! ## The chunks of a template -/

theorem join_cutChunks (lastInCode : Bool) (lengths : List (Nat × Bool)) (s : List Char) :
    String.join ((cutChunks lastInCode lengths s).map Chunk.text) = String.ofList s := by
  fun_induction cutChunks lastInCode lengths s with
  | case1 => rfl
  | case2 s hs => simp
  | case3 s n inCode rest ih =>
    rw [List.map_cons, String.join_cons, ih, ← String.ofList_append, List.take_append_drop]

/-- Joined again, the chunks are the template. -/
theorem join_templateChunks {source : List Char} {chunks : List Chunk}
    (h : templateChunks source = .ok chunks) :
    String.join (chunks.map Chunk.text) = String.ofList source := by
  simp only [templateChunks] at h
  split at h
  · cases h
    exact join_cutChunks _ _ _
  · cases h

/-! ## Writing chunks -/

/-- Whether code would follow the chunks; nothing but an empty document has none. -/
def endInCode (chunks : List Chunk) : Bool :=
  chunks.getLast?.any Chunk.endsInCode

namespace Rendering

variable (indent : Nat)

theorem foldl_write_verbatim (chunks : List Chunk) (r : Rendering) :
    (chunks.map Stmt.verbatim).foldl (write indent) r =
      ⟨r.text ++ String.join (chunks.map Chunk.text),
        if chunks.isEmpty then r.inCode else endInCode chunks⟩ := by
  induction chunks generalizing r with
  | nil => simp
  | cons chunk rest ih =>
    rw [List.map_cons, List.foldl_cons, ih]
    cases rest <;> simp [write, endInCode, String.append_assoc]

/-- The rendering of a template is the template, in the mode of its last chunk. -/
theorem foldl_write_template {template : String} {chunks : List Chunk}
    (h : templateChunks template.toList = .ok chunks) :
    (chunks.map Stmt.verbatim).foldl (write indent) start = ⟨template, endInCode chunks⟩ := by
  rw [foldl_write_verbatim, join_templateChunks h]
  cases chunks <;> simp [start, endInCode]

/-! ## Writing generated statements -/

/-- In code, at the start of a line. -/
structure Ready (r : Rendering) : Prop where
  inCode : r.inCode
  endsLine : Text.endsLine r.text

theorem Ready.text_ne_empty {r : Rendering} (h : r.Ready) : r.text ≠ "" := by
  intro he
  have hline := h.endsLine
  simp [he, Text.endsLine, Text.endsIn] at hline

theorem Ready.lead_eq {r : Rendering} (h : r.Ready) : r.lead = "" := by
  simp [lead, h.inCode, h.endsLine]

theorem ready_of_newline (text : String) : Ready ⟨text ++ "\n", true⟩ :=
  ⟨rfl, Text.endsLine_append_newline text⟩

/-- Below a ready rendering, an expression without comments takes a line of its own. -/
theorem write_expression {r : Rendering} (h : r.Ready) (value : Expr) :
    write indent r (.expression value []) = ⟨r.text ++ value.text indent 0 ++ ";\n", true⟩ := by
  simp [write, h.lead_eq, Stmt.comments, commentBlock, Stmt.text, String.append_assoc]

theorem foldl_write_expressions {r : Rendering} (h : r.Ready) (values : List Expr) :
    (values.map fun value => Stmt.expression value []).foldl (write indent) r =
      ⟨r.text ++ String.join (values.map fun value => value.text indent 0 ++ ";\n"), true⟩ := by
  induction values generalizing r with
  | nil => rw [← h.inCode]; simp
  | cons value rest ih =>
    have hready : Ready ⟨r.text ++ value.text indent 0 ++ ";\n", true⟩ := by
      have hsplit : r.text ++ value.text indent 0 ++ ";\n" =
          r.text ++ value.text indent 0 ++ ";" ++ "\n" := by
        simp [String.append_assoc]
      rw [hsplit]
      exact ready_of_newline _
    rw [List.map_cons, List.foldl_cons, write_expression indent h, ih hready]
    simp [String.append_assoc]

end Rendering
end Php
end SiteSettings
