import Mathlib.Data.UInt
import SiteSettings.Proofs.Heights
import SiteSettings.Proofs.Rendering

/-!
# The text of the settings file

A settings file is the template, a few characters that depend on how the template ends (`glue`), and
a text that knows nothing of the template (`generatedText`).  So the template is an exact prefix of
it, and two templates can be exchanged without a change to what is generated.

The reason is that the include guard comes first among the generated statements, and that it always
has comments: behind it the rendering is `Rendering.Ready`, whatever the template was.

There is such a file as long as no margin in it is longer than a text can be, and that depends on
the widest one alone.  With half the range of words for each level there is none at all
(`source_half_range`).
-/

namespace SiteSettings
namespace SettingsFile

open Php Rendering

/-! ## The three parts -/

/-- What stands between a template and the generated code: a line end and an opening tag if they are
missing, and a line end more unless there is a blank line. -/
def glue (template : String) (chunks : List Chunk) : String :=
  let lineEnd := if template ≠ "" ∧ ¬ Text.endsLine template then "\n" else ""
  let tag := if template = "" ∨ ¬ endInCode chunks then "<?php\n" else ""
  let blankLine := if Text.endsBlankLine (template ++ lineEnd ++ tag) then "" else "\n"
  lineEnd ++ tag ++ blankLine

/-- The include guard below its two comments. -/
def guardText (options : GeneratorOptions) : String :=
  options.generatedComment ++ "\n\n" ++ options.includeComment ++ "\n" ++
    "if (file_exists(" ++ quoted options.includeFile ++ ")) \x7b\n" ++
    Text.spaces options.indent.toNat ++ "include_once " ++ quoted options.includeFile ++ ";\n" ++
    "\x7d\n"

/-- One assignment for each setting, in order, each ended by a semicolon and a line end. -/
def assignmentsText (options : GeneratorOptions) (settings : SettingsMap) : String :=
  String.join <| (settings.assignmentCode options).map fun value =>
    value.text options.indent.toNat 0 ++ ";\n"

/-- The generated code: the guard and, if there are settings, a blank line, the environment comment
and the assignments. -/
def generatedText (settings : SettingsMap) (options : GeneratorOptions) : String :=
  guardText options ++
    if settings.isEmpty then ""
    else "\n" ++ options.environmentComment ++ "\n" ++ assignmentsText options settings

/-! ## Writing the generated statements -/

/-- The tag that the printer adds is the one of `glue`: an empty template has no chunks. -/
theorem tag_eq {template : String} {chunks : List Chunk}
    (h : templateChunks template.toList = .ok chunks) :
    (if template = "" ∨ ¬ endInCode chunks then "<?php\n" else "") =
      if endInCode chunks then "" else "<?php\n" := by
  have hempty : template = "" → endInCode chunks = false := by
    rintro rfl
    have hchunks : templateChunks "".toList = .ok [] := by rfl
    rw [hchunks] at h
    cases h
    rfl
  cases hcode : endInCode chunks with
  | false => simp
  | true =>
    have hne : template ≠ "" := fun he => by simp [hempty he] at hcode
    simp [hne]

/-- Below its comments the guard is written the same wherever it stands. -/
theorem includeGuard_text (options : GeneratorOptions) :
    (Generator.includeGuard options).text options.indent.toNat 0 =
      "if (file_exists(" ++ quoted options.includeFile ++ ")) \x7b\n" ++
        Text.spaces options.indent.toNat ++ "include_once " ++ quoted options.includeFile ++
          ";\n\x7d" := by
  apply String.toList_inj.mp
  simp [Generator.includeGuard, Stmt.text, Expr.text, argumentTexts, joinText, bodyLines,
    commentLines, Stmt.comments, Expr.string, Scalar.text, Inclusion.keyword, Text.spaces,
    String.append_assoc]

/-- The guard is written behind the template with the glue in between. -/
theorem write_includeGuard {template : String} {chunks : List Chunk}
    (h : templateChunks template.toList = .ok chunks) (options : GeneratorOptions) :
    write options.indent.toNat ⟨template, endInCode chunks⟩ (Generator.includeGuard options) =
      ⟨template ++ glue template chunks ++ guardText options, true⟩ := by
  have hlead : lead ⟨template, endInCode chunks⟩ =
      (if template ≠ "" ∧ ¬ Text.endsLine template then "\n" else "") ++
        if template = "" ∨ ¬ endInCode chunks then "<?php\n" else "" := by
    rw [tag_eq h]
    rfl
  have hne : template ++ lead ⟨template, endInCode chunks⟩ ≠ "" := by
    rw [hlead]
    by_cases ht : template = "" <;> simp [ht]
  have htext := includeGuard_text options
  simp only [Generator.includeGuard] at htext ⊢
  simp only [write, htext, commentBlock, Stmt.comments, glue, guardText, List.isEmpty_cons,
    List.map_cons, List.map_nil, joinText, ne_eq, hne, not_false_eq_true, true_and,
    Bool.false_eq_true, if_false]
  simp only [hlead, Rendering.mk.injEq, and_true, ← String.append_assoc]
  generalize (if template ≠ "" ∧ ¬ Text.endsLine template then "\n" else "") = lineEnd
  generalize (if template = "" ∨ ¬ endInCode chunks then "<?php\n" else "") = tag
  apply String.toList_inj.mp
  cases Text.endsBlankLine (template ++ lineEnd ++ tag) <;> simp

theorem ready_behind_guard (before : String) (options : GeneratorOptions) :
    Ready ⟨before ++ guardText options, true⟩ ∧
      ¬ Text.endsBlankLine (before ++ guardText options) := by
  -- the last line of the guard is its closing brace
  obtain ⟨init, hinit⟩ : ∃ init, before ++ guardText options =
      init ++ String.singleton '\x7d' ++ "\n" := by
    refine ⟨before ++ options.generatedComment ++ "\n\n" ++ options.includeComment ++ "\n" ++
      "if (file_exists(" ++ quoted options.includeFile ++ ")) \x7b\n" ++
      Text.spaces options.indent.toNat ++ "include_once " ++
      quoted options.includeFile ++ ";\n", ?_⟩
    apply String.toList_inj.mp
    simp [guardText]
  rw [hinit]
  exact ⟨ready_of_newline _, Text.endsBlankLine_append init (by decide)⟩

/-- Behind the guard come the assignments, the first one below its comment. -/
theorem foldl_write_assignments {r : Rendering} (hr : r.Ready)
    (hblank : ¬ Text.endsBlankLine r.text) (settings : SettingsMap) (options : GeneratorOptions) :
    (settings.assignmentStatements options).foldl (write options.indent.toNat) r =
      ⟨r.text ++ if settings.isEmpty then ""
        else "\n" ++ options.environmentComment ++ "\n" ++
          assignmentsText options settings, true⟩ := by
  have hempty : settings.isEmpty = (settings.assignmentCode options).isEmpty := by
    simp [SettingsMap.isEmpty, SettingsMap.assignmentCode]
  rw [hempty, assignmentsText, SettingsMap.assignmentStatements]
  cases settings.assignmentCode options with
  | nil => simp [← hr.inCode]
  | cons first rest =>
    have hfirst : write options.indent.toNat r (.expression first [options.environmentComment]) =
        ⟨r.text ++ "\n" ++ options.environmentComment ++ "\n" ++
          first.text options.indent.toNat 0 ++ ";" ++ "\n", true⟩ := by
      simp [write, hr.lead_eq, commentBlock, Stmt.comments, Stmt.text, joinText, hr.text_ne_empty,
        hblank, String.append_assoc]
    rw [List.foldl_cons, hfirst, foldl_write_expressions _ (ready_of_newline _)]
    simp [String.append_assoc]

/-! ## The whole file -/

theorem render_completed {template : String} {chunks : List Chunk}
    (h : templateChunks template.toList = .ok chunks) (settings : SettingsMap)
    (options : GeneratorOptions) :
    (completed chunks settings options).render options.indent.toNat =
      template ++ glue template chunks ++ generatedText settings options := by
  obtain ⟨hready, hblank⟩ := ready_behind_guard (template ++ glue template chunks) options
  rw [Document.render, completed, List.foldl_append, List.foldl_append, foldl_write_template _ h,
    List.foldl_cons, List.foldl_nil, write_includeGuard h, foldl_write_assignments hready hblank]
  simp [generatedText, String.append_assoc]

/-- A mapping without empty composites completes any document. -/
theorem complete_eq {settings : SettingsMap} (h : settings.isFilled) (doc : Document)
    (options : GeneratorOptions) :
    complete settings doc options =
      .ok (⟨doc.statements ++ [Generator.includeGuard options] ++
        settings.assignmentStatements options⟩,
        settings.size) := by
  rw [complete, Generator.addSettings, Generator.assignments_eq h,
    ← settings.length_assignmentStatements options]
  rfl

/-- There is a settings file unless its widest margin is too long. -/
theorem source_eq_render {template : String} {chunks : List Chunk}
    (h : templateChunks template.toList = .ok chunks) {settings : SettingsMap}
    (hfilled : settings.isFilled) (options : GeneratorOptions) :
    source settings template options =
      if widest settings options.indent ≤ Text.longest then
        .ok ((completed chunks settings options).render options.indent.toNat, settings.size)
      else .error .marginTooLong := by
  have hdoc : Document.ofTemplate template = .ok ⟨chunks.map .verbatim⟩ := by
    rw [Document.ofTemplate, h]
    rfl
  have hcomplete : complete settings ⟨chunks.map .verbatim⟩ options =
      .ok (completed chunks settings options, settings.size) := complete_eq hfilled _ options
  have hprint := print?_completed chunks settings options
  by_cases hfits : widest settings options.indent ≤ Text.longest
  · rw [if_pos hfits] at hprint ⊢
    simp only [source, hdoc, ofDocument, Except.mapError, bind, Except.bind, hcomplete, hprint]
  · rw [if_neg hfits] at hprint ⊢
    simp only [source, hdoc, ofDocument, Except.mapError, bind, Except.bind, hcomplete, hprint]

theorem source_eq {template : String} {chunks : List Chunk}
    (h : templateChunks template.toList = .ok chunks) {settings : SettingsMap}
    (hfilled : settings.isFilled) (options : GeneratorOptions) :
    source settings template options =
      if widest settings options.indent ≤ Text.longest then
        .ok (template ++ glue template chunks ++ generatedText settings options, settings.size)
      else .error .marginTooLong := by
  rw [source_eq_render h hfilled, render_completed h]

/-- **The template is an exact prefix of the settings file.**  With any accepted template, any
mapping without empty composites, and any options whose widest margin is no longer than a text can
be, the file is the template, the glue that the end of the template calls for, and a text that does
not depend on the template. -/
theorem source_eq_template_append {template : String} {chunks : List Chunk}
    (h : templateChunks template.toList = .ok chunks) {settings : SettingsMap}
    (hfilled : settings.isFilled) {options : GeneratorOptions}
    (hfits : widest settings options.indent ≤ Text.longest) :
    source settings template options =
      .ok (template ++ glue template chunks ++ generatedText settings options, settings.size) := by
  rw [source_eq h hfilled, if_pos hfits]

/-- A template that ends in plain text, without a line end, takes all three parts of the glue. -/
theorem source_eq_below_plain_text :
    let settings : SettingsMap := ⟨[("db", .composite [(.string "host", .leaf "H")])]⟩
    templateChunks "<?php // a ?>\n<b>".toList = .ok [⟨"<?php // a ?>\n<b>", false⟩] ∧
      settings.isFilled ∧ widest settings 2 ≤ Text.longest ∧
      source settings "<?php // a ?>\n<b>" {} =
        .ok ("<?php // a ?>\n<b>" ++ "\n<?php\n\n" ++ generatedText settings {}, 1) := by
  intro settings
  have haccepted : templateChunks "<?php // a ?>\n<b>".toList =
      .ok [⟨"<?php // a ?>\n<b>", false⟩] := by decide +kernel
  have hline : ¬ Text.endsLine "<?php // a ?>\n<b>" := by
    simp only [Text.endsLine, Text.endsIn, List.isSuffixOf_iff_suffix]
    decide
  have hblank : ¬ Text.endsBlankLine "<?php // a ?>\n<b>\n<?php\n" := by
    simp only [Text.endsBlankLine, Text.endsIn, List.isSuffixOf_iff_suffix]
    decide
  have hglue : glue "<?php // a ?>\n<b>" [⟨"<?php // a ?>\n<b>", false⟩] = "\n<?php\n\n" := by
    simp [glue, hline, hblank, endInCode]
  have hfits : widest settings 2 ≤ Text.longest := by decide
  rw [← hglue]
  exact ⟨haccepted, rfl, hfits, source_eq_template_append haccepted rfl hfits⟩

/-- Half the range of words for each level is too much: the line in the include guard has a
margin that is longer than any text, so that there is no settings file even without settings
and template. -/
theorem source_half_range :
    templateChunks "".toList = .ok [] ∧ SettingsMap.isFilled ⟨[]⟩ ∧
      source ⟨[]⟩ "" { indent := 2 ^ 63 } = .error .marginTooLong ∧
      ¬ ∀ (template : String) (chunks : List Chunk) (settings : SettingsMap)
        (options : GeneratorOptions), templateChunks template.toList = .ok chunks →
          settings.isFilled → ∃ text,
            source settings template options = .ok (text, settings.size) := by
  have hchunks : templateChunks "".toList = .ok [] := by rfl
  have hsource : source ⟨[]⟩ "" { indent := 2 ^ 63 } = .error .marginTooLong := by
    rw [source_eq hchunks rfl, if_neg (by decide +kernel)]
  refine ⟨hchunks, rfl, hsource, fun hall => ?_⟩
  obtain ⟨text, htext⟩ := hall "" [] ⟨[]⟩ { indent := 2 ^ 63 } hchunks rfl
  rw [hsource] at htext
  cases htext

end SettingsFile
end SiteSettings
