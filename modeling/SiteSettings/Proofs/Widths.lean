import Mathlib.Data.UInt
import SiteSettings.Proofs.Config.Fields
import SiteSettings.Proofs.Php.Margins
import SiteSettings.Proofs.SettingsFile

/-!
# How wide an indentation gets

The width of a margin is a product: the spaces for each level, which the configuration chooses among
all numbers of 64 bits, times the level.  The deepest level of a settings file is that of its most
deeply nested array literal, and nothing bounds it.  So the products do not all fit into 64 bits
(`SettingsFile.widths_overflow`); `SettingsFile.widths_exact` says when they do, and what becomes of
the file on a machine of words when not.

With memory for any margin, the product decides: if it is too great the program stops, or the
product wraps around.  But no text can be 2 ^ 63 bytes long.  On the way to a level that is too deep
comes a margin that is too long, while its width still fits: the levels go up by single steps, so a
width is at most twice one that there was memory for.  That is why `Document.print?` need not say
what becomes of a product out of range (`Machine.printOn_eq_print?`).
-/

namespace SiteSettings

open Php Generator

/-! ## Margins on a machine of words -/

/-- Why there is no margin. -/
inductive Refusal
  /-- Its width is out of range. -/
  | overflow
  /-- There is no memory for it. -/
  | memory
deriving DecidableEq, Repr

/-- What printing depends on. -/
structure Machine where
  /-- Whether a product out of range stops the program; if not, it wraps around. -/
  checksProducts : Bool
  /-- The longest margin that there is memory for. -/
  longest : Nat

/-- The margin of a level: spaces as many as the product says. -/
def Machine.margin (machine : Machine) (indent : UInt64) (level : Nat) : Except Refusal String :=
  let width := indent.toNat * level
  if machine.checksProducts ∧ UInt64.size ≤ width then .error .overflow
  else if machine.longest < width % UInt64.size then .error .memory
  else .ok (Text.spaces (width % UInt64.size))

/-- The text of a document, printed on a machine. -/
def Php.Document.printOn (doc : Document) (machine : Machine) (indent : UInt64) :
    Except Refusal String :=
  doc.layout (machine.margin indent)

/-- The widths of the margins in a document. -/
def Php.Document.widths (doc : Document) (indent : UInt64) : List Nat :=
  doc.levels.map (indent.toNat * ·)

theorem Php.Document.exists_mem_widths_iff {doc : Document} {indent : UInt64} {P : Nat → Prop} :
    (∃ width ∈ doc.widths indent, P width) ↔ ∃ level ∈ doc.levels, P (indent.toNat * level) := by
  simp [widths]

namespace Machine

variable {machine : Machine} {indent : UInt64}

theorem margin_eq {level : Nat} (hfits : indent.toNat * level < UInt64.size) :
    machine.margin indent level =
      if machine.longest < indent.toNat * level then .error .memory
      else .ok (Text.spaces (indent.toNat * level)) := by
  simp only [margin, Nat.mod_eq_of_lt hfits, Nat.not_le.mpr hfits, and_false, if_false]

theorem refusal?_eq {level : Nat} (hfits : indent.toNat * level < UInt64.size) :
    refusal? (machine.margin indent) level =
      if machine.longest < indent.toNat * level then some .memory else none := by
  have hmargin : machine.margin indent level = _ := margin_eq hfits
  split at hmargin
  · rename_i hlong
    rw [refusal?_of_error hmargin, if_pos hlong]
  · rename_i hshort
    rw [refusal?_of_ok hmargin, if_neg hshort]

/-- With memory for every number of 64 bits, only products out of range are refused. -/
theorem refusal?_eq_of_size_le (hmemory : UInt64.size ≤ machine.longest) (level : Nat) :
    refusal? (machine.margin indent) level =
      if machine.checksProducts ∧ UInt64.size ≤ indent.toNat * level then some .overflow
      else none := by
  have hwidth : ¬ machine.longest < indent.toNat * level % UInt64.size := by
    have hmod := Nat.mod_lt (indent.toNat * level) (show 0 < UInt64.size by decide)
    omega
  split
  · rename_i hover
    exact refusal?_of_error (by rw [margin, if_pos hover])
  · rename_i hin
    exact refusal?_of_ok (by rw [margin, if_neg hin, if_neg hwidth])

/-- Where memory ends below 2 ^ 63, it is memory that is missing first: the next level is at most
one step deeper than one that there was memory for, and so its width still fits. -/
theorem findSome?_refusal? (hmemory : machine.longest < 2 ^ 63) {levels : List Nat} {deepest : Nat}
    (h : Gradual deepest levels) (hdeepest : indent.toNat * deepest ≤ machine.longest)
    (hlong : ∃ level ∈ levels, machine.longest < indent.toNat * level) :
    levels.findSome? (refusal? (machine.margin indent)) = some .memory := by
  induction levels generalizing deepest with
  | nil => simp at hlong
  | cons level rest ih =>
    obtain ⟨hstep, hrest⟩ := h
    have hfits : indent.toNat * level < UInt64.size := by
      have hindent : indent.toNat < UInt64.size := indent.toNat_lt_size
      have hmul : indent.toNat * level ≤ indent.toNat * deepest + indent.toNat :=
        Nat.mul_le_mul_left indent.toNat hstep
      have hsize : UInt64.size = 2 ^ 63 + 2 ^ 63 := by decide
      cases deepest with
      | zero => omega
      | succ above =>
        have hindent' : indent.toNat ≤ indent.toNat * (above + 1) :=
          Nat.le_mul_of_pos_right indent.toNat (Nat.succ_pos above)
        omega
    rw [List.findSome?_cons, refusal?_eq hfits]
    by_cases hlevel : machine.longest < indent.toNat * level
    · rw [if_pos hlevel]
    · rw [if_neg hlevel]
      refine ih hrest ?_ ?_
      · rcases Nat.le_total deepest level with hle | hle
        · rw [Nat.max_eq_right hle]
          omega
        · rwa [Nat.max_eq_left hle]
      · obtain ⟨other, hother, hwide⟩ := hlong
        rcases List.mem_cons.mp hother with rfl | hother
        · exact absurd hwide hlevel
        · exact ⟨other, hother, hwide⟩

/-! ## Documents on a machine of words -/

variable {doc : Document}

/-- A document whose margins fit, and have memory, is printed as it is rendered. -/
theorem printOn_eq_render
    (h : ∀ width ∈ doc.widths indent, width < UInt64.size ∧ width ≤ machine.longest) :
    doc.printOn machine indent = .ok (doc.render indent.toNat) := by
  refine Document.layout_eq fun level hlevel => ?_
  obtain ⟨hfits, hmemory⟩ := h _ (List.mem_map_of_mem hlevel)
  rw [margin_eq hfits, if_neg (Nat.not_lt.mpr hmemory)]

theorem printOn_eq_overflow (hchecks : machine.checksProducts)
    (hmemory : UInt64.size ≤ machine.longest)
    (h : ∃ width ∈ doc.widths indent, UInt64.size ≤ width) :
    doc.printOn machine indent = .error .overflow := by
  obtain ⟨text, htext⟩ : Asks (machine.margin indent) doc.levels (doc.printOn machine indent) :=
    doc.asks_layout
  rw [htext, answerUnless_eq_error_iff]
  cases hfirst : doc.levels.findSome? (refusal? (machine.margin indent)) with
  | none =>
    obtain ⟨level, hlevel, hwide⟩ := Document.exists_mem_widths_iff.mp h
    have hnone := List.findSome?_eq_none_iff.mp hfirst level hlevel
    rw [refusal?_eq_of_size_le hmemory, if_pos ⟨hchecks, hwide⟩] at hnone
    cases hnone
  | some refusal =>
    obtain ⟨level, -, hrefusal⟩ := List.exists_of_findSome?_eq_some hfirst
    rw [refusal?_eq_of_size_le hmemory] at hrefusal
    exact (Option.ite_none_right_eq_some.mp hrefusal).2.symm

/-- If products wrap around, nothing is refused; but the margin of a level that is out of range
is too short. -/
theorem exists_printOn_eq_ok (hwraps : machine.checksProducts = false)
    (hmemory : UInt64.size ≤ machine.longest)
    (h : ∃ width ∈ doc.widths indent, UInt64.size ≤ width) :
    (∃ text, doc.printOn machine indent = .ok text) ∧
      ∃ level ∈ doc.levels, ∃ short, machine.margin indent level = .ok short ∧
        short.length < indent.toNat * level := by
  have hgranted (level : Nat) : machine.margin indent level =
      .ok (Text.spaces (indent.toNat * level % UInt64.size)) := by
    have hmod := Nat.mod_lt (indent.toNat * level) (show 0 < UInt64.size by decide)
    rw [margin, hwraps, if_neg (by simp), if_neg (by omega)]
  constructor
  · obtain ⟨text, htext⟩ : Asks (machine.margin indent) doc.levels (doc.printOn machine indent) :=
      doc.asks_layout
    refine ⟨text, htext.trans (answerUnless_eq_ok_iff.mpr ⟨fun level _ => ?_, rfl⟩)⟩
    exact refusal?_of_ok (hgranted level)
  · obtain ⟨level, hlevel, hwide⟩ := Document.exists_mem_widths_iff.mp h
    refine ⟨level, hlevel, _, hgranted level, ?_⟩
    have hmod := Nat.mod_lt (indent.toNat * level) (show 0 < UInt64.size by decide)
    simp only [Text.spaces, String.length_ofList, List.length_replicate]
    omega

theorem printOn_eq_memory (hmemory : machine.longest < 2 ^ 63)
    (h : ∃ width ∈ doc.widths indent, machine.longest < width) :
    doc.printOn machine indent = .error .memory := by
  obtain ⟨text, htext⟩ : Asks (machine.margin indent) doc.levels (doc.printOn machine indent) :=
    doc.asks_layout
  rw [htext, answerUnless_eq_error_iff]
  exact findSome?_refusal? hmemory doc.gradual_levels (Nat.zero_le _)
    (Document.exists_mem_widths_iff.mp h)

/-- With memory for margins as long as a text can be, a machine prints what `print?` says, whether
it checks its products or not. -/
theorem printOn_eq_print? (hmemory : machine.longest = Text.longest) (doc : Document)
    (indent : UInt64) :
    doc.printOn machine indent = (doc.print? indent).elim (.error .memory) .ok := by
  by_cases h : ∀ level ∈ doc.levels, indent.toNat * level ≤ Text.longest
  · rw [Document.print?, if_pos h]
    refine printOn_eq_render (List.forall_mem_map.mpr fun level hlevel => ?_)
    have hlength : Text.longest < UInt64.size := by decide
    exact ⟨Nat.lt_of_le_of_lt (h level hlevel) hlength, hmemory ▸ h level hlevel⟩
  · rw [Document.print?, if_neg h]
    refine printOn_eq_memory (hmemory ▸ show Text.longest < 2 ^ 63 by decide) ?_
    rw [Document.exists_mem_widths_iff, hmemory]
    simpa using h

end Machine

/-! ## Settings files on a machine of words -/

namespace SettingsFile

/-- A mapping is safe from every indentation exactly if no array literal in its code is nested in
another one. -/
theorem widest_lt_iff (settings : SettingsMap) :
    (∀ value indent, Config.readIndent value = .ok indent →
      widest settings indent < UInt64.size) ↔ settings.height ≤ 1 := by
  constructor
  · intro h
    have hlt := h _ _ (Config.readIndent_text (2 ^ 63))
    have hsize : UInt64.size = 2 ^ 63 * 2 := by decide
    have hindent : (2 ^ 63 : UInt64).toNat = 2 ^ 63 := by decide +kernel
    rw [widest, hsize, hindent] at hlt
    have hheight := Nat.lt_of_mul_lt_mul_left hlt
    omega
  · intro h value indent _
    rw [widest, Nat.max_eq_left h, Nat.mul_one]
    exact indent.toNat_lt_size

/-- **The widths in a settings file are the indentation times the levels**, from the outermost to
the deepest one, so they fit into 64 bits exactly if the widest of them does.  Every indentation
is accepted, and every accepted one passes for a mapping whose literals are not nested, and for
no other mapping.

What becomes of the file: there is one as long as its widest margin is no longer than a text can be.
And on a machine of words, where everything fits, and into memory too, it is the text as it is
meant.  Where a product is out of range and memory is no matter, printing stops, or goes on with a
margin that is too short.  And where memory ends below 2 ^ 63 it is memory that is missing, before
any product is out of range. -/
theorem widths_exact (options : GeneratorOptions) {template : String} {chunks : List Chunk}
    (htemplate : templateChunks template.toList = .ok chunks) {settings : SettingsMap}
    (hfilled : settings.isFilled) :
    (∃ value, Config.readIndent value = .ok options.indent) ∧
    ∃ doc, complete settings ⟨chunks.map .verbatim⟩ options = .ok (doc, settings.size) ∧
      source settings template options =
        (if widest settings options.indent ≤ Text.longest then
          .ok (doc.render options.indent.toNat, settings.size)
        else .error .marginTooLong) ∧
      (∀ width ∈ doc.widths options.indent, width ≤ widest settings options.indent) ∧
      widest settings options.indent ∈ doc.widths options.indent ∧
      ((∀ width ∈ doc.widths options.indent, width < UInt64.size) ↔
        widest settings options.indent < UInt64.size) ∧
      ((∀ value indent, Config.readIndent value = .ok indent →
        widest settings indent < UInt64.size) ↔ settings.height ≤ 1) ∧
      ∀ machine : Machine,
        (widest settings options.indent < UInt64.size →
          widest settings options.indent ≤ machine.longest →
          doc.printOn machine options.indent = .ok (doc.render options.indent.toNat)) ∧
        (UInt64.size ≤ widest settings options.indent → UInt64.size ≤ machine.longest →
          if machine.checksProducts then doc.printOn machine options.indent = .error .overflow
          else (∃ text, doc.printOn machine options.indent = .ok text) ∧
            ∃ level ∈ doc.levels, ∃ short, machine.margin options.indent level = .ok short ∧
              short.length < options.indent.toNat * level) ∧
        (machine.longest < widest settings options.indent → machine.longest < 2 ^ 63 →
          doc.printOn machine options.indent = .error .memory) := by
  let doc : Document := completed chunks settings options
  have hcomplete : complete settings ⟨chunks.map .verbatim⟩ options = .ok (doc, settings.size) :=
    complete_eq hfilled _ options
  have hreaches : Reaches 0 (max 1 settings.height) doc.levels :=
    reaches_completed chunks settings options
  have hle : ∀ width ∈ doc.widths options.indent, width ≤ widest settings options.indent := by
    refine List.forall_mem_map.mpr fun level hlevel => ?_
    exact Nat.mul_le_mul_left _ (hreaches.le level hlevel)
  have hmem : widest settings options.indent ∈ doc.widths options.indent :=
    List.mem_map_of_mem (hreaches.mem (by omega))
  refine ⟨⟨_, Config.readIndent_text options.indent⟩, doc, hcomplete,
    source_eq_render htemplate hfilled options, hle, hmem, ?_, widest_lt_iff settings,
    fun machine => ⟨?_, ?_, ?_⟩⟩
  · exact ⟨fun h => h _ hmem, fun h width hwidth => Nat.lt_of_le_of_lt (hle width hwidth) h⟩
  · intro hfits hmemory
    refine Machine.printOn_eq_render fun width hwidth => ?_
    have hwidest := hle width hwidth
    exact ⟨by omega, by omega⟩
  · intro hover hmemory
    split
    · rename_i hchecks
      exact Machine.printOn_eq_overflow hchecks hmemory ⟨_, hmem, hover⟩
    · rename_i hwraps
      exact Machine.exists_printOn_eq_ok (by simpa using hwraps) hmemory ⟨_, hmem, hover⟩
  · intro hlong hmemory
    exact Machine.printOn_eq_memory hmemory ⟨_, hmem, hlong⟩

/-- A mapping with one array literal in another one. -/
def nested : SettingsMap :=
  ⟨[("x", .composite [(.string "d", .leaf "D"),
    (.string "a", .composite [(.string "b", .leaf "B"), (.string "c", .leaf "C")])])]⟩

/-- A quarter of the range for each level: the widest margin is half the range, one more than a text
can be long. -/
theorem widths_exact_half_range :
    let options : GeneratorOptions := { indent := 2 ^ 62 }
    Config.readIndent (.string "4611686018427387904") = .ok options.indent ∧
      templateChunks "<?php\n".toList = .ok [⟨"<?php\n", true⟩] ∧ nested.isFilled ∧
      ∃ doc : Document, source nested "<?php\n" options = .error .marginTooLong ∧
        2 ^ 63 ∈ doc.widths options.indent ∧
        (∀ width ∈ doc.widths options.indent, width < UInt64.size) ∧
        doc.printOn ⟨true, 2 ^ 63⟩ options.indent = .ok (doc.render options.indent.toNat) ∧
        doc.printOn ⟨true, 2 ^ 63 - 1⟩ options.indent = .error .memory := by
  intro options
  have hindent : Config.readIndent (.string "4611686018427387904") = .ok options.indent := by
    have hnumber : options.indent.toNat = 4611686018427387904 := by decide +kernel
    have htext := Config.readIndent_text options.indent
    rwa [hnumber] at htext
  have htemplate : templateChunks "<?php\n".toList = .ok [⟨"<?php\n", true⟩] := by decide +kernel
  have hwidest : widest nested options.indent = 2 ^ 63 := by decide +kernel
  obtain ⟨-, doc, -, hsource, -, hmem, hfit, -, hmachine⟩ :=
    widths_exact options htemplate (show nested.isFilled from rfl)
  rw [hwidest] at hsource hmem hfit
  refine ⟨hindent, htemplate, rfl, doc, ?_, hmem, hfit.mpr (by decide), ?_, ?_⟩
  · exact hsource.trans (if_neg (by decide))
  · exact (hmachine _).1 (by rw [hwidest]; decide) (by rw [hwidest])
  · exact (hmachine _).2.2 (by rw [hwidest]; decide) (by decide)

/-- **Not every accepted indentation fits.**  With half the range for each level, the margin of the
inner lines is as wide as the whole range.  A machine with memory for any margin stops there, or
leaves those lines without one if its products wrap around; one with less memory stops at the first
margin of the file, and there is no settings file. -/
theorem widths_overflow :
    let options : GeneratorOptions := { indent := 2 ^ 63 }
    Config.readIndent (.string "9223372036854775808") = .ok options.indent ∧ nested.isFilled ∧
      source nested "" options = .error .marginTooLong ∧
      ∃ doc : Document, complete nested .empty options = .ok (doc, 1) ∧
        (∃ width ∈ doc.widths options.indent, ¬ width < UInt64.size) ∧
        doc.printOn ⟨true, UInt64.size⟩ options.indent = .error .overflow ∧
        Machine.margin ⟨false, UInt64.size⟩ options.indent 2 = .ok "" ∧
        doc.printOn ⟨true, 2 ^ 63 - 1⟩ options.indent = .error .memory ∧
        doc.printOn ⟨false, 2 ^ 63 - 1⟩ options.indent = .error .memory := by
  intro options
  have hindent : Config.readIndent (.string "9223372036854775808") = .ok options.indent := by
    have hnumber : options.indent.toNat = 9223372036854775808 := by decide +kernel
    have htext := Config.readIndent_text options.indent
    rwa [hnumber] at htext
  have hsource : source nested "" options = .error .marginTooLong := by
    have hchunks : templateChunks "".toList = .ok [] := by rfl
    exact (source_eq hchunks rfl options).trans (if_neg (by decide +kernel))
  have hsize : options.indent.toNat * 2 = UInt64.size := by decide +kernel
  let doc : Document := ⟨[includeGuard options] ++ nested.assignmentStatements options⟩
  have hcomplete : complete nested .empty options = .ok (doc, 1) := complete_eq rfl .empty options
  have hlevels : doc.levels = [1, 0, 1, 2, 1, 0] := rfl
  have hmem : UInt64.size ∈ doc.widths options.indent :=
    List.mem_map.mpr ⟨2, by rw [hlevels]; decide, hsize⟩
  have hmemory (checksProducts : Bool) :
      doc.printOn ⟨checksProducts, 2 ^ 63 - 1⟩ options.indent = .error .memory :=
    Machine.printOn_eq_memory (show 2 ^ 63 - 1 < 2 ^ 63 by decide)
      ⟨_, hmem, show 2 ^ 63 - 1 < UInt64.size by decide⟩
  refine ⟨hindent, rfl, hsource, doc, hcomplete, ⟨_, hmem, Nat.lt_irrefl _⟩, ?_, ?_,
    hmemory true, hmemory false⟩
  · exact Machine.printOn_eq_overflow rfl (Nat.le_refl _) ⟨_, hmem, Nat.le_refl _⟩
  · simp only [Machine.margin, hsize, Nat.mod_self]
    rfl

end SettingsFile

end SiteSettings
