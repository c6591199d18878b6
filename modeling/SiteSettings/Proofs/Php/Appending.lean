import SiteSettings.Proofs.Php.Chunks
import SiteSettings.Proofs.Php.Following

/-!
# The chunks of a template with more text behind it

A reader that goes on behind a template knows what it knew at the end of the template.  So a text
made of statements gives one chunk for each of them (`Adjoins`), with whatever the template left
over in front of the first, and a line end behind them is a chunk of its own.  The statements of the
template keep the chunks they had (`templateChunks_append`).
-/

namespace SiteSettings
namespace Php

open Reader

/-- The places behind statements of generated code. -/
def Place.IsGenerated (p : Place) : Prop :=
  p.isFinal ∧ (p.last = .ended ∨ p.last = .brace)

namespace Reader

variable {r : Reader} {p : Place}

/-- A line end behind a complete statement may be all that is left. -/
theorem Completed.reads_newLine (hr : r.Completed p) :
    ∃ k last, k ≤ 1 ∧ Reads k r ['\n'] last [] ∧ last.ways.canEnd ∧
      last.closeChunk.chunks = r.closeChunk.chunks ∧ last.closeChunk.inCode := by
  have hskips : Skips (['\n'] ++ []) [] := .blanks (List.forall_mem_singleton.mpr rfl) rfl rfl
  obtain ⟨k, n, passed, blanks, hk, hn, hreads, -⟩ :=
    hskips r (hr.toStands.textPlace?_eq_none (Place.isCode_of_isFinal hr.isFinal))
  obtain rfl : 1 = n := hn
  have hstands : Stands { r with passed, blanks } p := hr.toStands.pass _ _
  exact ⟨k, _, hk, hreads, hr.canEnd, rfl, hstands.inCode_closeChunk⟩

end Reader

/-- A template with more text behind it is cut into its own chunks and those of that text. -/
theorem templateChunks_append {source front back guard : List Char} {texts : List (List Char)}
    {last : Reader}
    (hreads : ReadsOn (source ++ (front ++ (back ++ (guard ++ (texts.flatten ++ ['\n'])))))
      (back ++ (guard ++ (texts.flatten ++ ['\n'])))
        (source.length + front.length) last front.length)
    (htracked : Tracked source last []) (hend : last.ways.canEnd)
    (hguard : ∀ p : Place, p.isFinal → Adjoins p (back ++ guard) ⟨.brace, [], false⟩)
    (htexts : ∀ text ∈ texts, ∀ p, p.IsGenerated → ∃ q, q.IsGenerated ∧ Adjoins p text q) :
    ∃ own trailing, source = own ++ trailing ∧
      (last.closeChunk.chunks.reverse.map Prod.fst).sum = own.length ∧
      templateChunks (source ++ (front ++ (back ++ (guard ++ (texts.flatten ++ ['\n']))))) =
        .ok (cutChunks true last.closeChunk.chunks.reverse own ++
          ((trailing ++ (front ++ (back ++ guard))) :: texts).map
            (fun text => ⟨String.ofList text, true⟩) ++
          [⟨"\n", true⟩]) := by
  obtain ⟨own, trailing, hsource, hown, htrailing⟩ := htracked.exists_append
  obtain ⟨plain, k, r, hplain, hk, hreads, hresumes⟩ := hreads
  obtain ⟨p, hstands⟩ := hresumes.stands
  have hr : r.Completed p := ⟨hstands, hresumes.ways ▸ hend⟩
  obtain ⟨k₁, r₁, hk₁, hreads₁, hr₁, hadds⟩ := hguard p hr.isFinal r (texts.flatten ++ ['\n']) hr
  have hbrace : Place.IsGenerated ⟨.brace, [], false⟩ := ⟨rfl, .inr rfl⟩
  obtain ⟨k₂, r₂, q, hk₂, hreads₂, hq, hr₂, hpassed₂, hchunks₂⟩ :=
    hr₁.reads_all htexts ['\n'] hbrace hadds.passed
  obtain ⟨k₃, r₃, hk₃, hreads₃, hend₃, hchunks₃, hcode₃⟩ := hr₂.reads_newLine
  set text := source ++ (front ++ (back ++ (guard ++ (texts.flatten ++ ['\n'])))) with htext
  have hall : Reads (k + (k₁ + (k₂ + k₃))) (start plain true) (text.drop plain) r₃ [] := by
    rw [List.append_assoc] at hreads₁
    exact hreads.trans (hreads₁.trans (hreads₂.trans hreads₃))
  have hlength : k + (k₁ + (k₂ + k₃)) ≤ text.length := by
    simp only [htext, List.length_append, List.length_singleton] at hk hk₁ hk₂ ⊢
    omega
  have hrun : run (text.length + 1) (start plain true) (text.drop plain) = .ok r₃ := by
    have hfuel : text.length + 1 = text.length - (k + (k₁ + (k₂ + k₃))) + 1 +
        (k + (k₁ + (k₂ + k₃))) := by
      omega
    rw [hfuel]
    exact hall.run (by rw [run_nil, if_pos hend₃])
  have hchunks : r₃.closeChunk.chunks.reverse = last.closeChunk.chunks.reverse ++
      ((trailing ++ (front ++ (back ++ guard))) :: texts).map fun text => (text.length, true) := by
    have hfirst : r.passed + r.blanks + (back ++ guard).length =
        (trailing ++ (front ++ (back ++ guard))).length := by
      simp only [hresumes.passed, htrailing, List.length_append, Nat.add_assoc]
    rw [hchunks₃, hchunks₂, hadds.chunks, hresumes.chunks, hfirst]
    simp
  have hsplit : text = own ++
      (((trailing ++ (front ++ (back ++ guard))) :: texts).flatten ++ ['\n']) := by
    simp [htext, hsource]
  refine ⟨own, trailing, hsource, hown, ?_⟩
  simp only [templateChunks, hplain, hrun, hchunks, hcode₃]
  rw [hsplit, cutChunks_append hown, cutChunks_flatten, ← List.append_assoc]
  rfl

end Php
end SiteSettings
