import SiteSettings.Proofs.Php.Resuming

/-!
# Cutting a text into chunks

A text is cut at given lengths, and what is left over is one more chunk.  So what stands in front of
the texts that the last lengths belong to is cut as it would be alone (`cutChunks_append`), and
texts are cut apart at their own lengths (`cutChunks_flatten`).

The mode in which the last chunk of a template ends is the one in which the reader has left it
(`Reader.endInCode_of_run`), also if the template ends with a statement: a reader that has left the
code has passed a closing tag, and that is left over.
-/

namespace SiteSettings
namespace Php

section

variable {lengths : List (Nat × Bool)} {s t : List Char}

theorem cutChunks_cons (lastInCode : Bool) (n : Nat) (inCode : Bool) (more : List (Nat × Bool))
    (s : List Char) : cutChunks lastInCode ((n, inCode) :: more) s =
      ⟨String.ofList (s.take n), inCode⟩ :: cutChunks lastInCode more (s.drop n) := by
  rw [cutChunks]

/-- The lengths of a text that they make up cut it off the front. -/
theorem cutChunks_append (hlength : (lengths.map Prod.fst).sum = s.length) (lastInCode : Bool)
    (more : List (Nat × Bool)) (t : List Char) :
    cutChunks lastInCode (lengths ++ more) (s ++ t) =
      cutChunks true lengths s ++ cutChunks lastInCode more t := by
  induction lengths generalizing s with
  | nil =>
    obtain rfl := List.length_eq_zero_iff.mp hlength.symm
    rfl
  | cons entry lengths ih =>
    obtain ⟨n, inCode⟩ := entry
    rw [List.map_cons, List.sum_cons] at hlength
    have hn : n ≤ s.length := by simp only at hlength; omega
    have hrest : (lengths.map Prod.fst).sum = (s.drop n).length := by
      rw [List.length_drop]
      simp only at hlength
      omega
    rw [List.cons_append, cutChunks_cons, cutChunks_cons, List.take_append_of_le_length hn,
      List.drop_append_of_le_length hn, ih hrest, List.cons_append]

/-- Texts one after another are cut apart at their own lengths. -/
theorem cutChunks_flatten (lastInCode : Bool) (texts : List (List Char)) (rest : List Char) :
    cutChunks lastInCode (texts.map fun text => (text.length, true)) (texts.flatten ++ rest) =
      texts.map (fun text => ⟨String.ofList text, true⟩) ++ cutChunks lastInCode [] rest := by
  induction texts with
  | nil => rfl
  | cons text texts ih =>
    rw [List.map_cons, List.flatten_cons, cutChunks_cons, List.append_assoc, List.take_left,
      List.drop_left, ih, List.map_cons, List.cons_append]

/-- A text that is cut without a rest gets the modes that stand with the lengths. -/
theorem endInCode_cutChunks (hlength : (lengths.map Prod.fst).sum = s.length) :
    endInCode (cutChunks true lengths s) = lengths.getLast?.any Prod.snd := by
  have hmodes : (cutChunks true lengths s).map Chunk.endsInCode = lengths.map Prod.snd := by
    induction lengths generalizing s with
    | nil =>
      obtain rfl := List.length_eq_zero_iff.mp hlength.symm
      rfl
    | cons entry lengths ih =>
      obtain ⟨n, inCode⟩ := entry
      rw [List.map_cons, List.sum_cons] at hlength
      have hrest : (lengths.map Prod.fst).sum = (s.drop n).length := by
        rw [List.length_drop]
        simp only at hlength
        omega
      rw [cutChunks_cons, List.map_cons, List.map_cons, ih hrest]
  have hlast := congrArg List.getLast? hmodes
  rw [List.getLast?_map, List.getLast?_map] at hlast
  unfold endInCode
  cases hchunk : (cutChunks true lengths s).getLast? <;> cases hentry : lengths.getLast? <;>
    rw [hchunk, hentry] at hlast <;> simp_all

end

namespace Reader

variable {r r' : Reader} {s : List Char} {n : Nat}

theorem length_pos_of_interruption? {opens : Bool} (h : interruption? s = some (n, opens)) :
    0 < n := by
  unfold interruption? at h
  split at h
  · cases h
    exact Nat.succ_pos _
  · nomatch h

/-- Whether a reader that has left the code has passed something. -/
def HasPassed (r : Reader) : Prop :=
  r.interrupted ≠ none → 0 < r.passed + r.blanks

theorem HasPassed.endAtTag (h : r.HasPassed) (s : List Char) : (r.endAtTag s).HasPassed := by
  unfold Reader.endAtTag
  split
  · split
    · exact fun hinterrupted => absurd rfl hinterrupted
    · exact h
  · exact h

theorem HasPassed.moves (h : r.HasPassed) (hmoves : r.Moves s r' n) : r'.HasPassed := by
  cases hmoves with
  | pass hgap hstarts hlengths =>
    intro hinterrupted
    have hpos := h hinterrupted
    simp only
    omega
  | plain hinterruption =>
    intro _
    have hpos := length_pos_of_interruption? hinterruption
    simp only [passPlain, passComment]
    omega
  | take hspelled htake =>
    rcases take?_cases htake with ⟨_, -, rfl⟩ | ⟨-, -, _, -, rfl⟩ <;>
      exact fun hinterrupted => absurd rfl hinterrupted
  | openLines ho htake =>
    rcases take?_cases htake with ⟨_, -, rfl⟩ | ⟨-, -, _, -, rfl⟩ <;>
      exact fun hinterrupted => absurd rfl hinterrupted

theorem HasPassed.step (h : r.HasPassed) (hstep : (r', n) ∈ r.steps s) : r'.HasPassed := by
  rcases moves_of_mem_steps hstep with hmoves | hmoves
  · exact h.moves hmoves
  · exact (h.endAtTag s).moves hmoves

/-- Where a template ends, it comes apart into the statements, whose lengths the reader knows, and
what is left over. -/
theorem Tracked.exists_append {source : List Char} (h : Tracked source r []) :
    ∃ own trailing, source = own ++ trailing ∧
      (r.closeChunk.chunks.reverse.map Prod.fst).sum = own.length ∧
      trailing.length = r.passed + r.blanks := by
  have hlength := h.length_eq
  obtain ⟨before, current, gaps, htracks⟩ := h
  have hsum : (r.closeChunk.chunks.reverse.map Prod.fst).sum =
      (r.chunks.map Prod.fst).sum + r.chunk := by
    rw [List.map_reverse, List.sum_reverse, closeChunk]
    cases hbegun : r.begun with
    | true => simp [Nat.add_comm]
    | false =>
      have hchunk := htracks.chunk
      rw [(htracks.unbegun hbegun).2.1] at hchunk
      simp [hchunk, Piece.textOf]
  refine ⟨source.take (r.closeChunk.chunks.reverse.map Prod.fst).sum,
    source.drop (r.closeChunk.chunks.reverse.map Prod.fst).sum,
    (List.take_append_drop _ _).symm, ?_, ?_⟩
  · rw [List.length_take]
    simp only [List.length_nil] at hlength
    omega
  · rw [List.length_drop]
    simp only [List.length_nil] at hlength
    omega

/-- The mode of the last chunk is the one in which the reader has left the template. -/
theorem endInCode_of_run {source : List Char} {plain : Nat} {opens : Bool}
    (hplain : plainLength source = (plain, opens)) {fuel : Nat} {last : Reader}
    (hrun : run fuel (start plain opens) (source.drop plain) = .ok last) :
    endInCode (cutChunks last.closeChunk.inCode last.closeChunk.chunks.reverse source) =
      last.closeChunk.inCode := by
  have hstart : Tracked source (start plain opens) (source.drop plain) ∧
      (start plain opens).HasPassed :=
    ⟨⟨_, _, _, Tracks.start hplain⟩, fun hinterrupted => absurd rfl hinterrupted⟩
  obtain ⟨⟨htracked, hpassed⟩, hend⟩ := of_run (P := fun r s => Tracked source r s ∧ r.HasPassed)
    (fun hs h hstep => ⟨h.1.step hs hstep, h.2.step hstep⟩) hstart hrun
  obtain ⟨own, trailing, hsource, hown, htrailing⟩ := htracked.exists_append
  have hcut := cutChunks_append hown last.closeChunk.inCode [] trailing
  rw [List.append_nil, ← hsource] at hcut
  rw [hcut]
  by_cases hnone : trailing = []
  · -- nothing has been passed since the last statement, so the reader has not left the code
    -- since then
    subst hnone
    have huninterrupted : last.interrupted = none := by
      by_contra hinterrupted
      have hpos := hpassed hinterrupted
      simp only [List.length_nil] at htrailing
      omega
    rw [cutChunks, List.append_nil, endInCode_cutChunks hown, List.getLast?_reverse]
    cases hbegun : last.begun with
    | true => simp [closeChunk, hbegun, huninterrupted]
    | false =>
      -- there is no statement, so there is no text at all
      obtain ⟨before, current, gaps, htracks⟩ := htracked
      have hchunks : last.chunks = [] := by
        have hlengths := htracks.chunks
        rw [(htracks.unbegun hbegun).1] at hlengths
        simpa using hlengths
      have hempty : source = [] := by
        simpa [closeChunk, hbegun, hchunks, hsource, eq_comm] using hown
      subst hempty
      cases hplain
      cases fuel with
      | zero => cases hrun
      | succ fuel =>
        cases hrun
        rfl
  · have hlast : cutChunks last.closeChunk.inCode [] trailing =
        [⟨String.ofList trailing, last.closeChunk.inCode⟩] := by
      cases trailing with
      | nil => exact absurd rfl hnone
      | cons c trailing => rfl
    simp [hlast, endInCode]

/-- What is read without going back is cut at the lengths the reader has found. -/
theorem templateChunks_of_settle? {source : List Char} {plain : Nat} {opens : Bool}
    (hplain : plainLength source = (plain, opens)) {last : Reader}
    (hsettle : settle? source.length (start plain opens) (source.drop plain) = some last) :
    ∃ chunks, templateChunks source = .ok chunks ∧
      chunks = cutChunks last.closeChunk.inCode last.closeChunk.chunks.reverse source ∧
      endInCode chunks = last.closeChunk.inCode ∧ Tracked source last [] ∧ last.ways.canEnd := by
  have hrun := run_of_settle? hsettle
  obtain ⟨htracked, hend⟩ := of_run Tracked.step ⟨_, _, _, Tracks.start hplain⟩ hrun
  exact ⟨_, by simp only [templateChunks, hplain, hrun], rfl, endInCode_of_run hplain hrun,
    htracked, hend⟩

end Reader

end Php
end SiteSettings
