import Mathlib.Data.Option.Basic
import SiteSettings.Proofs.Php.Pieces
import SiteSettings.Proofs.Rendering

/-!
# The statements of a template

The reader goes through a template step by step and keeps no more than lengths.  What it has read so
far is the statements before the current one, the current one as far as it has come, and gaps
(`Reader.Tracks`).  Its ways to go on are those of the terminals of the current statement, and its
lengths are those of the pieces.  A step passes a gap or takes a lexeme (`Reader.Moves`); either
keeps this up (`Reader.Tracked.step`), and so does a whole run (`Reader.of_run`).  Where the
template ends, so does the current statement, and the chunks are the texts of the statements
(`Document.ofTemplate_dividesInto`).
-/

namespace SiteSettings
namespace Php

open Piece

namespace Reader

/-! ## What a step does -/

/-- Whether a lexeme of code or of a literal stands at the front of a text. -/
def SpelledAt (s : List Char) (l : Lexeme) : Prop :=
  (∃ tight, l ∈ codeLexemes tight s) ∨ ∃ place delimiter, l ∈ textLexemes place delimiter s

/-- What a step does: it passes blanks or a comment, passes a closing tag with the plain text behind
it, or takes a lexeme. -/
inductive Moves (r : Reader) (s : List Char) : Reader → Nat → Prop
  | pass {n passed blanks : Nat} (hgap : GapAt s n)
    (hstarts : blankLength s ≠ 0 ∨ commentLength s ≠ 0)
      (hlengths : passed + blanks = r.passed + r.blanks + n) : Moves r s { r with passed, blanks } n
  | plain {n : Nat} {opens : Bool} (h : interruption? s = some (n, opens)) :
      Moves r s (r.passPlain n opens) n
  | take {r' : Reader} {l : Lexeme} (hspelled : SpelledAt s l) (htake : r.take? l s = some r') :
      Moves r s r' l.length
  | openLines {r' : Reader} {o : LineOpening} (ho : lineOpening? s = some o)
      (htake : r.take? ⟨.opening o.quote, o.length⟩ s = some r') :
      Moves r s { r' with delimiter := o.delimiter } o.length

variable {r r' : Reader} {s : List Char} {n : Nat}

theorem SpelledAt.lexemeAt {l : Lexeme} (h : SpelledAt s l) : LexemeAt s l := by
  rcases h with ⟨tight, hl⟩ | ⟨place, delimiter, hl⟩
  · exact .code hl
  · exact .text hl

theorem moves_comment (h : r.comment? s = some (r', n)) : r.Moves s r' n := by
  obtain ⟨hcomment, h⟩ := Option.ite_none_left_eq_some.mp h
  cases h
  exact .pass .comment (.inr hcomment) rfl

theorem moves_openLines (h : r.openLines? s = some (r', n)) : r.Moves s r' n := by
  obtain ⟨o, hopening, h⟩ := Option.bind_eq_some_iff.mp h
  obtain ⟨taken, htake, h⟩ := Option.bind_eq_some_iff.mp h
  cases h
  exact .openLines hopening htake

theorem moves_firstUsable {lexemes : List Lexeme} (hlexemes : ∀ l ∈ lexemes, SpelledAt s l)
    (h : r.firstUsable s lexemes = some (r', n)) : r.Moves s r' n := by
  induction lexemes with
  | nil => cases h
  | cons l rest ih =>
    obtain ⟨hfirst, hrest⟩ := List.forall_mem_cons.mp hlexemes
    rw [firstUsable] at h
    split at h
    · rename_i taken htake
      cases h
      exact .take hfirst htake
    · exact ih hrest h

theorem moves_stepCode (h : r.stepCode s = some (r', n)) : (r.endAtTag s).Moves s r' n := by
  have hcode (tight : Bool) : ∀ l ∈ codeLexemes tight s, SpelledAt s l :=
    fun _ hl => .inl ⟨tight, hl⟩
  unfold stepCode at h
  dsimp only at h
  generalize r.endAtTag s = ended at h ⊢
  split at h
  · rename_i length opens hplain
    cases h
    exact .plain hplain
  · split at h
    · rename_i hblanks
      cases h
      exact .pass .blanks (.inl hblanks) (Nat.add_assoc ..).symm
    · split at h
      · rcases (Option.orElse_eq_some _ _ _).mp h with h | ⟨-, h⟩
        · exact moves_firstUsable (hcode _) h
        · exact moves_comment h
      · rcases (Option.orElse_eq_some _ _ _).mp h with h | ⟨-, h⟩
        · exact moves_comment h
        · rcases (Option.orElse_eq_some _ _ _).mp h with h | ⟨-, h⟩
          · exact moves_openLines h
          · exact moves_firstUsable (hcode _) h

theorem moves_stepOpened (h : r.stepOpened s = some (r', n)) : r.Moves s r' n := by
  unfold stepOpened at h
  dsimp only at h
  split at h
  · rename_i hblanks
    cases h
    refine .pass .lineBlanks (.inl ?_) (Nat.add_assoc ..).symm
    cases s with
    | nil => exact absurd rfl hblanks
    | cons c rest =>
      cases hc : isCodeBlank c with
      | true => simp [blankLength, runLength, hc]
      | false => simp [runLength, hc] at hblanks
  · exact moves_comment h

/-- In a literal the reader moves on from where it is; in code a closing tag may end the
statement first. -/
theorem moves_of_mem_steps (h : (r', n) ∈ r.steps s) :
    r.Moves s r' n ∨ (r.endAtTag s).Moves s r' n := by
  unfold steps at h
  split at h
  · rename_i place _
    dsimp only at h
    have hfound : ∀ step ∈ (textLexemes place r.delimiter s).filterMap fun l => r.firstUsable s [l],
        r.Moves s step.1 step.2 := by
      intro step hstep
      obtain ⟨l, hl, husable⟩ := List.mem_filterMap.mp hstep
      exact moves_firstUsable (List.forall_mem_singleton.mpr (.inr ⟨_, _, hl⟩)) husable
    split at h
    · exact .inl (moves_stepOpened (Option.mem_toList.mp h))
    · exact .inl (hfound _ h)
  · exact .inr (moves_stepCode (Option.mem_toList.mp h))

/-! ## What has been read -/

/-- What a reader that has come to `rest` knows: the statements before the current one, the pieces
of the current one, and the gaps behind its last lexeme. -/
structure Tracks (source : List Char) (r : Reader) (before : List (List Piece))
    (current gaps : List Piece) (rest : List Char) : Prop where
  reads : ReadsAs source (before.flatten ++ current ++ gaps) rest
  before_statements : ∀ ps ∈ before, IsStatement ps
  chunks : r.chunks.reverse.map Prod.fst = before.map fun ps => (textOf ps).length
  chunk : r.chunk = (textOf current).length
  passed : r.passed + r.blanks = (textOf gaps).length
  gaps_gap : ∀ p ∈ gaps, p.isGap
  unbegun : r.begun = false → before = [] ∧ current = [] ∧ r.ways = Ways.finished
  begun : r.begun → EndsInLexeme current ∧ (before ++ [current]).IsChain PartsFrom ∧
    ∀ us, r.ways.Accepts us ↔ Form.Derives (.rule .statement) (terminalsOf current ++ us)

/-- What has been read where the current statement, if there is one, can end. -/
structure Closes (source : List Char) (r : Reader) (statements : List (List Piece))
    (gaps : List Piece) (rest : List Char) :
    Prop extends DividesInto source statements gaps rest where
  chunks : r.closeChunk.chunks.reverse.map Prod.fst = statements.map fun ps => (textOf ps).length
  accepts : ∀ last ∈ statements.getLast?, ∀ us,
    r.ways.Accepts us ↔ Form.Derives (.rule .statement) (terminalsOf last ++ us)

theorem isChain_concat_iff {α : Type} {R : α → α → Prop} {front : List α} {last : α} :
    (front ++ [last]).IsChain R ↔ front.IsChain R ∧ ∀ x ∈ front.getLast?, R x last := by
  simp [List.isChain_append]

namespace Tracks

variable {source rest : List Char} {before : List (List Piece)} {current gaps : List Piece}

theorem start {n : Nat} {opens : Bool} (h : plainLength source = (n, opens)) :
    (Reader.start n opens).Tracks source [] [] [⟨none, source.take n⟩] (source.drop n) where
  reads := ⟨n, opens, [], h, rfl, .nil _⟩
  before_statements _ hps := nomatch hps
  chunks := rfl
  chunk := rfl
  passed := by
    have hle := plainLength_le source
    rw [h] at hle
    rw [textOf_singleton, List.length_take, Nat.min_eq_left hle]
    rfl
  gaps_gap p hp := by
    obtain rfl := List.mem_singleton.mp hp
    rfl
  unbegun _ := ⟨rfl, rfl, rfl⟩
  begun hbegun := nomatch hbegun

theorem withDelimiter (h : r.Tracks source before current gaps rest) (delimiter : List Char) :
    Tracks source { r with delimiter } before current gaps rest :=
  ⟨h.reads, h.before_statements, h.chunks, h.chunk, h.passed, h.gaps_gap, h.unbegun, h.begun⟩

/-- A gap is passed. -/
theorem pass (h : r.Tracks source before current gaps rest) (hgap : GapAt rest n)
    {passed blanks : Nat} (hlengths : passed + blanks = r.passed + r.blanks + n)
    (interrupted : Option Bool) :
    Tracks source { r with passed, blanks, interrupted } before current
      (gaps ++ [⟨none, rest.take n⟩]) (rest.drop n) where
  reads := by
    rw [← List.append_assoc]
    exact h.reads.append (.gap hgap (.nil _))
  before_statements := h.before_statements
  chunks := h.chunks
  chunk := h.chunk
  passed := by
    have hle := hgap.length_le
    have hpassed := h.passed
    simp only [textOf_append, textOf_singleton, List.length_append, List.length_take]
    omega
  gaps_gap := by
    intro p hp
    rcases List.mem_append.mp hp with hp | hp
    · exact h.gaps_gap p hp
    · obtain rfl := List.mem_singleton.mp hp
      rfl
  unbegun := h.unbegun
  begun := h.begun

/-- A statement has begun if a terminal can go on with it. -/
theorem begun_of_after? (h : r.Tracks source before current gaps rest) {t : Terminal} {ways : Ways}
    (hways : r.ways.after? t = some ways) : r.begun := by
  by_contra hbegun
  have hfinished := (h.unbegun (Bool.eq_false_iff.mpr hbegun)).2.2
  rw [hfinished] at hways
  cases hways

/-- A lexeme goes on with the current statement. -/
theorem extend (h : r.Tracks source before current gaps rest) {l : Lexeme}
    (hlexeme : LexemeAt rest l) {ways : Ways} (hways : r.ways.after? l.terminal = some ways) :
    (r.extend ways (rest.take l.length)).Tracks source before
      (current ++ gaps ++ [⟨some l.terminal, rest.take l.length⟩]) [] (rest.drop l.length) := by
  have hbegun := h.begun_of_after? hways
  obtain ⟨hends, hchain, haccepts⟩ := h.begun hbegun
  obtain ⟨hbefore, hparts⟩ := isChain_concat_iff.mp hchain
  have hterminals : terminalsOf (current ++ gaps ++ [⟨some l.terminal, rest.take l.length⟩]) =
      terminalsOf current ++ [l.terminal] := by
    rw [terminalsOf_append, terminalsOf_append, terminalsOf_gaps h.gaps_gap, terminalsOf_lexeme,
      List.append_nil]
  constructor
  case reads =>
    have hreads := h.reads.append (.lexeme hlexeme (.nil _))
    simpa only [List.append_assoc, List.append_nil] using hreads
  case before_statements => exact h.before_statements
  case chunks => exact h.chunks
  case chunk =>
    have hchunk := h.chunk
    have hpassed := h.passed
    simp only [Reader.extend, textOf_append, textOf_singleton, List.length_append]
    omega
  case passed => rfl
  case gaps_gap => exact fun p hp => nomatch hp
  case unbegun =>
    intro hunbegun
    rw [show r.begun = false from hunbegun] at hbegun
    cases hbegun
  case begun =>
    intro _
    refine ⟨⟨⟨_, _, _, rfl⟩, ?_⟩, isChain_concat_iff.mpr ⟨hbefore, fun ps hps => ?_⟩, fun us => ?_⟩
    · simp [hends.text_ne_nil]
    -- The statement has begun already, so its first lexeme is the one it was.
    · rw [List.append_assoc]
      exact (hparts ps hps).append hends.terminalsOf_ne_nil _
    · rw [hterminals, List.append_assoc, List.singleton_append, ← haccepts]
      exact Ways.accepts_of_after? hways

/-- The pieces of the current statement are one, if it can end. -/
theorem isStatement (h : r.Tracks source before current gaps rest) (hbegun : r.begun)
    (hend : r.ways.canEnd) : IsStatement current := by
  obtain ⟨hends, -, haccepts⟩ := h.begun hbegun
  have hderives := (haccepts []).mp (Ways.canEnd_iff.mp hend)
  rw [List.append_nil] at hderives
  exact ⟨hends, hderives⟩

theorem closes (h : r.Tracks source before current gaps rest) (hend : r.ways.canEnd) :
    ∃ statements, r.Closes source statements gaps rest := by
  cases hbegun : r.begun with
  | false =>
    obtain ⟨rfl, rfl, -⟩ := h.unbegun hbegun
    have hdivides : DividesInto source [] gaps rest :=
      ⟨h.reads, h.before_statements, .nil, h.gaps_gap⟩
    refine ⟨[], hdivides, ?_, fun _ hlast => nomatch hlast⟩
    simpa [closeChunk, hbegun] using h.chunks
  | true =>
    have hstatement := h.isStatement hbegun hend
    obtain ⟨-, hchain, haccepts⟩ := h.begun hbegun
    have hdivides : DividesInto source (before ++ [current]) gaps rest := by
      refine ⟨?_, fun ps hps => ?_, hchain, h.gaps_gap⟩
      · simpa using h.reads
      · rcases List.mem_append.mp hps with hps | hps
        · exact h.before_statements ps hps
        · obtain rfl := List.mem_singleton.mp hps
          exact hstatement
    refine ⟨before ++ [current], hdivides, ?_, fun last hlast us => ?_⟩
    · simp [closeChunk, hbegun, h.chunk, ← h.chunks]
    · obtain rfl : current = last := by simpa using hlast
      exact haccepts us

/-- A lexeme begins the next statement. -/
theorem begins (h : r.Tracks source before current gaps rest) {l : Lexeme}
    (hlexeme : LexemeAt rest l) (hrest : rest ≠ []) (hafter : r.ways.after? l.terminal = none)
    (hend : r.ways.canEnd) {ways : Ways}
    (hways : (Ways.ofForm (.rule .statement)).after? l.terminal = some ways) :
    ∃ statements, Tracks source
      (Reader.extend { r.closeChunk with begun := true } ways (rest.take l.length)) statements
      (gaps ++ [⟨some l.terminal, rest.take l.length⟩]) [] (rest.drop l.length) := by
  obtain ⟨statements, hclosed⟩ := h.closes hend
  have hterminals : terminalsOf (gaps ++ [⟨some l.terminal, rest.take l.length⟩]) =
      [l.terminal] := by
    rw [terminalsOf_append, terminalsOf_gaps h.gaps_gap, terminalsOf_lexeme, List.nil_append]
  refine ⟨statements, ?_⟩
  constructor
  case reads =>
    have hreads := hclosed.reads.append (.lexeme hlexeme (.nil _))
    simpa only [List.append_assoc, List.append_nil] using hreads
  case before_statements => exact hclosed.are_statements
  case chunks => exact hclosed.chunks
  case chunk =>
    have hpassed := h.passed
    simp only [Reader.extend, closeChunk, textOf_append, textOf_singleton, List.length_append]
    omega
  case passed => rfl
  case gaps_gap => exact fun p hp => nomatch hp
  case unbegun => exact fun hunbegun => nomatch hunbegun
  case begun =>
    intro _
    refine ⟨⟨⟨_, _, _, rfl⟩, ?_⟩,
      isChain_concat_iff.mpr ⟨hclosed.part, fun ps hps => ?_⟩, fun us => ?_⟩
    · have hpos := hlexeme.length_pos hways
      simp [hrest, Nat.ne_of_gt hpos]
    -- The lexeme was offered to the statement before, which could not go on with it.
    · intro t ts hts us
      rw [hterminals] at hts
      obtain ⟨rfl, -⟩ := List.cons.inj hts
      rw [← hclosed.accepts ps hps]
      exact Ways.not_accepts_of_after? hafter
    · rw [hterminals, List.singleton_append, ← Ways.accepts_ofForm_iff]
      exact Ways.accepts_of_after? hways

/-- A lexeme is taken, in the current statement or as the first one of the next. -/
theorem take? (h : r.Tracks source before current gaps rest) {l : Lexeme}
    (hlexeme : LexemeAt rest l) (hrest : rest ≠ []) (htake : r.take? l rest = some r')
    (delimiter : List Char) :
    ∃ before' current', Tracks source { r' with delimiter } before' current' []
      (rest.drop l.length) := by
  unfold Reader.take? at htake
  dsimp only at htake
  split at htake
  · rename_i ways hways
    cases htake
    exact ⟨_, _, (h.extend hlexeme hways).withDelimiter delimiter⟩
  · rename_i hafter
    split at htake
    · rename_i hend
      obtain ⟨ways, hways, rfl⟩ := Option.map_eq_some_iff.mp htake
      obtain ⟨statements, hbegins⟩ := h.begins hlexeme hrest hafter hend hways
      exact ⟨statements, _, hbegins.withDelimiter delimiter⟩
    · cases htake

end Tracks

/-- Whether what has been read up to `rest` comes apart in that way. -/
def Tracked (source : List Char) (r : Reader) (rest : List Char) : Prop :=
  ∃ before current gaps, r.Tracks source before current gaps rest

namespace Tracked

variable {source rest : List Char}

/-- A closing tag that follows may end the current statement. -/
theorem endAtTag (h : Tracked source r rest) : Tracked source (r.endAtTag rest) rest := by
  unfold Reader.endAtTag
  split
  · rename_i htag
    obtain ⟨hblanks, htag⟩ := htag
    split
    · rename_i ways hways
      obtain ⟨_, _, _, htracks⟩ := h
      have hextended := htracks.extend (.endTag htag) hways
      have hsame : r.extend ways (rest.take 0) =
          { r with ways, chunk := r.chunk + r.passed, passed := 0, interrupted := none } := by
        simp [Reader.extend, hblanks]
      rw [hsame] at hextended
      exact ⟨_, _, _, hextended⟩
    · exact h
  · exact h

theorem moves (h : Tracked source r rest) (hrest : rest ≠ []) (hmoves : r.Moves rest r' n) :
    Tracked source r' (rest.drop n) := by
  obtain ⟨_, _, _, htracks⟩ := h
  cases hmoves with
  | pass hgap hstarts hlengths => exact ⟨_, _, _, htracks.pass hgap hlengths _⟩
  | @plain n opens h =>
    have hlengths : r.passed + r.blanks + n + 0 = r.passed + r.blanks + n := Nat.add_zero _
    exact ⟨_, _, _, htracks.pass (.plain h) hlengths (some opens)⟩
  | take hspelled htake =>
    obtain ⟨before, current, hbehind⟩ := htracks.take? hspelled.lexemeAt hrest htake r'.delimiter
    exact ⟨before, current, [], hbehind⟩
  | openLines ho htake =>
    obtain ⟨before, current, hbehind⟩ := htracks.take? (.opening ho) hrest htake _
    exact ⟨before, current, [], hbehind⟩

/-- A step keeps track. -/
theorem step (hrest : rest ≠ []) (h : Tracked source r rest) (hstep : (r', n) ∈ r.steps rest) :
    Tracked source r' (rest.drop n) := by
  rcases moves_of_mem_steps hstep with hmoves | hmoves
  · exact h.moves hrest hmoves
  · exact h.endAtTag.moves hrest hmoves

end Tracked

/-! ## A whole run -/

/-- What every step keeps holds at the end of a run that reads all of the text. -/
theorem of_run {P : Reader → List Char → Prop}
    (hstep : ∀ {r r' s n}, s ≠ [] → P r s → (r', n) ∈ r.steps s → P r' (s.drop n))
    {fuel : Nat} {last : Reader} (h : P r s) (hrun : run fuel r s = .ok last) :
    P last [] ∧ last.ways.canEnd := by
  fun_induction run fuel r s with
  | case1 => cases hrun
  | case2 _ r hend =>
    cases hrun
    exact ⟨h, hend⟩
  | case3 => cases hrun
  | case4 => cases hrun
  | case5 _ r c rest r' n hsteps ih =>
    exact ih (hstep (List.cons_ne_nil c rest) h (by simp [hsteps])) hrun
  -- Of two readings, the one that counts is one of them.
  | case6 _ r c rest r' n r'' m _ hsteps last' hfirst ih =>
    cases hrun
    exact ih (hstep (List.cons_ne_nil c rest) h (by simp [hsteps])) hfirst
  | case7 _ r c rest r' n r'' m _ hsteps _ _ last' hsecond _ ih =>
    cases hrun
    exact ih (hstep (List.cons_ne_nil c rest) h (by simp [hsteps])) hsecond
  | case8 => cases hrun

/-- A reader that comes to the end has read statements, and gaps behind them. -/
theorem exists_closes_of_run {source : List Char} {plain : Nat} {opens : Bool}
    (hplain : plainLength source = (plain, opens)) {fuel : Nat} {last : Reader}
    (hrun : run fuel (start plain opens) (source.drop plain) = .ok last) :
    ∃ statements gaps, last.Closes source statements gaps [] := by
  have hstart : Tracked source (start plain opens) (source.drop plain) :=
    ⟨_, _, _, Tracks.start hplain⟩
  obtain ⟨⟨before, current, gaps, htracks⟩, hend⟩ := of_run Tracked.step hstart hrun
  obtain ⟨statements, hcloses⟩ := htracks.closes hend
  exact ⟨statements, gaps, hcloses⟩

end Reader

/-! ## The chunks -/

/-- The texts that a text is cut into at given lengths: what is left over is one more,
unless it is empty. -/
def withRemainder (texts : List (List Char)) (remainder : List Char) : List (List Char) :=
  texts ++ if remainder = [] then [] else [remainder]

theorem texts_cutChunks (lastInCode : Bool) {lengths : List (Nat × Bool)} {texts : List (List Char)}
    (hlengths : lengths.map Prod.fst = texts.map List.length) (remainder : List Char) :
    (cutChunks lastInCode lengths (texts.flatten ++ remainder)).map
      (fun chunk => chunk.text.toList) =
      withRemainder texts remainder := by
  induction texts generalizing lengths with
  | nil =>
    obtain rfl := List.map_eq_nil_iff.mp hlengths
    cases remainder <;> simp [cutChunks, withRemainder]
  | cons text rest ih =>
    obtain ⟨⟨n, inCode⟩, lengths, rfl, hlength, hrest⟩ := List.map_eq_cons_iff.mp hlengths
    obtain rfl : n = text.length := hlength
    have ih := ih hrest
    simp_all [cutChunks, withRemainder]

/-- The chunks of a template are the texts of its statements, and the text of the
gaps behind them. -/
theorem exists_dividesInto_of_templateChunks {source : List Char} {chunks : List Chunk}
    (h : templateChunks source = .ok chunks) :
    ∃ statements gaps, DividesInto source statements gaps [] ∧
      chunks.map (fun chunk => chunk.text.toList) =
        withRemainder (statements.map textOf) (textOf gaps) := by
  unfold templateChunks at h
  dsimp only at h
  split at h
  · rename_i last hrun
    cases h
    obtain ⟨statements, gaps, hcloses⟩ := Reader.exists_closes_of_run rfl hrun
    refine ⟨statements, gaps, hcloses.toDividesInto, ?_⟩
    have hlengths : last.closeChunk.chunks.reverse.map Prod.fst =
        (statements.map textOf).map List.length := by
      rw [hcloses.chunks, List.map_map]
      rfl
    have hsource : source = (statements.map textOf).flatten ++ textOf gaps := by
      have htext := hcloses.reads.text_eq
      rwa [textOf_append, textOf_flatten, List.append_nil] at htext
    have htexts := texts_cutChunks last.closeChunk.inCode hlengths (textOf gaps)
    rwa [← hsource] at htexts
  · cases h

theorem text_ne_empty_of_mem_templateChunks {source : List Char} {chunks : List Chunk}
    (h : templateChunks source = .ok chunks) {chunk : Chunk} (hchunk : chunk ∈ chunks) :
    chunk.text ≠ "" := by
  obtain ⟨statements, gaps, hdivides, htexts⟩ := exists_dividesInto_of_templateChunks h
  have hmem : chunk.text.toList ∈ withRemainder (statements.map textOf) (textOf gaps) := by
    rw [← htexts]
    exact List.mem_map_of_mem hchunk
  have hne : chunk.text.toList ≠ [] := by
    rcases List.mem_append.mp hmem with hmem | hmem
    · obtain ⟨ps, hps, htext⟩ := List.mem_map.mp hmem
      rw [← htext]
      exact (hdivides.are_statements ps hps).text_ne_nil
    · split at hmem
      · cases hmem
      · rename_i hgaps
        rwa [List.mem_singleton.mp hmem]
  intro hempty
  rw [hempty] at hne
  exact hne rfl

/-- **A template is kept as it is, and cut where its statements end.**  The document of a template
renders to the template, with any indentation.  It holds nothing but chunks of text, none of them
empty, which make up the template when joined; only an empty template has none.  The chunks are the
texts of the top-level statements, each with what stands in front of it, and the last chunk is what
follows the last statement, if anything does.  The branches of an `if`, the clauses of a `try` and
the condition behind a `do` are in the chunk of their statement. -/
theorem Document.ofTemplate_dividesInto {template : String} {doc : Document}
    (h : Document.ofTemplate template = .ok doc) :
    (∀ indent, doc.render indent = template) ∧
      (doc.statements = [] ↔ template = "") ∧
      ∃ chunks : List Chunk, doc.statements = chunks.map .verbatim ∧
        (∀ chunk ∈ chunks, chunk.text ≠ "") ∧
        String.join (chunks.map Chunk.text) = template ∧
        ∃ statements gaps, DividesInto template.toList statements gaps [] ∧
          chunks.map (fun chunk => chunk.text.toList) =
            withRemainder (statements.map textOf) (textOf gaps) ∧
          ∀ ps ∈ statements,
            (∀ t ∈ continuations, (terminalsOf ps).head? ≠ some t) ∧
            ∀ ts, terminalsOf ps = .word "do" :: ts →
              (Form.seqs [Rule.statement, "while", Rule.parenthesized, Rule.semi]).Derives ts := by
  unfold Document.ofTemplate at h
  cases hchunks : templateChunks template.toList with
  | error e =>
    rw [hchunks] at h
    cases h
  | ok chunks =>
    rw [hchunks] at h
    cases h
    have hjoin : String.join (chunks.map Chunk.text) = template := by
      rw [join_templateChunks hchunks, String.ofList_toList]
    have hnonempty : ∀ chunk ∈ chunks, chunk.text ≠ "" := fun chunk hchunk =>
      text_ne_empty_of_mem_templateChunks hchunks hchunk
    obtain ⟨statements, gaps, hdivides, htexts⟩ := exists_dividesInto_of_templateChunks hchunks
    refine ⟨fun indent => ?_, ?_, chunks, rfl, hnonempty, hjoin, statements, gaps,
      hdivides, htexts, ?_⟩
    · rw [Document.render, Rendering.foldl_write_template indent hchunks]
    · constructor
      · intro hempty
        obtain rfl := List.map_eq_nil_iff.mp hempty
        exact hjoin.symm
      · rintro rfl
        have hnone : chunks = [] := by
          cases chunks with
          | nil => rfl
          | cons chunk rest =>
            rw [List.map_cons, String.join_cons, String.append_eq_empty_iff] at hjoin
            exact absurd hjoin.1 (hnonempty chunk List.mem_cons_self)
        rw [hnone]
        rfl
    · intro ps hps
      have hstatement := hdivides.are_statements ps hps
      exact ⟨fun t ht => hstatement.head?_ne ht, fun ts hts => hstatement.derives_of_do hts⟩

theorem Document.ofTemplate_dividesInto_branches :
    let template := "<p><?php if (1): ?>\n<b><?php else: ; endif; // c\ndo {} while (1) ?>\n"
    let chunks : List Chunk :=
      [⟨"<p><?php if (1): ?>\n<b><?php else: ; endif;", true⟩, ⟨" // c\ndo {} while (1)", true⟩,
        ⟨" ?>\n", false⟩]
    Document.ofTemplate template = .ok ⟨chunks.map .verbatim⟩ ∧
      Document.render ⟨chunks.map .verbatim⟩ 2 = template ∧
      ∃ statements gaps, DividesInto template.toList statements gaps [] ∧
        chunks.map (fun chunk => chunk.text.toList) =
          withRemainder (statements.map textOf) (textOf gaps) := by
  intro template chunks
  have hchunks : templateChunks template.toList = .ok chunks := by decide +kernel
  have hdoc : Document.ofTemplate template = .ok ⟨chunks.map .verbatim⟩ := by
    rw [Document.ofTemplate, hchunks]
    rfl
  obtain ⟨hrender, -, chunks', hmap, -, -, statements, gaps, hdivides, htexts, -⟩ :=
    Document.ofTemplate_dividesInto hdoc
  obtain rfl : chunks = chunks' := List.map_injective_iff.mpr (fun _ _ => Stmt.verbatim.inj) hmap
  exact ⟨hdoc, hrender 2, statements, gaps, hdivides, htexts⟩

end Php
end SiteSettings
