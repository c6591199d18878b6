import Mathlib.Algebra.Ring.Nat
import SiteSettings.Proofs.Php.Continuing

/-!
# A template with more text behind it

A template that is read without going back is read in the same steps when more text follows on a new
line (`Reader.Stands.exists_reads_to_last_step`), all but the last of them.  The last step may be
one that goes on: over blanks, or over plain text that no opening tag ended so far.  Then it takes
the line ends in front of what follows along, or goes on up to the opening tag there.  Either way
the reader comes to know what it knew at the end of the template, and no more than the length of
what it passed is different (`Reader.Resumes`).
-/

namespace SiteSettings
namespace Php

open Piece

namespace Reader

variable {r r' last : Reader} {p : Place} {s t : List Char} {fuel n m : Nat}

/-! ## One step -/

theorem IsAddition.endAtTag_append (ht : IsAddition t) (h : Parted s t) :
    r.endAtTag (s ++ t) = r.endAtTag s := by
  obtain ⟨c, rest, hgap, hc⟩ := ht.afterGap
  rw [Reader.endAtTag, Reader.endAtTag, tagFollows_append h hgap hc]

/-- A step in code is the same in front of more text, unless it goes over blanks or plain
text to the end. -/
theorem Stands.stepCode_append (hr : r.Stands p) (h : Parted s t) (ht : IsAddition t)
    (hblanks : blankLength s < s.length) (hstep : r.stepCode s = some (r', n))
    (hsettle : settle? fuel r' (s.drop n) = some last)
    (hinterrupted : r'.interrupted ≠ some false) :
    r.stepCode (s ++ t) = some (r', n) ∧ n ≤ s.length := by
  have hend : r.endAtTag (s ++ t) = r.endAtTag s := ht.endAtTag_append h
  have hsame : blankLength (s ++ t) = blankLength s := runLength_append_of_lt hblanks t
  cases htag : interruption? s with
  | some tag =>
    rw [stepCode_interruption htag] at hstep
    cases hstep
    obtain ⟨n, opens⟩ := tag
    cases opens with
    | false => exact absurd rfl hinterrupted
    | true =>
      obtain ⟨htag', hle⟩ := interruption?_append h htag
      rw [stepCode_interruption htag', hend]
      exact ⟨rfl, hle⟩
  | none =>
    have htag' := interruption?_append_of_none h htag
    by_cases hzero : blankLength s = 0
    · rw [stepCode_dense htag hzero] at hstep
      obtain ⟨q, hq⟩ := hr.endAtTag s
      rw [stepCode_dense htag' (hsame.trans hzero), hend]
      exact hq.stepDense_append h hstep hsettle
    · rw [stepCode_blanks htag hzero] at hstep
      cases hstep
      rw [stepCode_blanks htag' (hsame ▸ hzero), hend, hsame]
      exact ⟨rfl, hblanks.le⟩

theorem steps_code_cons (hplace : r.ways.textPlace? = none) :
    (∃ others, r.steps s = (r', n) :: others) ↔ r.stepCode s = some (r', n) := by
  rw [steps_code hplace]
  cases r.stepCode s <;> simp

/-- So is any step. -/
theorem Stands.steps_append (hr : r.Stands p) (h : Parted s t) (ht : IsAddition t) (hs : s ≠ [])
    (hblanks : r.ways.textPlace? = none → blankLength s < s.length) {others : List (Reader × Nat)}
    (hsteps : r.steps s = (r', n) :: others) (hsettle : settle? fuel r' (s.drop n) = some last)
    (hinterrupted : r'.interrupted ≠ some false) :
    (∃ others', r.steps (s ++ t) = (r', n) :: others') ∧ n ≤ s.length := by
  cases hplace : r.ways.textPlace? with
  | none =>
    have hstep := (steps_code_cons hplace).mp ⟨others, hsteps⟩
    obtain ⟨hsame, hle⟩ := hr.stepCode_append h ht (hblanks hplace) hstep hsettle hinterrupted
    exact ⟨(steps_code_cons hplace).mpr hsame, hle⟩
  | some place =>
    rcases (steps_text_cons hplace).mp ⟨others, hsteps⟩ with hstep | ⟨⟨q, rfl⟩, hnone, hstep⟩
    · obtain ⟨hsame, hlt⟩ := hr.textLexeme_append h ht hs hstep hsettle
      exact ⟨(steps_text_cons hplace).mpr (.inl hsame), hlt.le⟩
    · obtain ⟨hnone', hsame, hle⟩ := hr.stepOpened_append h ht hplace hnone hstep hsettle
      exact ⟨(steps_text_cons hplace).mpr (.inr ⟨⟨q, rfl⟩, hnone', hsame⟩), hle⟩

/-! ## All steps but the last -/

/-- Where the reading of a text may end otherwise if more text follows: at its end, in front of
blanks up to its end, and in front of plain text that no opening tag ends. -/
inductive IsLastStep (r : Reader) : List Char → Prop
  | done : IsLastStep r []
  | blanks {s : List Char} (hs : s ≠ []) (hplace : r.ways.textPlace? = none)
      (hblanks : blankLength s = s.length) : IsLastStep r s
  | plain {s : List Char} {r' : Reader} {n : Nat} {others : List (Reader × Nat)} (hs : s ≠ [])
      (hsteps : r.steps s = (r', n) :: others) (hplain : r'.interrupted = some false) :
      IsLastStep r s

/-- A reading without going back is the same in front of more text, up to its last step. -/
theorem Stands.exists_reads_to_last_step (hr : r.Stands p) (h : s ≠ [] → Parted s t)
    (ht : IsAddition t) (hsettle : settle? fuel r s = some last) :
    ∃ k left r₁ s₁ p₁, k + left = fuel ∧ Reads k r s r₁ s₁ ∧ Reads k r (s ++ t) r₁ (s₁ ++ t) ∧
      settle? left r₁ s₁ = some last ∧ r₁.Stands p₁ ∧ (s₁ ≠ [] → Parted s₁ t) ∧
      r₁.IsLastStep s₁ := by
  induction fuel generalizing r p s with
  | zero =>
    have hs : s = [] := by
      by_contra hs
      obtain ⟨_, _, _, _, hfuel, -⟩ := settle?_cons hs hsettle
      nomatch hfuel
    subst hs
    exact ⟨0, 0, r, [], p, rfl, .refl r _, .refl r _, hsettle, hr, h, .done⟩
  | succ fuel ih =>
    by_cases hlast : r.IsLastStep s
    · exact ⟨0, fuel + 1, r, s, p, Nat.zero_add _, .refl r _, .refl r _, hsettle, hr, h, hlast⟩
    · have hs : s ≠ [] := fun hs => hlast (hs ▸ .done)
      obtain ⟨_, r', n, others, hfuel, hsteps, hsettle', -⟩ := settle?_cons hs hsettle
      cases hfuel
      have hblanks (hplace : r.ways.textPlace? = none) : blankLength s < s.length :=
        lt_of_le_of_ne (blankLength_le s) fun hlength => hlast (.blanks hs hplace hlength)
      have hinterrupted : r'.interrupted ≠ some false :=
        fun hplain => hlast (.plain hs hsteps hplain)
      obtain ⟨⟨others', hsteps'⟩, hle⟩ :=
        hr.steps_append (h hs) ht hs hblanks hsteps hsettle' hinterrupted
      obtain ⟨q, hq⟩ := hr.of_steps hsteps hinterrupted
      have hparted : s.drop n ≠ [] → Parted (s.drop n) t :=
        (h hs).of_suffix (List.drop_suffix n s)
      obtain ⟨k, left, r₁, s₁, p₁, hk, hreads, hreads', hrest⟩ := ih hq hparted hsettle'
      refine ⟨k + 1, left, r₁, s₁, p₁, by omega, .step hs hsteps hreads,
        .step (by simp [hs]) hsteps' ?_, hrest⟩
      rwa [List.drop_append_of_le_length hle]

/-! ## The last step -/

/-- Blanks in code, with something else behind them, are passed. -/
theorem reads_blanks (hplace : r.ways.textPlace? = none) {blanks rest : List Char}
    (hblanks : blankLength (blanks ++ rest) = blanks.length)
    (htag : tagFollows (blanks ++ rest) = false) :
    ∃ k, k ≤ blanks.length ∧ k ≤ 1 ∧
      Reads k r (blanks ++ rest) (r.passBlanks blanks.length) rest := by
  cases blanks with
  | nil => exact ⟨0, le_rfl, Nat.zero_le 1, .refl r rest⟩
  | cons c front =>
    have hne : blankLength (c :: front ++ rest) ≠ 0 := by
      rw [hblanks]
      exact Nat.succ_ne_zero _
    have hc : c ≠ '?' := by
      rintro rfl
      exact hne (blankLength_cons_eq_zero (by decide) _)
    have hinterruption : interruption? (c :: front ++ rest) = none := by
      simp [interruption?, beginsWith, List.isPrefixOf, hc.symm]
    have hstep := stepCode_blanks (r := r) hinterruption hne
    rw [hblanks, endAtTag_of_not_tagFollows htag] at hstep
    obtain ⟨others, hsteps⟩ := (steps_code_cons hplace).mpr hstep
    exact ⟨1, by simp, le_rfl, .step (List.cons_ne_nil _ _) hsteps (by simpa using .refl _ rest)⟩

/-- `r` has come as far as `last`, and `more` characters of a gap further. -/
structure Resumes (r last : Reader) (more : Nat) : Prop where
  ways : r.ways = last.ways
  chunks : r.closeChunk.chunks = last.closeChunk.chunks
  passed : r.passed + r.blanks = last.passed + last.blanks + more
  stands : ∃ p, r.Stands p

theorem not_mem_of_blankLength (hs : blankLength s = s.length) {c : Char}
    (hc : isCodeBlank c = false) :
    c ∉ s := by
  intro hmem
  have hall : s.takeWhile isCodeBlank = s :=
    (List.takeWhile_prefix _).eq_of_length hs
  rw [← hall] at hmem
  have hblank := List.all_eq_true.mp List.all_takeWhile c hmem
  rw [hc] at hblank
  nomatch hblank

theorem settle?_blanks (hplace : r.ways.textPlace? = none) (hs : blankLength s = s.length)
    (hsettle : settle? fuel r s = some last) :
    last = r.passBlanks s.length ∧ (s ≠ [] → 1 ≤ fuel) := by
  by_cases hne : s = []
  · subst hne
    exact ⟨(settle?_nil hsettle).1, fun h => absurd rfl h⟩
  · obtain ⟨fuel', r', n, others, rfl, hsteps, hsettle', -⟩ := settle?_cons hne hsettle
    have hstep := (steps_code_cons hplace).mp ⟨others, hsteps⟩
    have hnot := not_mem_of_blankLength hs (c := '>') (by decide)
    rw [stepCode_blanks (interruption?_of_not_mem hnot) (by simp [hs, hne]), hs,
      endAtTag_of_not_tagFollows (tagFollows_of_not_mem hnot)] at hstep
    cases hstep
    rw [List.drop_length] at hsettle'
    exact ⟨(settle?_nil hsettle').1, fun _ => Nat.le_add_left 1 fuel'⟩

/-- Blanks at the end of the template go on with the line ends behind it. -/
theorem Stands.exists_resumes_of_blanks (hr : r.Stands p) (hplace : r.ways.textPlace? = none)
    (hs : blankLength s = s.length) {c : Char} {rest : List Char}
    (hc : c = '/' ∧ rest.head? = some '*')
    (h : s ≠ [] → Parted s (List.replicate m '\n' ++ c :: rest))
    (hsettle : settle? fuel r s = some last) :
    ∃ k r', k ≤ fuel + m ∧ Reads k r (s ++ (List.replicate m '\n' ++ c :: rest)) r' (c :: rest) ∧
      r'.Resumes last m := by
  obtain ⟨rfl, hfuel⟩ := settle?_blanks hplace hs hsettle
  have hlength : blankLength (s ++ List.replicate m '\n' ++ c :: rest) =
      (s ++ List.replicate m '\n').length := by
    have hnewlines : blankLength (List.replicate m '\n' ++ c :: rest) = m :=
      runLength_newlines (by decide) (by rw [hc.1]; decide) m rest
    rw [List.append_assoc, blankLength, runLength_append_of_eq hs, List.length_append,
      List.length_replicate]
    exact congrArg _ hnewlines
  have htag : tagFollows (s ++ List.replicate m '\n' ++ c :: rest) = false := by
    obtain ⟨d, more, hgap, hd⟩ := (IsAddition.newlines m (.inl hc)).afterGap
    rw [List.append_assoc]
    by_cases hne : s = []
    · subst hne
      simp [tagFollows, hgap, beginsWith, List.isPrefixOf, hd.symm]
    · rw [tagFollows_append (h hne) hgap hd]
      exact tagFollows_of_not_mem (not_mem_of_blankLength hs (by decide))
  obtain ⟨k, hk, hone, hreads⟩ := reads_blanks hplace hlength htag
  rw [List.append_assoc] at hreads
  refine ⟨k, _, ?_, hreads, rfl, rfl, ?_, p, hr.pass _ _⟩
  · by_cases hne : s = []
    · subst hne
      simp only [List.nil_append, List.length_replicate] at hk
      omega
    · have := hfuel hne
      omega
  · simp [passBlanks, Nat.add_assoc]

/-- Where the template ends in code, the reader resumes behind the line ends that follow. -/
theorem Stands.exists_resumes_of_code (hr : r.Stands p) {c : Char} {rest : List Char}
    (hc : c = '/' ∧ rest.head? = some '*')
    (h : s ≠ [] → Parted s (List.replicate m '\n' ++ c :: rest))
    (hsettle : settle? fuel r s = some last) (hlast : last.interrupted ≠ some false) :
    ∃ k r', k ≤ fuel + m ∧ Reads k r (s ++ (List.replicate m '\n' ++ c :: rest)) r' (c :: rest) ∧
      r'.Resumes last m := by
  obtain ⟨k, left, r₁, s₁, p₁, hk, -, hreads, hsettle₁, hr₁, hparted, hstep⟩ :=
    hr.exists_reads_to_last_step h (.newlines m (.inl hc)) hsettle
  have hblanks (hplace : r₁.ways.textPlace? = none) (hs : blankLength s₁ = s₁.length) :
      ∃ k r', k ≤ fuel + m ∧ Reads k r (s ++ (List.replicate m '\n' ++ c :: rest)) r' (c :: rest) ∧
        r'.Resumes last m := by
    obtain ⟨j, r', hj, hreads', hresumes⟩ :=
      hr₁.exists_resumes_of_blanks hplace hs hc hparted hsettle₁
    exact ⟨k + j, r', by omega, hreads.trans hreads', hresumes⟩
  cases hstep with
  | done =>
    have hend := (settle?_nil hsettle₁).2
    refine hblanks ?_ rfl
    by_contra hplace
    obtain ⟨place, hplace⟩ := Option.ne_none_iff_exists'.mp hplace
    have hfinal := hr₁.fit.isFinal hend
    rw [(hr₁.of_textPlace? hplace).2] at hfinal
    nomatch hfinal
  | blanks hs hplace hlength => exact hblanks hplace hlength
  | plain hs hsteps hplain =>
    obtain ⟨_, _, _, _, -, hsteps', -, hrests⟩ := settle?_cons hs hsettle₁
    cases hsteps.symm.trans hsteps'
    have hlast' := hrests hplain
    simp only [restsUntil, Bool.and_eq_true, decide_eq_true_eq] at hlast'
    rw [hlast'.2] at hlast
    exact absurd hplain hlast

theorem Reads.one {others : List (Reader × Nat)} (hs : s ≠ [])
    (hsteps : r.steps s = (r', n) :: others) : Reads 1 r s r' (s.drop n) :=
  .step hs hsteps (.refl r' _)

theorem drop_openingTag (s : List Char) (m : Nat) (rest : List Char) :
    (s ++ openingTag m rest).drop (s.length + (m + 5)) = '\n' :: rest := by
  have hsplit : s ++ openingTag m rest =
      (s ++ List.replicate m '\n' ++ ['<', '?', 'p', 'h', 'p']) ++ '\n' :: rest := by
    simp [openingTag]
  rw [hsplit]
  exact List.drop_left' (by simp)

/-- A step that leaves the code passes a closing tag. -/
theorem Stands.interruption?_of_steps (hr : r.Stands p) {others : List (Reader × Nat)}
    (hsteps : r.steps s = (r', n) :: others) (hplain : r'.interrupted = some false) :
    r.ways.textPlace? = none ∧ interruption? s = some (n, false) ∧
      r' = (r.endAtTag s).passPlain n false := by
  cases hplace : r.ways.textPlace? with
  | some place =>
    exfalso
    rcases (steps_text_cons hplace).mp ⟨others, hsteps⟩ with hstep | ⟨-, -, hstep⟩
    · obtain ⟨l, -, htake, -⟩ := firstUsable_eq_some.mp hstep
      obtain ⟨q, hq, -⟩ := hr.take? htake
      exact hq.uninterrupted hplain
    · unfold stepOpened comment? at hstep
      simp only at hstep
      repeat' split at hstep
      all_goals cases hstep
      all_goals exact hr.uninterrupted hplain
  | none =>
    obtain ⟨q, hq⟩ := hr.endAtTag s
    have hmoves := moves_stepCode ((steps_code_cons hplace).mp ⟨others, hsteps⟩)
    cases hmoves with
    | pass => exact absurd hplain hq.uninterrupted
    | plain hinterruption =>
      cases hplain
      exact ⟨rfl, hinterruption, rfl⟩
    | take hspelled htake =>
      obtain ⟨_, hq', -⟩ := hq.take? htake
      exact absurd hplain hq'.uninterrupted
    | openLines ho htake =>
      obtain ⟨_, hq', -⟩ := hq.take? htake
      exact absurd hplain hq'.uninterrupted

/-- A reader that has come to `rest` knows how much there was before. -/
theorem Tracked.length_eq {source rest : List Char} (h : Tracked source r rest) :
    (r.chunks.map Prod.fst).sum + r.chunk + (r.passed + r.blanks) + rest.length =
      source.length := by
  obtain ⟨before, current, gaps, h⟩ := h
  have hchunks : (r.chunks.map Prod.fst).sum = (textOf before.flatten).length := by
    rw [← List.sum_reverse, ← List.map_reverse, h.chunks, textOf_flatten, List.length_flatten,
      List.map_map]
    rfl
  rw [hchunks, h.chunk, h.passed, h.reads.text_eq]
  simp only [textOf_append, List.length_append]

theorem Tracked.of_reads {source rest rest' : List Char} {k : Nat} (h : Tracked source r rest)
    (hreads : Reads k r rest r' rest') : Tracked source r' rest' := by
  induction hreads with
  | refl => exact h
  | step hs hsteps _ ih => exact ih (h.step hs (hsteps ▸ List.mem_cons_self))

/-- Where it ends in plain text, the reader resumes behind the opening tag that follows. -/
theorem Stands.exists_resumes_of_plain (hr : r.Stands p) {source rest : List Char}
    (htracked : Tracked source r s)
    (h : s ≠ [] → Parted s (openingTag m rest))
    (hsettle : settle? fuel r s = some last) (hlast : last.interrupted = some false) :
    ∃ k r', k ≤ fuel ∧ Reads k r (s ++ openingTag m rest) r' ('\n' :: rest) ∧
      r'.Resumes last (m + 5) := by
  obtain ⟨k, left, r₁, s₁, p₁, hk, hreads, hreads', hsettle₁, hr₁, hparted, hstep⟩ :=
    hr.exists_reads_to_last_step h (.newlines m (.inr rfl)) hsettle
  cases hstep with
  | done =>
    rw [(settle?_nil hsettle₁).1] at hlast
    exact absurd hlast hr₁.uninterrupted
  | blanks hs hplace hlength =>
    rw [(settle?_blanks hplace hlength hsettle₁).1] at hlast
    exact absurd hlast hr₁.uninterrupted
  | @plain _ r' n others hs hsteps hplain =>
    obtain ⟨left', _, _, _, rfl, hsteps', hsettle', hrests⟩ := settle?_cons hs hsettle₁
    cases hsteps.symm.trans hsteps'
    have hlast' := hrests hplain
    simp only [restsUntil, Bool.and_eq_true, Bool.not_eq_true', decide_eq_true_eq] at hlast'
    obtain ⟨htag, hlast'⟩ := hlast'
    obtain ⟨hplace, hinterruption, rfl⟩ := hr₁.interruption?_of_steps hsteps hplain
    have hmore := interruption?_openingTag (hparted hs) hinterruption htag
    have hstep := stepCode_interruption (r := r₁) hmore
    have hend : r₁.endAtTag (s₁ ++ openingTag m rest) = r₁.endAtTag s₁ :=
      IsAddition.endAtTag_append (.newlines m (.inr rfl)) (hparted hs)
    rw [hend] at hstep
    obtain ⟨others', hsteps'⟩ := (steps_code_cons hplace).mpr hstep
    have hreads₁ := Reads.one (by simp [hs]) hsteps'
    rw [drop_openingTag] at hreads₁
    -- the characters that are left of the template are what `last` has passed more than the step
    have hbehind := (htracked.of_reads hreads).step hs (hsteps ▸ List.mem_cons_self)
    have hlength := hbehind.length_eq
    have hlength' := (of_run Tracked.step hbehind (run_of_settle? hsettle')).1.length_eq
    obtain ⟨q, hq⟩ := hr₁.endAtTag s₁
    refine ⟨k + 1, _, by omega, hreads'.trans hreads₁, ?_, ?_, ?_, q, ?_⟩
    · rw [hlast']
      rfl
    · rw [hlast']
      rfl
    · rw [hlast'] at hlength'
      simp only [passPlain, passComment, List.length_nil, List.length_drop] at hlength hlength' ⊢
      have hle := (GapAt.plain hinterruption).length_le
      omega
    · exact ⟨hq.fit, hq.inCode, nofun, hq.delimiter⟩

/-! ## A whole template -/

/-- A reading without going back ends in code unless it ends in plain text. -/
theorem Stands.of_settle? (hr : r.Stands p) (hsettle : settle? fuel r s = some last)
    (hlast : last.interrupted ≠ some false) : ∃ q, last.Stands q := by
  induction fuel generalizing r p s with
  | zero =>
    by_cases hs : s = []
    · subst hs
      exact ⟨p, (settle?_nil hsettle).1 ▸ hr⟩
    · obtain ⟨_, _, _, _, hfuel, -⟩ := settle?_cons hs hsettle
      nomatch hfuel
  | succ fuel ih =>
    by_cases hs : s = []
    · subst hs
      exact ⟨p, (settle?_nil hsettle).1 ▸ hr⟩
    · obtain ⟨_, r', n, others, hfuel, hsteps, hsettle', hrests⟩ := settle?_cons hs hsettle
      cases hfuel
      have hinterrupted : r'.interrupted ≠ some false := by
        intro hplain
        have hlast' := hrests hplain
        simp only [restsUntil, Bool.and_eq_true, decide_eq_true_eq] at hlast'
        rw [hlast'.2] at hlast
        exact hlast hplain
      obtain ⟨q, hq⟩ := hr.of_steps hsteps hinterrupted
      exact ih hq hsettle'

theorem plainLength_eq_length (h : plainLength s = (n, false)) : n = s.length := by
  induction s generalizing n with
  | nil => cases h; rfl
  | cons c s ih =>
    rw [plainLength] at h
    split at h
    · cases h
    · obtain ⟨hn, hopens⟩ := Prod.mk.inj h
      have hlength := ih (n := (plainLength s).1) (by rw [← hopens])
      rw [← hn, hlength, List.length_cons]

/-- A text is read up to `rest` in at most `limit` steps, each the first one there is, and the
reader has then come `more` characters further than `last`. -/
def ReadsOn (source rest : List Char) (limit : Nat) (last : Reader) (more : Nat) : Prop :=
  ∃ plain k r, plainLength source = (plain, true) ∧ k ≤ limit ∧
    Reads k (start plain true) (source.drop plain) r rest ∧ r.Resumes last more

section

variable {source rest : List Char} {plain : Nat} {opens : Bool}

/-- A reading that begins outside code is at its end. -/
theorem settle?_start_plain (hplain : plainLength source = (plain, false))
    (hsettle : settle? fuel (start plain false) (source.drop plain) = some last) :
    last = start source.length false := by
  have hlength := plainLength_eq_length hplain
  rw [hlength, List.drop_length] at hsettle
  rw [(settle?_nil hsettle).1, ← hlength]

/-- Where a template ends in code, the reader goes on behind the line ends that follow. -/
theorem readsOn_of_code (hplain : plainLength source = (plain, opens))
    (hsettle : settle? source.length (start plain opens) (source.drop plain) = some last)
    (hcode : last.closeChunk.inCode = true) {c : Char} (hc : c = '/' ∧ rest.head? = some '*')
    (h : Parted source (List.replicate m '\n' ++ c :: rest)) :
    ReadsOn (source ++ (List.replicate m '\n' ++ c :: rest)) (c :: rest) (source.length + m)
      last m := by
  cases opens with
  | false =>
    rw [settle?_start_plain hplain hsettle] at hcode
    nomatch hcode
  | true =>
    have hlast : last.interrupted ≠ some false := by
      intro hlast
      simp [closeChunk, hlast] at hcode
    obtain ⟨hplain', hle⟩ := plainLength_append_of_opens h hplain
    have hparted := h.of_suffix (List.drop_suffix plain source)
    obtain ⟨k, r', hk, hreads, hresumes⟩ :=
      (start_stands plain).exists_resumes_of_code hc hparted hsettle hlast
    refine ⟨plain, k, r', hplain', hk, ?_, hresumes⟩
    rwa [List.drop_append_of_le_length hle]

/-- Where it ends in plain text, the reader goes on behind the opening tag that follows. -/
theorem readsOn_of_plain (hplain : plainLength source = (plain, opens))
    (hsettle : settle? source.length (start plain opens) (source.drop plain) = some last)
    (hcode : last.closeChunk.inCode = false)
    (h : source ≠ [] → Parted source (openingTag m rest)) :
    ReadsOn (source ++ openingTag m rest) ('\n' :: rest) source.length last (m + 5) := by
  cases opens with
  | false =>
    have hlast := settle?_start_plain hplain hsettle
    have hlength := (plainLength_append h (congrArg Prod.snd hplain)).1
    subst hlast
    refine ⟨_, 0, start (source.length + (m + 5)) true, hlength, Nat.zero_le _, ?_,
      rfl, rfl, rfl, _, start_stands _⟩
    rw [drop_openingTag]
    exact .refl _ _
  | true =>
    have hlast : last.interrupted = some false := by
      by_contra hlast
      obtain ⟨q, hq⟩ := (start_stands plain).of_settle? hsettle hlast
      rw [hq.inCode_closeChunk] at hcode
      nomatch hcode
    have hne : source ≠ [] := by
      rintro rfl
      nomatch hplain
    obtain ⟨hplain', hle⟩ := plainLength_append_of_opens (h hne) hplain
    have hparted := (h hne).of_suffix (List.drop_suffix plain source)
    obtain ⟨k, r', hk, hreads, hresumes⟩ := (start_stands plain).exists_resumes_of_plain
      ⟨_, _, _, Tracks.start hplain⟩ hparted hsettle hlast
    refine ⟨plain, k, r', hplain', hk, ?_, hresumes⟩
    rwa [List.drop_append_of_le_length hle]

end

end Reader

/-- Whether a template is read without going back, and nothing behind the last closing tag, if no
opening tag follows it, looks like an opening tag.

Left out are templates with a heredoc whose closing delimiter has code behind it on its line, as in
`EOT . 'y';` or in `[<<<EOT` to `EOT];`.  There the reader first takes the line for text of the
literal, and goes back to close the literal in it when no later line does.  Such a template can be
accepted, and so can its settings file, but what is generated takes part in that: a line of it that
begins with the delimiter, as one with an integer key may, closes the literal instead. -/
def isSettled (template : String) : Bool :=
  let source := template.toList
  let (plain, opens) := plainLength source
  (Reader.settle? source.length (Reader.start plain opens) (source.drop plain)).isSome

end Php
end SiteSettings
