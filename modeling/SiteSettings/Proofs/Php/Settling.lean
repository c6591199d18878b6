import SiteSettings.Proofs.Php.Lexemes
import SiteSettings.Proofs.Php.PartingLiterals
import SiteSettings.Proofs.Php.Statements

/-!
# Reading without going back

Where more than one step is possible the reader tries them in their order, and goes back if the
first one leads nowhere.  That is possible in literals alone.  A template is read without going back
if the first step there is leads to the end each time (`Reader.settle?`), so every step of such a
reading is known.  One thing more is asked: behind plain text that no opening tag ends there are
only blanks and comments, and no opening tag in those.

A reader stands at a place if its ways fit the place and it has not left the code (`Reader.Stands`).
What the terminals so far rule out, it cannot take; and each step leads to a place again
(`Reader.Stands.of_steps`).
-/

namespace SiteSettings
namespace Php

deriving instance DecidableEq for Ways, Reader

namespace Reader

/-! ## Reading without going back -/

/-- Whether a template that `last` has read is, from `r` on, nothing but blanks and comments without
an opening tag in them. -/
def restsUntil (r last : Reader) (s : List Char) : Bool :=
  !(plainLength s).2 && last = { r with passed := last.passed, blanks := last.blanks }

/-- Reads to the end, always with the first step there is.  Behind plain text that no opening tag
ends the reading has to rest. -/
def settle? : Nat → Reader → List Char → Option Reader
  | _, r, [] => if r.ways.canEnd then some r else none
  | 0, _, _ :: _ => none
  | fuel + 1, r, c :: rest =>
    match r.steps (c :: rest) with
    | [] => none
    | (r', n) :: _ =>
      (settle? fuel r' ((c :: rest).drop n)).filter fun last =>
        r'.interrupted ≠ some false || r'.restsUntil last ((c :: rest).drop n)

/-- A reading of `k` steps, each the first one there is. -/
inductive Reads : Nat → Reader → List Char → Reader → List Char → Prop
  | refl (r : Reader) (s : List Char) : Reads 0 r s r s
  | step {k n : Nat} {r r' r'' : Reader} {s s'' : List Char} {others : List (Reader × Nat)}
      (hs : s ≠ []) (hsteps : r.steps s = (r', n) :: others) (h : Reads k r' (s.drop n) r'' s'') :
      Reads (k + 1) r s r'' s''

theorem Reads.trans {j k : Nat} {r r' r'' : Reader} {s s' s'' : List Char} (h : Reads j r s r' s')
    (h' : Reads k r' s' r'' s'') : Reads (j + k) r s r'' s'' := by
  induction h with
  | refl => rwa [Nat.zero_add]
  | step hs hsteps _ ih =>
    rw [Nat.add_right_comm]
    exact .step hs hsteps (ih h')

theorem run_of_steps {fuel n : Nat} {r r' last : Reader} {s : List Char}
    {others : List (Reader × Nat)} (hs : s ≠ []) (hsteps : r.steps s = (r', n) :: others)
    (h : run fuel r' (s.drop n) = .ok last) : run (fuel + 1) r s = .ok last := by
  cases s with
  | nil => exact absurd rfl hs
  | cons c rest =>
    rw [run, hsteps]
    cases others with
    | nil => exact h
    | cons other others => simp only [h]

/-- Where a reading leads to what is accepted, so is what it began with. -/
theorem Reads.run {k fuel : Nat} {r r' last : Reader} {s s' : List Char} (h : Reads k r s r' s')
    (hrun : Reader.run fuel r' s' = .ok last) : Reader.run (fuel + k) r s = .ok last := by
  induction h with
  | refl => exact hrun
  | step hs hsteps _ ih => exact run_of_steps hs hsteps (ih hrun)

theorem settle?_cons {fuel : Nat} {r last : Reader} {s : List Char} (hs : s ≠ [])
    (h : settle? fuel r s = some last) :
    ∃ fuel' r' n others, fuel = fuel' + 1 ∧ r.steps s = (r', n) :: others ∧
      settle? fuel' r' (s.drop n) = some last ∧
      (r'.interrupted = some false → r'.restsUntil last (s.drop n) = true) := by
  cases s with
  | nil => exact absurd rfl hs
  | cons c rest =>
    cases fuel with
    | zero => nomatch h
    | succ fuel =>
      rw [settle?] at h
      split at h
      · nomatch h
      · rename_i r' n others hsteps
        obtain ⟨hsettle, hrests⟩ := Option.filter_eq_some_iff.mp h
        refine ⟨fuel, r', n, others, rfl, hsteps, hsettle, fun hinterrupted => ?_⟩
        simpa [hinterrupted] using hrests

theorem settle?_nil {fuel : Nat} {r last : Reader} (h : settle? fuel r [] = some last) :
    last = r ∧ r.ways.canEnd = true := by
  unfold settle? at h
  split at h
  · rename_i hend
    cases h
    exact ⟨rfl, hend⟩
  · nomatch h

theorem run_nil (fuel : Nat) (r : Reader) :
    run (fuel + 1) r [] = if r.ways.canEnd then .ok r else .error [] :=
  rfl

/-- What is read without going back is accepted. -/
theorem run_of_settle? {fuel : Nat} {r last : Reader} {s : List Char}
    (h : settle? fuel r s = some last) : run (fuel + 1) r s = .ok last := by
  induction fuel generalizing r s with
  | zero =>
    cases s with
    | nil =>
      obtain ⟨rfl, hend⟩ := settle?_nil h
      rw [run_nil, if_pos hend]
    | cons c rest => nomatch h
  | succ fuel ih =>
    by_cases hs : s = []
    · subst hs
      obtain ⟨rfl, hend⟩ := settle?_nil h
      rw [run_nil, if_pos hend]
    · obtain ⟨fuel', r', n, others, hfuel, hsteps, hsettle, -⟩ := settle?_cons hs h
      cases hfuel
      exact run_of_steps hs hsteps (ih hsettle)

end Reader

/-! ## Where a reader stands -/

namespace Reader

/-- The reader stands in code, or in a literal, at a place. -/
structure Stands (r : Reader) (p : Place) : Prop where
  fit : r.ways.Fit p
  inCode : r.inCode = true
  uninterrupted : r.interrupted ≠ some false
  delimiter : ∀ c ∈ r.delimiter, isDelimiterChar c = true

theorem take?_cases {r r' : Reader} {l : Lexeme} {s : List Char} (h : r.take? l s = some r') :
    (∃ ways, r.ways.after? l.terminal = some ways ∧ r' = r.extend ways (s.take l.length)) ∨
      (r.ways.after? l.terminal = none ∧ r.ways.canEnd = true ∧
        ∃ ways, (Ways.ofForm (.rule .statement)).after? l.terminal = some ways ∧
          r' = { r.closeChunk with begun := true }.extend ways (s.take l.length)) := by
  unfold Reader.take? at h
  cases hafter : r.ways.after? l.terminal with
  | some ways =>
    rw [hafter] at h
    exact .inl ⟨ways, rfl, (Option.some.inj h).symm⟩
  | none =>
    rw [hafter] at h
    by_cases hend : r.ways.canEnd
    · simp only [if_pos hend, Option.map_eq_some_iff] at h
      obtain ⟨ways, hways, hr'⟩ := h
      exact .inr ⟨rfl, hend, ways, hways, hr'.symm⟩
    · simp [hend] at h

theorem Stands.inCode_closeChunk {r : Reader} {p : Place} (h : r.Stands p) :
    r.closeChunk.inCode = true := by
  show r.interrupted.getD r.inCode = true
  have hinterrupted := h.uninterrupted
  rw [h.inCode]
  cases hr : r.interrupted with
  | none => rfl
  | some opens =>
    cases opens
    · exact absurd hr hinterrupted
    · rfl

/-- What is taken leads to a place behind it, in the current statement or the next one. -/
theorem Stands.take? {r r' : Reader} {p : Place} {l : Lexeme} {s : List Char} (h : r.Stands p)
    (htake : r.take? l s = some r') :
    ∃ q, r'.Stands q ∧ ∃ p₀ : Place, p₀.after? l.terminal = some q := by
  rcases take?_cases htake with ⟨ways, hways, rfl⟩ | ⟨-, -, ways, hways, rfl⟩
  · obtain ⟨q, hq, hfit⟩ := h.fit.after hways
    exact ⟨q, ⟨hfit, h.inCode, by simp [extend], h.delimiter⟩, p, hq⟩
  · obtain ⟨q, hq, hfit⟩ := Ways.statement_fit.after hways
    exact ⟨q, ⟨hfit, h.inCode_closeChunk, by simp [extend], h.delimiter⟩, .start, hq⟩

theorem Stands.isFinal_of_take? {r r' : Reader} {p : Place} {l : Lexeme} {s : List Char}
    (h : r.Stands p) (htake : r.take? l s = some r') (hend : r'.ways.canEnd = true) :
    l.terminal.kind.canFinish = true := by
  obtain ⟨q, hq, p₀, hafter⟩ := h.take? htake
  exact Place.canFinish_of_isFinal hafter (hq.fit.isFinal hend)

theorem Stands.endAtTag {r : Reader} {p : Place} (h : r.Stands p) (s : List Char) :
    ∃ q, (r.endAtTag s).Stands q := by
  unfold Reader.endAtTag
  split
  · split
    · next ways hways =>
      obtain ⟨q, hq, hfit⟩ := h.fit.after hways
      exact ⟨q, hfit, h.inCode, by simp, h.delimiter⟩
    · exact ⟨p, h⟩
  · exact ⟨p, h⟩

theorem start_stands (plain : Nat) : (start plain true).Stands ⟨.ended, [], false⟩ where
  fit := Ways.finished_fit
  inCode := rfl
  uninterrupted := nofun
  delimiter := nofun

end Reader

/-! ## What a step does -/

/-- Nothing that stands in a literal completes a text. -/
theorem canFinish_of_mem_textLexemes {place : TextPlace} {delimiter s : List Char} {l : Lexeme}
    (hl : l ∈ textLexemes place delimiter s) : l.terminal.kind.canFinish = false := by
  rcases cases_of_mem_textLexemes hl with ⟨q, blanks, hclosing⟩ | ⟨q, behind, hpart⟩ | hline
  · rw [terminal_of_closing? hclosing]
    rfl
  · unfold part? textEnd? at hpart
    simp only at hpart
    repeat' split at hpart
    all_goals first | (cases hpart; rfl) | cases hpart
  · rw [hline]
    rfl

namespace Reader

theorem SpelledAt.head?_of_canFinish {s : List Char} {l : Lexeme} (h : SpelledAt s l)
    (hfinish : l.terminal.kind.canFinish = true) :
    l.length = 1 ∧ ∃ c ∈ [';', '\x7d', ':'], s.head? = some c := by
  rcases h with ⟨tight, hl⟩ | ⟨place, delimiter, hl⟩
  · exact Php.head?_of_canFinish hl hfinish
  · rw [canFinish_of_mem_textLexemes hl] at hfinish
    nomatch hfinish

/-- Whether a terminal can be used, in the current statement or as the first one of the next. -/
def uses (r : Reader) (t : Terminal) : Bool :=
  (r.ways.after? t).isSome ||
    (r.ways.canEnd && ((Ways.ofForm (.rule .statement)).after? t).isSome)

theorem take?_isSome (r : Reader) (l : Lexeme) (s : List Char) :
    (r.take? l s).isSome = r.uses l.terminal := by
  unfold Reader.take? uses
  cases r.ways.after? l.terminal with
  | some ways => rfl
  | none => cases r.ways.canEnd <;> simp

theorem firstUsable_eq (r : Reader) (s : List Char) (lexemes : List Lexeme) :
    r.firstUsable s lexemes =
      (firstOf r.uses lexemes).bind fun l => (r.take? l s).map (·, l.length) := by
  induction lexemes with
  | nil => rfl
  | cons l rest ih =>
    have hsome := r.take?_isSome l s
    rw [firstUsable, firstOf, List.find?_cons]
    cases htake : r.take? l s with
    | some r' =>
      rw [htake] at hsome
      rw [← hsome]
      simp [htake]
    | none =>
      rw [htake] at hsome
      rw [← hsome]
      exact ih

theorem firstUsable_eq_some {r r' : Reader} {s : List Char} {lexemes : List Lexeme} {n : Nat} :
    r.firstUsable s lexemes = some (r', n) ↔
      ∃ l, firstOf r.uses lexemes = some l ∧ r.take? l s = some r' ∧ n = l.length := by
  rw [firstUsable_eq]
  simp only [Option.bind_eq_some_iff, Option.map_eq_some_iff, Prod.mk.injEq]
  constructor
  · rintro ⟨l, hl, r'', htake, rfl, rfl⟩
    exact ⟨l, hl, htake, rfl⟩
  · rintro ⟨l, hl, htake, rfl⟩
    exact ⟨l, hl, r', htake, rfl, rfl⟩

theorem head?_filterMap_firstUsable (r : Reader) (s : List Char) (lexemes : List Lexeme) :
    (lexemes.filterMap fun l => r.firstUsable s [l]).head? = r.firstUsable s lexemes := by
  induction lexemes with
  | nil => rfl
  | cons l rest ih =>
    rw [List.filterMap_cons]
    cases htake : r.take? l s with
    | some r' => simp [firstUsable, htake]
    | none => simpa [firstUsable, htake] using ih

/-- The first step in a literal is the first lexeme that can be used or, behind an opening, blanks
or a comment. -/
theorem steps_text_cons {r r' : Reader} {place : TextPlace} {s : List Char} {n : Nat}
    (hplace : r.ways.textPlace? = some place) :
    (∃ others, r.steps s = (r', n) :: others) ↔
      r.firstUsable s (textLexemes place r.delimiter s) = some (r', n) ∨
        (∃ q, place = .opened q) ∧ r.firstUsable s (textLexemes place r.delimiter s) = none ∧
          r.stepOpened s = some (r', n) := by
  have hhead := r.head?_filterMap_firstUsable s (textLexemes place r.delimiter s)
  rw [← hhead]
  unfold steps
  rw [hplace]
  simp only
  generalize (textLexemes place r.delimiter s).filterMap (fun l => r.firstUsable s [l]) = found
  cases found with
  | nil =>
    cases place with
    | opened q =>
      cases hopened : r.stepOpened s <;> simp
    | _ => simp
  | cons first others =>
    cases place <;> simp

theorem steps_code {r : Reader} {s : List Char} (hplace : r.ways.textPlace? = none) :
    r.steps s = (r.stepCode s).toList := by
  unfold steps
  rw [hplace]

/-- A step in code where no tag and no blank stands. -/
def stepDense (r : Reader) (s : List Char) : Option (Reader × Nat) :=
  if beginsWith "#[" s then
    (r.firstUsable s (codeLexemes (r.blanks == 0) s)).or (r.comment? s)
  else (r.comment? s).or ((r.openLines? s).or (r.firstUsable s (codeLexemes (r.blanks == 0) s)))

theorem stepCode_interruption {r : Reader} {s : List Char} {tag : Nat × Bool}
    (h : interruption? s = some tag) :
    r.stepCode s = some ((r.endAtTag s).passPlain tag.1 tag.2, tag.1) := by
  simp [stepCode, h]

theorem stepCode_blanks {r : Reader} {s : List Char} (h : interruption? s = none)
    (hblanks : blankLength s ≠ 0) :
    r.stepCode s = some ((r.endAtTag s).passBlanks (blankLength s), blankLength s) := by
  simp [stepCode, h, hblanks]

theorem stepCode_dense {r : Reader} {s : List Char} (h : interruption? s = none)
    (hblanks : blankLength s = 0) : r.stepCode s = (r.endAtTag s).stepDense s := by
  simp only [stepCode, h, hblanks, ne_eq, not_true_eq_false, if_false, stepDense]
  split <;> simp

theorem Stands.pass {r : Reader} {p : Place} (hr : r.Stands p) (passed blanks : Nat) :
    Stands { r with passed, blanks } p :=
  ⟨hr.fit, hr.inCode, hr.uninterrupted, hr.delimiter⟩

theorem Moves.stands {r r' : Reader} {p : Place} {s : List Char} {n : Nat} (h : r.Moves s r' n)
    (hr : r.Stands p) (hinterrupted : r'.interrupted ≠ some false) : ∃ q, r'.Stands q := by
  cases h with
  | pass hgap hstarts hlengths => exact ⟨p, hr.pass _ _⟩
  | plain hinterruption => exact ⟨p, hr.fit, hr.inCode, hinterrupted, hr.delimiter⟩
  | take hspelled htake =>
    obtain ⟨q, hq, -⟩ := hr.take? htake
    exact ⟨q, hq⟩
  | openLines ho htake =>
    obtain ⟨q, hq, -⟩ := hr.take? htake
    refine ⟨q, hq.fit, hq.inCode, hq.uninterrupted, ?_⟩
    rw [lineOpening?_eq] at ho
    split at ho
    · rw [(openingAt?_eq_some ho).1]
      exact fun c hc => List.all_eq_true.mp List.all_takeWhile c hc
    · nomatch ho

/-- A step leads to a place behind it, unless it leaves the code. -/
theorem Stands.of_steps {r r' : Reader} {p : Place} {s : List Char} {n : Nat}
    {others : List (Reader × Nat)} (hr : r.Stands p) (h : r.steps s = (r', n) :: others)
    (hinterrupted : r'.interrupted ≠ some false) : ∃ q, r'.Stands q := by
  obtain ⟨p', hr'⟩ := hr.endAtTag s
  rcases moves_of_mem_steps (h ▸ List.mem_cons_self) with hmoves | hmoves
  · exact hmoves.stands hr hinterrupted
  · exact hmoves.stands hr' hinterrupted

end Reader

end Php
end SiteSettings
