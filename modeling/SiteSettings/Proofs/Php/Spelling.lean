import SiteSettings.Proofs.Php.Resuming
import SiteSettings.Proofs.Php.Words

/-!
# Text that spells what a form derives

`Form.Spells f p s q s'` says that the text `s` is read as something the form derives, up to `s'`,
wherever a reader stands at the place `p` and can go on with what the form derives; it then stands
at `q`.  The notion follows the forms: a text of a sequence is a text of its first part with a text
of the rest behind it, and so on.  Gaps may stand in front of anything that is not empty.

What is left are single lexemes.  The reader takes the first lexeme that it can use, and it cannot
use one that its place excludes (`Place.Picks`).
-/

namespace SiteSettings
namespace Php

open Form

/-! ## The lexeme that is taken -/

namespace Place

/-- Whether a terminal is ruled out, both in the current statement and as the first
one of the next. -/
def excludes (p : Place) (t : Terminal) : Bool :=
  (p.after? t).isNone && (!p.isFinal || (start.after? t).isNone)

/-- The first of some lexemes that is not ruled out. -/
def Picks (p : Place) (lexemes : List Lexeme) (l : Lexeme) : Prop :=
  ∃ before others, lexemes = before ++ l :: others ∧ ∀ other ∈ before, p.excludes other.terminal

/-- Whether the innermost thing that is open is not a literal. -/
def isCode (p : Place) : Bool :=
  match p.frames with
  | .literal _ :: _ => false
  | _ => true

variable {p : Place} {lexemes : List Lexeme} {l : Lexeme}

theorem picks_cons (p : Place) (l : Lexeme) (others : List Lexeme) : p.Picks (l :: others) l :=
  ⟨[], others, rfl, nofun⟩

theorem picks_of_mem (hl : l ∈ lexemes)
    (h : ∀ other ∈ lexemes, other = l ∨ p.excludes other.terminal) :
    p.Picks lexemes l := by
  obtain ⟨before, others, rfl, hnot⟩ := List.eq_append_cons_of_mem hl
  refine ⟨before, others, rfl, fun other hother => ?_⟩
  refine (h other (by simp [hother])).resolve_left ?_
  rintro rfl
  exact hnot hother

end Place

namespace Reader

variable {r r' : Reader} {p q : Place} {s s' s'' : List Char} {l : Lexeme} {t : Terminal}
  {ts us : List Terminal}

theorem Stands.uses_eq_false_of_excludes (hr : r.Stands p) (h : p.excludes t) :
    r.uses t = false := by
  simp only [Place.excludes, Bool.and_eq_true, Option.isNone_iff_eq_none, Bool.or_eq_true,
    Bool.not_eq_true'] at h
  obtain ⟨hafter, hstart⟩ := h
  rcases hstart with hfinal | hnone
  · exact hr.uses_eq_false hafter hfinal
  · rw [uses, hr.fit.after?_eq_none hafter, Ways.statement_fit.after?_eq_none hnone]
    simp

theorem Stands.firstOf_of_picks (hr : r.Stands p) {lexemes : List Lexeme} (hl : p.Picks lexemes l)
    (huses : r.uses l.terminal = true) : firstOf r.uses lexemes = some l := by
  obtain ⟨before, others, rfl, hbefore⟩ := hl
  rw [firstOf, List.find?_append, List.find?_cons, huses]
  have hnone : before.find? (fun l => r.uses l.terminal) = none :=
    List.find?_eq_none.mpr fun other hother => by
      rw [hr.uses_eq_false_of_excludes (hbefore other hother)]
      exact Bool.false_ne_true
  rw [hnone]
  rfl

/-- A character that begins no gap, no tag and no literal of several lines. -/
def isDense (c : Char) : Bool :=
  !(isCodeBlank c || c ∈ ['?', '/', '#', '<'])

theorem isDense_iff {c : Char} :
    isDense c ↔ isCodeBlank c = false ∧ c ≠ '?' ∧ c ≠ '/' ∧ c ≠ '#' ∧ c ≠ '<' := by
  simp [isDense]

theorem tagFollows_of_isDense {c : Char} (hc : isDense c) (rest : List Char) :
    tagFollows (c :: rest) = false := by
  obtain ⟨hblank, hquestion, hslash, -, -⟩ := isDense_iff.mp hc
  have hplain : isPlainBlank c = false := by
    rw [isCodeBlank] at hblank
    simp_all
  simp [tagFollows, afterGap, hplain, hslash, beginsWith, List.isPrefixOf, Ne.symm hquestion]

theorem stepCode_of_isDense {c : Char} (hc : isDense c) (rest : List Char) :
    r.stepCode (c :: rest) =
      r.firstUsable (c :: rest) (codeLexemes (r.blanks == 0) (c :: rest)) := by
  obtain ⟨hblank, hquestion, hslash, hhash, hangle⟩ := isDense_iff.mp hc
  have hinterruption : interruption? (c :: rest) = none := by
    simp [interruption?, beginsWith, List.isPrefixOf, Ne.symm hquestion]
  have hbegins : beginsWith "#[" (c :: rest) = false := by
    simp [beginsWith, List.isPrefixOf, Ne.symm hhash]
  have hopening : r.openLines? (c :: rest) = none := by
    simp [openLines?, lineOpening?, beginsWith, List.isPrefixOf, Ne.symm hangle]
  rw [stepCode_dense hinterruption (blankLength_cons_eq_zero hblank rest),
    endAtTag_of_not_tagFollows (tagFollows_of_isDense hc rest), stepDense, hbegins, hopening]
  simp [comment?, commentLength_eq_zero hslash hhash rest]

/-- In code the lexeme that the place picks is taken. -/
theorem Stands.reads_lexeme (hr : r.Stands p) (hplace : r.ways.textPlace? = none) {c : Char}
    {rest : List Char} (hc : isDense c)
    (hl : ∀ tight, p.Picks (codeLexemes tight (c :: rest)) l)
    (htake : r.take? l (c :: rest) = some r') :
    Reads 1 r (c :: rest) r' ((c :: rest).drop l.length) := by
  have huses : r.uses l.terminal = true := by
    rw [← r.take?_isSome l (c :: rest), htake]
    rfl
  have hfirst := hr.firstOf_of_picks (hl (r.blanks == 0)) huses
  obtain ⟨others, hsteps⟩ := (steps_code_cons hplace).mpr <|
    (stepCode_of_isDense hc rest).trans (firstUsable_eq_some.mpr ⟨l, hfirst, htake, rfl⟩)
  exact Reads.one (List.cons_ne_nil c rest) hsteps

/-! ## Going on in a statement -/

/-- A statement has begun and can go on with the terminals. -/
structure Expects (r : Reader) (p : Place) (ts : List Terminal) : Prop extends r.Stands p where
  begun : r.begun = true
  accepts : r.ways.Accepts ts

/-- What `r'` knows that has gone on from `r` over some terminals, `n` characters in all. -/
structure Advances (r r' : Reader) (ts : List Terminal) (n : Nat) : Prop where
  chunks : r'.chunks = r.chunks
  length : r'.chunk + r'.passed + r'.blanks = r.chunk + r.passed + r.blanks + n
  behind : ts = [] ∧ r' = r ∨ r'.passed = 0 ∧ r'.blanks = 0 ∧ r'.interrupted = none

/-- Wherever the terminals can follow at `p`, the text is read as them, up to `s'`, and
leads to `q`. -/
def Consumes (p : Place) (s : List Char) (ts : List Terminal) (q : Place) (s' : List Char) : Prop :=
  ∀ (r : Reader) (us : List Terminal), r.Expects p (ts ++ us) →
    ∃ k n r', k ≤ n ∧ s.length = n + s'.length ∧ Reads k r s r' s' ∧ r'.Expects q us ∧
      r.Advances r' ts n

theorem Consumes.nil (p : Place) (s : List Char) : Consumes p s [] p s := fun r _ hr =>
  ⟨0, 0, r, le_rfl, (Nat.zero_add _).symm, .refl r s, hr, rfl, rfl, .inl ⟨rfl, rfl⟩⟩

theorem Advances.trans {r₁ r₂ r₃ : Reader} {m n : Nat} (h : r₁.Advances r₂ ts m)
    (h' : r₂.Advances r₃ us n) : r₁.Advances r₃ (ts ++ us) (m + n) where
  chunks := h'.chunks.trans h.chunks
  length := by rw [h'.length, h.length, Nat.add_assoc]
  behind := by
    rcases h'.behind with ⟨rfl, rfl⟩ | h'
    · rw [List.append_nil]
      exact h.behind
    · exact .inr h'

theorem Consumes.trans {p' : Place} (h : Consumes p s ts q s') (h' : Consumes q s' us p' s'') :
    Consumes p s (ts ++ us) p' s'' := by
  intro r vs hr
  rw [List.append_assoc] at hr
  obtain ⟨k, n, r', hk, hn, hreads, hr', hadvances⟩ := h r _ hr
  obtain ⟨j, m, r'', hj, hm, hreads', hr'', hadvances'⟩ := h' r' vs hr'
  exact ⟨k + j, n + m, r'', by omega, by omega, hreads.trans hreads', hr'',
    hadvances.trans hadvances'⟩

/-- A terminal that can follow is taken. -/
theorem Expects.take? (hr : r.Expects p (t :: us)) {n : Nat} (hn : n ≤ s.length) :
    ∃ ways q, r.ways.after? t = some ways ∧ r.take? ⟨t, n⟩ s = some (r.extend ways (s.take n)) ∧
      p.after? t = some q ∧ (r.extend ways (s.take n)).Expects q us ∧
      r.Advances (r.extend ways (s.take n)) [t] n := by
  cases hways : r.ways.after? t with
  | none => exact absurd hr.accepts (Ways.not_accepts_of_after? hways)
  | some ways =>
    obtain ⟨q, hq, hfit⟩ := hr.fit.after hways
    refine ⟨ways, q, rfl, by simp [Reader.take?, hways], hq,
      ⟨⟨hfit, hr.inCode, nofun, hr.delimiter⟩,
      hr.begun, (Ways.accepts_of_after? hways).mpr hr.accepts⟩, rfl, ?_, .inr ⟨rfl, rfl, rfl⟩⟩
    simp [extend, List.length_take, Nat.min_eq_left hn]

theorem Stands.textPlace?_eq_none (hr : r.Stands p) (hp : p.isCode) : r.ways.textPlace? = none := by
  cases hplace : r.ways.textPlace? with
  | none => rfl
  | some place =>
    have hframe := (hr.fit.of_textPlace? hplace).1
    unfold Place.isCode at hp
    cases hframes : p.frames with
    | nil => simp [hframes] at hframe
    | cons f frames =>
      rw [hframes] at hp hframe
      cases hframe
      nomatch hp

/-- A lexeme that the place picks is read. -/
theorem Consumes.lexeme (hp : p.isCode) {c : Char} {w rest : List Char} (hc : isDense c)
    (hq : p.after? t = some q)
    (hl : ∀ tight, p.Picks (codeLexemes tight (c :: (w ++ rest))) ⟨t, w.length + 1⟩) :
    Consumes p (c :: (w ++ rest)) [t] q rest := by
  intro r us hr
  have hn : w.length + 1 ≤ (c :: (w ++ rest)).length := by simp
  obtain ⟨ways, q', hways, htake, hq', hr', hadvances⟩ := hr.take? hn
  cases hq.symm.trans hq'
  have hreads := hr.toStands.reads_lexeme (hr.toStands.textPlace?_eq_none hp) hc hl htake
  have hdrop : (c :: (w ++ rest)).drop (w.length + 1) = rest := by simp
  rw [hdrop] at hreads
  exact ⟨1, w.length + 1, _, by omega, by simp; omega, hreads, hr', hadvances⟩

/-! ## Gaps -/

/-- Blanks and comments are passed, up to `s'`. -/
def Skips (s s' : List Char) : Prop :=
  ∀ r : Reader, r.ways.textPlace? = none →
    ∃ k n passed blanks, k ≤ n ∧ s.length = n + s'.length ∧
      Reads k r s { r with passed, blanks } s' ∧
      passed + blanks = r.passed + r.blanks + n

theorem Skips.trans (h : Skips s s') (h' : Skips s' s'') : Skips s s'' := by
  intro r hplace
  obtain ⟨k, n, passed, blanks, hk, hn, hreads, hlengths⟩ := h r hplace
  obtain ⟨j, m, passed', blanks', hj, hm, hreads', hlengths'⟩ := h' { r with passed, blanks } hplace
  simp only at hlengths'
  exact ⟨k + j, n + m, passed', blanks', by omega, by omega, hreads.trans hreads', by omega⟩

theorem Skips.blanks {blanks rest : List Char} (hblanks : ∀ c ∈ blanks, isPlainBlank c)
    (hrest : blankLength rest = 0) (htag : tagFollows rest = false) :
    Skips (blanks ++ rest) rest := by
  have hlength : blankLength (blanks ++ rest) = blanks.length := by
    have hcode : ∀ c ∈ blanks, isCodeBlank c = true :=
      fun c hc => by simp [isCodeBlank, hblanks c hc]
    have htake : (blanks ++ rest).takeWhile isCodeBlank = blanks ++ rest.takeWhile isCodeBlank :=
      List.takeWhile_append_of_pos hcode
    rw [blankLength, runLength, htake, List.length_append]
    exact congrArg _ hrest
  have htag' : tagFollows (blanks ++ rest) = false := by
    rw [← htag]
    clear hlength
    induction blanks with
    | nil => rfl
    | cons c blanks ih =>
      obtain ⟨hc, hblanks⟩ := List.forall_mem_cons.mp hblanks
      rw [← ih hblanks, tagFollows, tagFollows, List.cons_append, afterGap]
      simp [hc]
  intro r hplace
  obtain ⟨k, hk, -, hreads⟩ := reads_blanks hplace hlength htag'
  exact ⟨k, blanks.length, r.passed, _, hk, List.length_append, hreads, (Nat.add_assoc ..).symm⟩

/-- Blanks in front of something dense. -/
theorem Skips.blanks_dense {blanks rest : List Char} (hblanks : ∀ c ∈ blanks, isPlainBlank c)
    {c : Char} (hc : isDense c) : Skips (blanks ++ c :: rest) (c :: rest) :=
  .blanks hblanks (blankLength_cons_eq_zero (isDense_iff.mp hc).1 rest)
    (tagFollows_of_isDense hc rest)

theorem Skips.comment {more rest : List Char}
    (hlength : commentLength ('/' :: '*' :: (more ++ rest)) = more.length + 2) :
    Skips ('/' :: '*' :: (more ++ rest)) rest := by
  intro r hplace
  have hne : commentLength ('/' :: '*' :: (more ++ rest)) ≠ 0 := by
    rw [hlength]; exact Nat.succ_ne_zero _
  have hstep : r.stepCode ('/' :: '*' :: (more ++ rest)) =
      some (r.passComment (more.length + 2), more.length + 2) := by
    have hblanks : blankLength ('/' :: '*' :: (more ++ rest)) = 0 :=
      blankLength_cons_eq_zero (by decide) _
    rw [stepCode_dense rfl hblanks, endAtTag_of_not_tagFollows rfl, stepDense, comment?, if_neg hne,
      hlength]
    rfl
  obtain ⟨others, hsteps⟩ := (steps_code_cons hplace).mpr hstep
  have hreads := Reads.one (List.cons_ne_nil _ _) hsteps
  have hdrop : ('/' :: '*' :: (more ++ rest)).drop (more.length + 2) = rest := by simp
  rw [hdrop] at hreads
  exact ⟨1, more.length + 2, _, _, by omega, by simp; omega, hreads, Nat.add_zero _⟩

/-- Blanks in front of a block comment. -/
theorem Skips.blanks_slash {blanks : List Char} (hblanks : ∀ c ∈ blanks, isPlainBlank c)
    (rest : List Char) :
    Skips (blanks ++ '/' :: '*' :: rest) ('/' :: '*' :: rest) :=
  .blanks hblanks (blankLength_cons_eq_zero (by decide) _) rfl

/-- A gap may stand in front of a terminal. -/
theorem Consumes.skip (hp : p.isCode) (hs : Skips s s') (h : Consumes p s' ts q s'')
    (hts : ts ≠ []) :
    Consumes p s ts q s'' := by
  intro r us hr
  obtain ⟨k, n, passed, blanks, hk, hn, hreads, hlengths⟩ :=
    hs r (hr.toStands.textPlace?_eq_none hp)
  have hr' : Expects { r with passed, blanks } p (ts ++ us) :=
    ⟨hr.toStands.pass _ _, hr.begun, hr.accepts⟩
  obtain ⟨j, m, r', hj, hm, hreads', hr'', hadvances⟩ := h _ us hr'
  refine ⟨k + j, n + m, r', by omega, by omega, hreads.trans hreads', hr'',
    hadvances.chunks, ?_, ?_⟩
  · have hlength := hadvances.length
    simp only at hlength
    omega
  · exact .inr (hadvances.behind.resolve_left fun h => hts h.1)

/-! ## Quoted texts -/

/-- Text of a single-quoted literal follows in every way. -/
def InQuotes (r : Reader) : Prop :=
  ∃ below, r.ways.choices = [.over (.rule (.text (.inside .single))) below]

theorem InQuotes.textPlace?_eq (h : r.InQuotes) : r.ways.textPlace? = some (.inside .single) := by
  obtain ⟨below, h⟩ := h
  rw [Ways.textPlace?, h]

/-- What stands in quotes is taken if it can follow. -/
theorem Expects.reads_part (hr : r.Expects p (t :: us)) (hquotes : r.InQuotes) {n : Nat}
    (hpart : part? .single false s = some ⟨t, n⟩) (hs : s ≠ []) (hn : n ≤ s.length) :
    ∃ ways q, r.ways.after? t = some ways ∧ Reads 1 r s (r.extend ways (s.take n)) (s.drop n) ∧
      p.after? t = some q ∧ (r.extend ways (s.take n)).Expects q us ∧
      r.Advances (r.extend ways (s.take n)) [t] n := by
  obtain ⟨ways, q, hways, htake, hq, hr', hadvances⟩ := hr.take? hn
  have hlexemes : textLexemes (.inside .single) r.delimiter s = [⟨t, n⟩] := by
    simp [textLexemes, partOfLine?, hpart]
  have husable : r.firstUsable s (textLexemes (.inside .single) r.delimiter s) =
      some (r.extend ways (s.take n), n) := by
    rw [hlexemes, firstUsable, htake]
  obtain ⟨others, hsteps⟩ := (steps_text_cons hquotes.textPlace?_eq).mpr (.inl husable)
  exact ⟨ways, q, hways, Reads.one hs hsteps, hq, hr', hadvances⟩

theorem InQuotes.after_content (h : r.InQuotes) {ways : Ways}
    (hways : r.ways.after? .content = some ways) (text : List Char) :
    (r.extend ways text).InQuotes := by
  obtain ⟨below, h⟩ := h
  refine ⟨below, ?_⟩
  have hafter : Stack.allAfter (Rule.after .content ruleDepth) .content
      [.over (.rule (.text (.inside .single))) below] =
      [.over (.rule (.text (.inside .single))) below] := rfl
  rw [Ways.after?, h, hafter] at hways
  cases hways
  rfl

theorem length_escapeQuotes_ne_zero {text : List Char} (hne : text ≠ []) :
    (escapeQuotes text).length ≠ 0 := by
  cases text with
  | nil => exact absurd rfl hne
  | cons c text =>
    unfold escapeQuotes
    split <;> simp

theorem plainTextLength_escapeQuotes (text rest : List Char) :
    plainTextLength .single 0 (escapeQuotes text ++ '\'' :: rest) = (escapeQuotes text).length := by
  induction text with
  | nil => rfl
  | cons c text ih =>
    unfold escapeQuotes
    split
    · next hc =>
      have hends : endsText .single '\\' = false := rfl
      have hescape :
          plainEscape .single '\\' (c :: (escapeQuotes text ++ '\'' :: rest)) = true := by
        rcases hc with rfl | rfl <;> rfl
      rw [List.cons_append, List.cons_append, plainTextLength_cons, hends, hescape]
      simp [plainTextLength, ih]
    · next hc =>
      simp only [not_or] at hc
      have hends : endsText .single c = false := by
        simp [endsText, closingChar?, Ne.symm hc.2]
      have hescape : plainEscape .single c (escapeQuotes text ++ '\'' :: rest) = false := by
        simp [plainEscape, hc.1]
      rw [List.cons_append, plainTextLength_cons, hends, hescape]
      simp [ih]

theorem Expects.reads_closing (hr : r.Expects p (.closing .single :: us)) (hquotes : r.InQuotes)
    (rest : List Char) :
    ∃ r' q, Reads 1 r ('\'' :: rest) r' rest ∧ p.after? (.closing .single) = some q ∧
      r'.Expects q us ∧
      r.Advances r' [.closing .single] 1 := by
  have hpart : part? .single false ('\'' :: rest) = some ⟨.closing .single, 1⟩ := rfl
  obtain ⟨ways, q, -, hreads, hq, hr', hadvances⟩ :=
    hr.reads_part hquotes hpart (List.cons_ne_nil _ _) (Nat.le_add_left 1 _)
  exact ⟨_, q, hreads, hq, hr', hadvances⟩

theorem Expects.reads_content (hr : r.Expects p (.content :: us)) (hquotes : r.InQuotes)
    {text : List Char} (hne : text ≠ []) (rest : List Char) :
    ∃ r', Reads 1 r (escapeQuotes text ++ '\'' :: rest) r' ('\'' :: rest) ∧ r'.InQuotes ∧
      r'.Expects (p.become .other) us ∧ r.Advances r' [.content] (escapeQuotes text).length := by
  have hlength := plainTextLength_escapeQuotes text rest
  have hescaped := length_escapeQuotes_ne_zero hne
  have hpart : part? .single false (escapeQuotes text ++ '\'' :: rest) =
      some ⟨.content, (escapeQuotes text).length⟩ := by
    simp [part?, contentLength, holdsCode, hlength, hescaped]
  obtain ⟨ways, q, hways, hreads, hq, hr', hadvances⟩ :=
    hr.reads_part hquotes hpart (by simp) (by simp)
  have hplace : q = p.become .other := by
    unfold Place.after? at hq
    split at hq
    · cases hq
      rfl
    · cases hq
  rw [List.drop_left] at hreads
  exact ⟨_, hreads, hquotes.after_content hways _, hplace ▸ hr', hadvances⟩

/-- The terminals of a quoted text. -/
def quotedTerminals (text : List Char) : List Terminal :=
  .opening .single :: ((if text = [] then [] else [.content]) ++ [.closing .single])

/-- A quoted text is read up to its own end. -/
theorem Consumes.quoted (hp : p.isCode)
    (hq : p.after? (.opening .single) = some (p.enter (.literal .single))) (text rest : List Char) :
    Consumes p ('\'' :: (escapeQuotes text ++ '\'' :: rest)) (quotedTerminals text)
      (p.become .other)
      rest := by
  intro r us hr
  have hlexeme (tight : Bool) :
      p.Picks (codeLexemes tight ('\'' :: (escapeQuotes text ++ '\'' :: rest)))
        ⟨.opening .single, 1⟩ := by
    have hlexemes : codeLexemes tight ('\'' :: (escapeQuotes text ++ '\'' :: rest)) =
        [⟨.opening .single, 1⟩] := by cases tight <;> rfl
    exact hlexemes ▸ p.picks_cons _ []
  obtain ⟨ways, q, hways, htake, hq', hr₁, hadvances₁⟩ :=
    Expects.take? (s := '\'' :: (escapeQuotes text ++ '\'' :: rest)) hr (Nat.le_add_left 1 _)
  cases hq.symm.trans hq'
  have hreads₁ :=
    hr.toStands.reads_lexeme (hr.toStands.textPlace?_eq_none hp) (by decide) hlexeme htake
  have hquotes₁ : (r.extend ways (['\''])).InQuotes := hr.fit.choices_of_opening hways
  by_cases htext : text = []
  · subst htext
    obtain ⟨r₂, q, hreads₂, hq, hr₂, hadvances₂⟩ := hr₁.reads_closing hquotes₁ rest
    cases hq
    exact ⟨1 + 1, 1 + 1, r₂, le_rfl, by simp [escapeQuotes]; omega, hreads₁.trans hreads₂, hr₂,
      hadvances₁.trans hadvances₂⟩
  · have hr₁ := hr₁
    rw [if_neg htext] at hr₁
    obtain ⟨r₂, hreads₂, hquotes₂, hr₂, hadvances₂⟩ := hr₁.reads_content hquotes₁ htext rest
    obtain ⟨r₃, q, hreads₃, hq, hr₃, hadvances₃⟩ := hr₂.reads_closing hquotes₂ rest
    cases hq
    have hadvances := hadvances₁.trans (hadvances₂.trans hadvances₃)
    have hterminals : quotedTerminals text =
        [.opening .single] ++ ([.content] ++ [.closing .single]) := by
      simp [quotedTerminals, htext]
    refine ⟨1 + (1 + 1), _, r₃, ?_, ?_, hreads₁.trans (hreads₂.trans hreads₃), hr₃,
      hterminals ▸ hadvances⟩
    · have hpos := length_escapeQuotes_ne_zero htext
      omega
    · simp only [List.length_cons, List.length_append]
      omega

end Reader

/-! ## Forms -/

namespace Form

open Reader

/-- Wherever something the form derives can follow at `p`, the text is read as such, up to `s'`, and
leads to `q`. -/
def Spells (f : Form) (p : Place) (s : List Char) (q : Place) (s' : List Char) : Prop :=
  ∃ ts, f.Derives ts ∧ Consumes p s ts q s'

namespace Spells

variable {f g : Form} {p q p' : Place} {s s' s'' : List Char}

theorem token {t : Terminal} (h : Consumes p s [t] q s') : (Form.token t).Spells p s q s' :=
  ⟨[t], .token t, h⟩

theorem rule {r : Rule} (h : r.body.Spells p s q s') : (Form.rule r).Spells p s q s' := by
  obtain ⟨ts, hts, h⟩ := h
  exact ⟨ts, .rule hts, h⟩

theorem seq (hf : f.Spells p s q s') (hg : g.Spells q s' p' s'') :
    (Form.seq f g).Spells p s p' s'' := by
  obtain ⟨ts, hts, hf⟩ := hf
  obtain ⟨us, hus, hg⟩ := hg
  exact ⟨ts ++ us, .seq hts hus, hf.trans hg⟩

theorem one (h : f.Spells p s q s') : (Form.alt f g).Spells p s q s' := by
  obtain ⟨ts, hts, h⟩ := h
  exact ⟨ts, .altOne hts, h⟩

theorem other (h : g.Spells p s q s') : (Form.alt f g).Spells p s q s' := by
  obtain ⟨ts, hts, h⟩ := h
  exact ⟨ts, .altOther hts, h⟩

theorem empty : Form.empty.Spells p s p s :=
  ⟨[], .empty, .nil p s⟩

theorem manyNil : (Form.many f).Spells p s p s :=
  ⟨[], .manyNil f, .nil p s⟩

theorem manyCons (hf : f.Spells p s q s') (hmore : (Form.many f).Spells q s' p' s'') :
    (Form.many f).Spells p s p' s'' := by
  obtain ⟨ts, hts, hf⟩ := hf
  obtain ⟨us, hus, hmore⟩ := hmore
  exact ⟨ts ++ us, .manyCons hts hus, hf.trans hmore⟩

/-- A gap may stand in front. -/
theorem skip (hp : p.isCode) (hs : Skips s s') (hf : f.nullable = false) (h : f.Spells p s' q s'') :
    f.Spells p s q s'' := by
  obtain ⟨ts, hts, h⟩ := h
  refine ⟨ts, hts, h.skip hp hs fun hnil => ?_⟩
  rw [hts.nullable_of_eq_nil hnil] at hf
  nomatch hf

end Spells
end Form

end Php
end SiteSettings
