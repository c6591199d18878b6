import SiteSettings.Proofs.Php.GeneratedStatements

/-!
# Statements that follow complete ones

Behind a complete statement a lexeme that the statement cannot go on with begins the next one.  From
there on the reader goes on as if nothing had been before (`Reader.Completed.steps_eq`): only the
text behind the complete statement counts towards the chunk of the next.  So a text that spells a
statement, with gaps in front of it, is one more chunk behind any complete statement (`Adjoins`),
and so is a list of such texts (`Reader.Completed.reads_all`).
-/

namespace SiteSettings
namespace Php

open Form Reader Rule

namespace Place

variable {p : Place} {lexemes : List Lexeme} {l : Lexeme}

theorem isCode_of_isFinal (h : p.isFinal) : p.isCode := by
  simp only [isFinal, isOutermost, Bool.and_eq_true, List.isEmpty_iff] at h
  simp [isCode, h.1.1]

/-- What is ruled out behind a complete statement does not begin one. -/
theorem Picks.start_picks (h : p.Picks lexemes l) (hfinal : p.isFinal) : start.Picks lexemes l := by
  obtain ⟨before, others, hlexemes, hbefore⟩ := h
  refine ⟨before, others, hlexemes, fun other hother => ?_⟩
  have hexcluded := hbefore other hother
  simp only [excludes, hfinal, Bool.not_true, Bool.false_or, Bool.and_eq_true] at hexcluded
  simp [excludes, hexcluded.2]

end Place

/-- A text begins with a lexeme that no complete statement at the place can go on with, but
that begins one. -/
structure BeginsStatement (p : Place) (s : List Char) : Prop where
  head : ∃ c tail, s = c :: tail ∧ isDense c
  lexeme : ∃ l, (∀ tight, p.Picks (codeLexemes tight s) l) ∧ p.after? l.terminal = none ∧
    ((Ways.ofForm (.rule statement)).after? l.terminal).isSome

namespace Reader

variable {r r' : Reader} {p q : Place} {s s' : List Char} {l : Lexeme} {ts : List Terminal}

/-- The reader in front of the next statement. -/
def next (r : Reader) : Reader :=
  { r.closeChunk with begun := true, ways := Ways.ofForm (.rule statement) }

/-- A reader that stands behind a complete statement, or in front of the first one. -/
structure Completed (r : Reader) (p : Place) : Prop extends r.Stands p where
  canEnd : r.ways.canEnd = true

theorem Stands.next_stands (hr : r.Stands p) : r.next.Stands .start where
  fit := Ways.statement_fit
  inCode := hr.inCode_closeChunk
  uninterrupted := nofun
  delimiter := hr.delimiter

namespace Completed

theorem isFinal (hr : r.Completed p) : p.isFinal :=
  hr.fit.isFinal hr.canEnd

theorem take?_eq (hr : r.Completed p) (hnone : p.after? l.terminal = none) (s : List Char) :
    r.take? l s = r.next.take? l s := by
  have hways : r.ways.after? l.terminal = none := hr.fit.after?_eq_none hnone
  have hend : (Ways.ofForm (.rule statement)).canEnd = false := rfl
  simp only [Reader.take?, hways, hr.canEnd, next, hend]
  cases (Ways.ofForm (.rule statement)).after? l.terminal <;> rfl

/-- The step from a complete statement into the next one. -/
theorem steps_eq (hr : r.Completed p) (hs : BeginsStatement p s) : r.steps s = r.next.steps s := by
  obtain ⟨c, tail, rfl, hc⟩ := hs.head
  obtain ⟨l, hl, hnone, hbegins⟩ := hs.lexeme
  have hnext := hr.toStands.next_stands
  have huses : r.next.uses l.terminal = true := by
    simp [uses, next, hbegins]
  have huses' : r.uses l.terminal = true := by
    simp [uses, hr.canEnd, hbegins]
  rw [steps_code (hr.toStands.textPlace?_eq_none (Place.isCode_of_isFinal hr.isFinal)),
    steps_code (hnext.textPlace?_eq_none rfl), stepCode_of_isDense hc, stepCode_of_isDense hc,
    firstUsable_eq, firstUsable_eq, hr.toStands.firstOf_of_picks (hl _) huses',
    hnext.firstOf_of_picks ((hl _).start_picks hr.isFinal) huses]
  simp only [Option.bind_some, hr.take?_eq hnone]

end Completed

/-- What `r'` knows behind one more statement, `n` characters with all that stands
in front of it. -/
structure Adds (r r' : Reader) (n : Nat) : Prop where
  chunks : r'.closeChunk.chunks = (n, true) :: r.closeChunk.chunks
  passed : r'.passed + r'.blanks = 0

/-- A text that spells a statement is read as the next one. -/
theorem Completed.reads_statement (hr : r.Completed p) (hs : BeginsStatement p s)
    (hspells : (Form.rule statement).Spells .start s q s') :
    ∃ k n r', k ≤ n ∧ s.length = n + s'.length ∧ Reads k r s r' s' ∧ r'.Completed q ∧
      r.Adds r' (r.passed + r.blanks + n) := by
  obtain ⟨ts, hts, hconsumes⟩ := hspells
  have hexpects : r.next.Expects .start (ts ++ []) := by
    refine ⟨hr.toStands.next_stands, rfl, ?_⟩
    rw [List.append_nil]
    exact Ways.accepts_ofForm_iff.mpr hts
  obtain ⟨k, n, r', hk, hn, hreads, hr', hadvances⟩ := hconsumes r.next [] hexpects
  have hend : r'.ways.canEnd = true := Ways.canEnd_iff.mpr hr'.accepts
  obtain ⟨hpassed, hblanks, -⟩ := hadvances.behind.resolve_left fun h => by
    rw [h.2] at hend
    nomatch hend
  have hreads' : Reads k r s r' s' := by
    cases hreads with
    | refl => nomatch hend
    | step hne hsteps h => exact .step hne ((hr.steps_eq hs).trans hsteps) h
  refine ⟨k, n, r', hk, hn, hreads', ⟨hr'.toStands, hend⟩, ?_, by omega⟩
  have hlength := hadvances.length
  have hchunk : r'.chunk = r.passed + r.blanks + n := by
    simp only [next, closeChunk] at hlength
    omega
  rw [closeChunk, hr'.begun, hr'.inCode, hchunk, hadvances.chunks]
  rfl

/-! ## Texts that are chunks -/

/-- Behind a complete statement at `p` the text is one more, whatever follows it, and
leads to `q`. -/
def Adjoins (p : Place) (text : List Char) (q : Place) : Prop :=
  ∀ (r : Reader) (rest : List Char), r.Completed p →
    ∃ k r', k ≤ text.length ∧ Reads k r (text ++ rest) r' rest ∧ r'.Completed q ∧
      r.Adds r' (r.passed + r.blanks + text.length)

theorem adjoins {gap body : List Char} (hgap : ∀ rest, Skips (gap ++ (body ++ rest)) (body ++ rest))
    (hbegins : ∀ rest, BeginsStatement p (body ++ rest))
    (hspells : ∀ rest, (Form.rule statement).Spells .start (body ++ rest) q rest) :
    Adjoins p (gap ++ body) q := by
  intro r rest hr
  have hplace := hr.toStands.textPlace?_eq_none (Place.isCode_of_isFinal hr.isFinal)
  obtain ⟨j, m, passed, blanks, hj, hm, hreads, hlengths⟩ := hgap rest r hplace
  have hr' : Completed { r with passed, blanks } p := ⟨hr.toStands.pass _ _, hr.canEnd⟩
  obtain ⟨k, n, r', hk, hn, hreads', hcompleted, hadds⟩ :=
    hr'.reads_statement (hbegins rest) (hspells rest)
  simp only [List.length_append] at hm hn
  have hlength : passed + blanks + n = r.passed + r.blanks + (gap ++ body).length := by
    rw [List.length_append]
    omega
  refine ⟨j + k, r', by rw [List.length_append]; omega, ?_, hcompleted, ?_⟩
  · rw [List.append_assoc]
    exact hreads.trans hreads'
  · exact ⟨hlength ▸ hadds.chunks, hadds.passed⟩

/-- Texts that are chunks behind each other are read as a chunk each. -/
theorem Completed.reads_all {P : Place → Prop} {texts : List (List Char)}
    (h : ∀ text ∈ texts, ∀ p, P p → ∃ q, P q ∧ Adjoins p text q) (rest : List Char)
    (hp : P p) (hr : r.Completed p) (hpassed : r.passed + r.blanks = 0) :
    ∃ k r' q, k ≤ texts.flatten.length ∧ Reads k r (texts.flatten ++ rest) r' rest ∧ P q ∧
      r'.Completed q ∧ r'.passed + r'.blanks = 0 ∧
      r'.closeChunk.chunks = (texts.map fun text => (text.length, true)).reverse ++
        r.closeChunk.chunks := by
  induction texts generalizing r p with
  | nil => exact ⟨0, r, p, Nat.zero_le _, .refl r rest, hp, hr, hpassed, rfl⟩
  | cons text texts ih =>
    obtain ⟨htext, htexts⟩ := List.forall_mem_cons.mp h
    obtain ⟨q, hq, hadjoins⟩ := htext p hp
    obtain ⟨j, r', hj, hreads, hr', hadds⟩ := hadjoins r (texts.flatten ++ rest) hr
    obtain ⟨k, r'', q', hk, hreads', hq', hr'', hpassed', hchunks⟩ := ih htexts hq hr' hadds.passed
    refine ⟨j + k, r'', q', ?_, ?_, hq', hr'', hpassed', ?_⟩
    · rw [List.flatten_cons, List.length_append]
      omega
    · rw [List.flatten_cons, List.append_assoc]
      exact hreads.trans hreads'
    · rw [hchunks, hadds.chunks, hpassed, Nat.zero_add]
      simp

end Reader

/-! ## How generated statements begin -/

section

variable {p : Place}

/-- Where a complete statement ends, no variable goes on with it, unless it is a label. -/
theorem beginsStatement_variable (hfinal : p.isFinal) (hlast : p.last = .ended ∨ p.last = .brace)
    (rest : List Char) : BeginsStatement p ('$' :: rest) where
  head := ⟨'$', rest, rfl, by decide⟩
  lexeme := by
    refine ⟨⟨.mark "$", 1⟩, fun tight => ?_, ?_, by decide +kernel⟩
    · have hlexemes : codeLexemes tight ('$' :: rest) = [⟨.mark "$", 1⟩] :=
        codeLexemes_alone (by simp) tight rest
      exact hlexemes ▸ p.picks_cons _ []
    · have houtermost : p.isOutermost := (Bool.and_eq_true _ _).mp hfinal |>.1
      have hkind : (Terminal.mark "$").kind = .dollar := rfl
      rcases hlast with hlast | hlast <;>
        simp [Place.after?, Place.admits, Place.afterKind?, hkind, houtermost, hlast]

/-- No complete statement goes on with this word. -/
theorem beginsStatement_if (hfinal : p.isFinal) (rest : List Char) :
    BeginsStatement p ('i' :: 'f' :: ' ' :: rest) where
  head := ⟨'i', 'f' :: ' ' :: rest, rfl, by decide⟩
  lexeme := by
    refine ⟨⟨.word "if", 2⟩, fun tight => ?_, ?_, by decide +kernel⟩
    · have hlexemes : codeLexemes tight ('i' :: 'f' :: ' ' :: rest) =
          [⟨.lowerWord "if", 2⟩, ⟨.word "if", 2⟩, ⟨.name, 2⟩] := by
        cases tight <;> rfl
      exact ⟨[⟨.lowerWord "if", 2⟩], [⟨.name, 2⟩], hlexemes,
        List.forall_mem_singleton.mpr (Place.excludes_of_unknown rfl)⟩
    · have hkind : (Terminal.word "if").kind = .ifWord := rfl
      simp only [Place.isFinal, Bool.and_eq_true, Bool.or_eq_true, decide_eq_true_eq] at hfinal
      obtain ⟨houtermost, (hlast | hlast) | hlast⟩ := hfinal <;>
        simp [Place.after?, Place.admits, Place.afterKind?, hkind, houtermost, hlast]

end

end Php
end SiteSettings
