import Mathlib.Data.List.TakeWhile
import SiteSettings.Text.Blank
import SiteSettings.Toml.Document

/-!
# What the readers of a document leave

Every reader takes its part from the front of the text and answers what is left, so the rest is an
end of the text (`isSuffix_of_value?`).  Keys and headers do more: they stay on their line
(`SameLine`).  Values may not, as arrays and multi-line strings hold line ends.  After each of them
the line has to end, and `endOfLine?` goes to the beginning of the next one.
-/

namespace SiteSettings
namespace Toml

/-! ## Within a line -/

/-- Whether `rest` is what is left of `s` and no line end stands before it. -/
def SameLine (s rest : List Char) : Prop :=
  ∃ front, s = front ++ rest ∧ '\n' ∉ front

theorem drop_length_takeWhile (p : Char → Bool) (s : List Char) :
    s.drop (s.takeWhile p).length = s.dropWhile p :=
  calc s.drop (s.takeWhile p).length
      = (s.takeWhile p ++ s.dropWhile p).drop (s.takeWhile p).length := by
        rw [List.takeWhile_append_dropWhile]
    _ = s.dropWhile p := List.drop_left

namespace SameLine

variable {s middle rest : List Char}

theorem refl (s : List Char) : SameLine s s :=
  ⟨[], rfl, List.not_mem_nil⟩

theorem trans (h : SameLine s middle) (h' : SameLine middle rest) : SameLine s rest := by
  obtain ⟨front, rfl, hfront⟩ := h
  obtain ⟨back, rfl, hback⟩ := h'
  exact ⟨front ++ back, (List.append_assoc front back rest).symm,
    fun hmem => (List.mem_append.mp hmem).elim hfront hback⟩

theorem cons {c : Char} (hc : c ≠ '\n') (h : SameLine s rest) : SameLine (c :: s) rest := by
  obtain ⟨front, rfl, hfront⟩ := h
  exact ⟨c :: front, rfl, fun hmem => (List.mem_cons.mp hmem).elim (fun he => hc he.symm) hfront⟩

theorem isSuffix (h : SameLine s rest) : rest <:+ s := by
  obtain ⟨front, rfl, -⟩ := h
  exact List.suffix_append front rest

theorem dropWhile {p : Char → Bool} (hp : p '\n' = false) (s : List Char) :
    SameLine s (s.dropWhile p) := by
  refine ⟨s.takeWhile p, (List.takeWhile_append_dropWhile).symm, fun hmem => ?_⟩
  have htrue := List.mem_takeWhile_imp hmem
  rw [hp] at htrue
  cases htrue

theorem drop_takeWhile {p : Char → Bool} (hp : p '\n' = false) (s : List Char) :
    SameLine s (s.drop (s.takeWhile p).length) := by
  rw [drop_length_takeWhile]
  exact dropWhile hp s

end SameLine

variable {s rest : List Char}

theorem isBlank_of_isSpace {c : Char} (h : isSpace c) : Text.isBlank c := by
  simp only [isSpace, Bool.or_eq_true, beq_iff_eq] at h
  rcases h with rfl | rfl <;> rfl

theorem takeWhile_append_skipSpaces (s : List Char) : s.takeWhile isSpace ++ skipSpaces s = s :=
  List.takeWhile_append_dropWhile

theorem sameLine_skipSpaces (s : List Char) : SameLine s (skipSpaces s) :=
  .dropWhile (by decide) s

theorem sameLine_skipComment (s : List Char) : SameLine s (skipComment s) := by
  unfold skipComment
  split
  · exact (SameLine.dropWhile (by decide) _).cons (by decide)
  · exact .refl _

theorem eq_cons_of_afterChar? {c : Char} (h : afterChar? c s = some rest) : s = c :: rest := by
  unfold afterChar? at h
  split at h
  · cases h
  · split at h
    · rename_i hd
      cases h
      rw [hd]
    · cases h

theorem sameLine_of_afterChar? {c : Char} (hc : c ≠ '\n') (h : afterChar? c s = some rest) :
    SameLine s rest := by
  rw [eq_cons_of_afterChar? h]
  exact (SameLine.refl rest).cons hc

/-! ### The first line -/

def firstLine (s : List Char) : List Char :=
  s.takeWhile (· ≠ '\n')

theorem firstLine_append {front : List Char} (h : '\n' ∉ front) (s : List Char) :
    firstLine (front ++ s) = front ++ firstLine s :=
  List.takeWhile_append_of_pos fun _ hc => decide_eq_true fun heq => h (heq ▸ hc)

theorem firstLine_cons {c : Char} (h : c ≠ '\n') (s : List Char) :
    firstLine (c :: s) = c :: firstLine s :=
  List.takeWhile_cons_of_pos (decide_eq_true h)

theorem firstLine_newline (s : List Char) : firstLine ('\n' :: s) = [] :=
  List.takeWhile_cons_of_neg (by decide)

theorem firstLine_append_newline (s rest : List Char) :
    firstLine (s ++ '\n' :: rest) = firstLine s := by
  induction s with
  | nil => exact firstLine_newline rest
  | cons c s ih =>
    by_cases hc : c = '\n'
    · rw [hc, List.cons_append, firstLine_newline, firstLine_newline]
    · rw [List.cons_append, firstLine_cons hc, firstLine_cons hc, ih]

theorem firstLine_of_notMem (h : '\n' ∉ s) : firstLine s = s :=
  calc firstLine s
      = firstLine (s ++ []) := by rw [List.append_nil]
    _ = s ++ firstLine [] := firstLine_append h []
    _ = s := List.append_nil s

theorem exists_eq_firstLine_append (s : List Char) :
    ∃ more, s = firstLine s ++ more ∧ ∀ c ∈ more.head?, c = '\n' := by
  refine ⟨s.dropWhile (· ≠ '\n'), List.takeWhile_append_dropWhile.symm, fun c hc => ?_⟩
  have hstop := List.head?_dropWhile_not (· ≠ '\n') s
  rw [Option.mem_def.mp hc] at hstop
  simpa using hstop

theorem firstLine_eq_append (s : List Char) :
    firstLine s = s.takeWhile isSpace ++ firstLine (skipSpaces s) := by
  have hline : '\n' ∉ s.takeWhile isSpace :=
    fun hmem => absurd (List.mem_takeWhile_imp hmem) (by decide)
  rw [← firstLine_append hline, takeWhile_append_skipSpaces]

/-! ### Strings and keys -/

theorem ne_newline_of_hexDigit? {c : Char} {n : Nat} (h : hexDigit? c = some n) : c ≠ '\n' := by
  rintro rfl
  cases h

theorem newline_notMem_of_hexNumber? {digits : List Char} {n : Nat}
    (h : hexNumber? digits = some n) :
    '\n' ∉ digits := by
  have hall {digits : List Char} {start n : Nat}
      (h : digits.foldlM (fun n c => (hexDigit? c).map (16 * n + ·)) start = some n) :
      ∀ c ∈ digits, c ≠ '\n' := by
    induction digits generalizing start with
    | nil => exact List.forall_mem_nil _
    | cons c rest ih =>
      rw [List.foldlM_cons] at h
      obtain ⟨next, hnext, h⟩ := Option.bind_eq_some_iff.mp h
      obtain ⟨digit, hdigit, -⟩ := Option.map_eq_some_iff.mp hnext
      exact List.forall_mem_cons.mpr ⟨ne_newline_of_hexDigit? hdigit, ih h⟩
  exact fun hmem => hall h '\n' hmem rfl

theorem sameLine_of_codePoint? {count : Nat} {c : Char} (h : codePoint? count s = some (c, rest)) :
    SameLine s rest := by
  unfold codePoint? at h
  dsimp only at h
  split at h
  · rename_i n hdigits
    obtain ⟨_, h⟩ := Option.dite_none_right_eq_some.mp h
    cases h
    exact ⟨s.take count, (List.take_append_drop count s).symm, newline_notMem_of_hexNumber? hdigits⟩
  · cases h

theorem sameLine_of_escape? {c : Char} (h : escape? s = some (c, rest)) : SameLine s rest := by
  unfold escape? at h
  split at h
  case h_8 | h_9 => exact (sameLine_of_codePoint? h).cons (by decide)
  case h_10 => cases h
  all_goals
    cases h
    exact (SameLine.refl _).cons (by decide)

theorem ne_newline_of_isPrintable {c : Char} (h : isPrintable c) : c ≠ '\n' := by
  rintro rfl
  exact absurd h (by decide)

theorem sameLine_of_basicString? {fuel : Nat} {text : List Char}
    (h : basicString? fuel s = some (text, rest)) : SameLine s rest := by
  induction fuel generalizing s text with
  | zero => cases h
  | succ fuel ih =>
    cases s with
    | nil => cases h
    | cons c after =>
      rw [basicString?] at h
      split at h
      · rename_i hquote
        cases h
        exact (SameLine.refl _).cons (by rw [hquote]; decide)
      · split at h
        · rename_i hbackslash
          obtain ⟨⟨_, escaped⟩, hescape, h⟩ := Option.bind_eq_some_iff.mp h
          obtain ⟨⟨_, _⟩, hmore, h⟩ := Option.bind_eq_some_iff.mp h
          cases h
          exact ((sameLine_of_escape? hescape).trans (ih hmore)).cons (by rw [hbackslash]; decide)
        · split at h
          · rename_i hprintable
            obtain ⟨⟨_, _⟩, hmore, h⟩ := Option.bind_eq_some_iff.mp h
            cases h
            exact (ih hmore).cons (ne_newline_of_isPrintable hprintable)
          · cases h

theorem sameLine_of_literalString? {text : List Char} (h : literalString? s = some (text, rest)) :
    SameLine s rest := by
  induction s generalizing text with
  | nil => cases h
  | cons c after ih =>
    rw [literalString?] at h
    split at h
    · rename_i hquote
      cases h
      exact (SameLine.refl _).cons (by rw [hquote]; decide)
    · split at h
      · rename_i hprintable
        obtain ⟨⟨_, _⟩, hmore, h⟩ := Option.bind_eq_some_iff.mp h
        cases h
        exact (ih hmore).cons (ne_newline_of_isPrintable hprintable)
      · cases h

theorem sameLine_of_keyPart? {part : String} (h : keyPart? s = some (part, rest)) :
    SameLine s rest := by
  unfold keyPart? at h
  split at h
  · obtain ⟨⟨_, _⟩, hstring, h⟩ := Option.map_eq_some_iff.mp h
    cases h
    exact (sameLine_of_basicString? hstring).cons (by decide)
  · obtain ⟨⟨_, _⟩, hstring, h⟩ := Option.map_eq_some_iff.mp h
    cases h
    exact (sameLine_of_literalString? hstring).cons (by decide)
  · dsimp only at h
    split at h
    · cases h
    · cases h
      exact .drop_takeWhile (by decide) _

theorem sameLine_of_keyParts? {fuel : Nat} {parts : List String}
    (h : keyParts? fuel s = some (parts, rest)) : SameLine s rest := by
  induction fuel generalizing s parts with
  | zero => cases h
  | succ fuel ih =>
    rw [keyParts?] at h
    obtain ⟨⟨part, after⟩, hpart, h⟩ := Option.bind_eq_some_iff.mp h
    have hfront := (sameLine_skipSpaces s).trans
      ((sameLine_of_keyPart? hpart).trans (sameLine_skipSpaces after))
    dsimp only at h
    split at h
    · rename_i more hmore
      obtain ⟨⟨_, _⟩, hparts, h⟩ := Option.bind_eq_some_iff.mp h
      cases h
      rw [hmore] at hfront
      exact hfront.trans ((ih hparts).cons (by decide))
    · cases h
      exact hfront

theorem sameLine_of_dottedKey? {key : List String} (h : dottedKey? s = some (key, rest)) :
    SameLine s rest :=
  sameLine_of_keyParts? h

theorem sameLine_of_header? {line : Line} (h : header? s = some (line, rest)) :
    SameLine s rest := by
  unfold header? at h
  split at h
  · obtain ⟨⟨_, _⟩, hkey, h⟩ := Option.bind_eq_some_iff.mp h
    obtain ⟨_, hfirst, h⟩ := Option.bind_eq_some_iff.mp h
    obtain ⟨_, hsecond, h⟩ := Option.bind_eq_some_iff.mp h
    cases h
    exact ((sameLine_of_dottedKey? hkey).trans ((sameLine_of_afterChar? (by decide) hfirst).trans
      (sameLine_of_afterChar? (by decide) hsecond))).cons (by decide)
  · obtain ⟨⟨_, _⟩, hkey, h⟩ := Option.bind_eq_some_iff.mp h
    obtain ⟨_, hclose, h⟩ := Option.bind_eq_some_iff.mp h
    cases h
    exact (sameLine_of_dottedKey? hkey).trans (sameLine_of_afterChar? (by decide) hclose)

/-! ## Beyond the end of a line -/

theorem isSuffix_of_lineEnd? (h : lineEnd? s = some rest) : rest <:+ s := by
  unfold lineEnd? at h
  split at h
  · cases h
    exact List.suffix_cons _ _
  · cases h
    exact (List.suffix_cons _ _).trans (List.suffix_cons _ _)
  · cases h

theorem isSuffix_skipLines (fuel : Nat) (s : List Char) : skipLines fuel s <:+ s := by
  induction fuel generalizing s with
  | zero => exact List.suffix_refl s
  | succ fuel ih =>
    rw [skipLines]
    split
    · rename_i after hend
      have hfront := ((sameLine_skipSpaces s).trans (sameLine_skipComment _)).isSuffix
      exact (ih after).trans ((isSuffix_of_lineEnd? hend).trans hfront)
    · exact (sameLine_skipSpaces s).isSuffix

theorem isSuffix_of_closingQuotes? {quote : Char} {text : List Char}
    (h : closingQuotes? quote s = some (text, rest)) : rest <:+ s := by
  simp only [closingQuotes?] at h
  split at h
  · cases h
  · cases h
    exact List.drop_suffix _ s

theorem isSuffix_of_lineContinuation? (h : lineContinuation? s = some rest) : rest <:+ s := by
  have hskip (fuel : Nat) (s : List Char) : lineContinuation?.skip fuel s <:+ s := by
    induction fuel generalizing s with
    | zero => exact List.suffix_refl s
    | succ fuel ih =>
      rw [lineContinuation?.skip]
      split
      · rename_i after hend
        exact (ih after).trans ((isSuffix_of_lineEnd? hend).trans (sameLine_skipSpaces s).isSuffix)
      · exact (sameLine_skipSpaces s).isSuffix
  obtain ⟨after, hend, rfl⟩ := Option.map_eq_some_iff.mp h
  exact (hskip _ after).trans ((isSuffix_of_lineEnd? hend).trans (sameLine_skipSpaces s).isSuffix)

theorem isSuffix_of_multiLineBasic? {fuel : Nat} {text : List Char}
    (h : multiLineBasic? fuel s = some (text, rest)) : rest <:+ s := by
  induction fuel generalizing s text with
  | zero => cases h
  | succ fuel ih =>
    cases s with
    | nil => cases h
    | cons c after =>
      rw [multiLineBasic?] at h
      split at h
      · rename_i closed hclosed
        cases h
        exact isSuffix_of_closingQuotes? hclosed
      · split at h
        · split at h
          · rename_i continued hcontinued
            exact (ih h).trans ((isSuffix_of_lineContinuation? hcontinued).trans
              (List.suffix_cons _ _))
          · obtain ⟨⟨_, escaped⟩, hescape, h⟩ := Option.bind_eq_some_iff.mp h
            obtain ⟨⟨_, _⟩, hmore, h⟩ := Option.bind_eq_some_iff.mp h
            cases h
            exact (ih hmore).trans ((sameLine_of_escape? hescape).isSuffix.trans
              (List.suffix_cons _ _))
        · split at h
          · rename_i next hend
            obtain ⟨⟨_, _⟩, hmore, h⟩ := Option.bind_eq_some_iff.mp h
            cases h
            exact (ih hmore).trans (isSuffix_of_lineEnd? hend)
          · split at h
            · obtain ⟨⟨_, _⟩, hmore, h⟩ := Option.bind_eq_some_iff.mp h
              cases h
              exact (ih hmore).trans (List.suffix_cons _ _)
            · cases h

theorem isSuffix_of_multiLineLiteral? {fuel : Nat} {text : List Char}
    (h : multiLineLiteral? fuel s = some (text, rest)) : rest <:+ s := by
  induction fuel generalizing s text with
  | zero => cases h
  | succ fuel ih =>
    cases s with
    | nil => cases h
    | cons c after =>
      rw [multiLineLiteral?] at h
      split at h
      · rename_i closed hclosed
        cases h
        exact isSuffix_of_closingQuotes? hclosed
      · split at h
        · rename_i next hend
          obtain ⟨⟨_, _⟩, hmore, h⟩ := Option.bind_eq_some_iff.mp h
          cases h
          exact (ih hmore).trans (isSuffix_of_lineEnd? hend)
        · split at h
          · obtain ⟨⟨_, _⟩, hmore, h⟩ := Option.bind_eq_some_iff.mp h
            cases h
            exact (ih hmore).trans (List.suffix_cons _ _)
          · cases h

theorem isSuffix_dropFirstLineEnd (s : List Char) : dropFirstLineEnd s <:+ s := by
  unfold dropFirstLineEnd
  cases hend : lineEnd? s with
  | none => exact List.suffix_refl s
  | some after => exact isSuffix_of_lineEnd? hend

theorem isSuffix_of_stringValue? {text : List Char} (h : stringValue? s = some (text, rest)) :
    rest <:+ s := by
  have hquotes (c : Char) (s : List Char) : dropFirstLineEnd s <:+ c :: c :: c :: s :=
    (isSuffix_dropFirstLineEnd s).trans (List.suffix_append [c, c, c] s)
  unfold stringValue? at h
  split at h
  · exact (isSuffix_of_multiLineBasic? h).trans (hquotes _ _)
  · exact (isSuffix_of_multiLineLiteral? h).trans (hquotes _ _)
  · exact (sameLine_of_basicString? h).isSuffix.trans (List.suffix_cons _ _)
  · exact (sameLine_of_literalString? h).isSuffix.trans (List.suffix_cons _ _)
  · cases h

theorem isSuffix_of_scalarValue? {value : Value} (h : scalarValue? s = some (value, rest)) :
    rest <:+ s := by
  have htoken := List.drop_suffix (s.takeWhile isScalarChar).length s
  have hscalar {token after : List Char} (hafter : after <:+ s)
      (h : (scalar? token).map (·, after) = some (value, rest)) : rest <:+ s := by
    obtain ⟨_, -, heq⟩ := Option.map_eq_some_iff.mp h
    cases heq
    exact hafter
  simp only [scalarValue?] at h
  split at h
  · rename_i after hspace
    have hafter : ' ' :: after <:+ s := hspace ▸ htoken
    split at h
    · cases h
      exact (List.drop_suffix _ after).trans ((List.suffix_cons _ _).trans hafter)
    · exact hscalar htoken h
  · exact hscalar htoken h

/-! ### Values -/

-- by recursion on the fuel, as the readers
mutual

theorem isSuffix_of_value? : ∀ {fuel depth : Nat} {s rest : List Char} {value : Value},
    value? fuel depth s = some (value, rest) → rest <:+ s
  | 0, _, _, _, _, h => by cases h
  | fuel + 1, depth, s, rest, value, h => by
    unfold value? at h
    split at h
    · cases h
    · cases h
    · cases h
    · obtain ⟨⟨items, _⟩, hitems, heq⟩ := Option.bind_eq_some_iff.mp h
      cases heq
      exact (isSuffix_of_elements? hitems).trans
        ((isSuffix_skipLines _ _).trans (List.suffix_cons _ _))
    · obtain ⟨⟨entries, _⟩, hentries, heq⟩ := Option.bind_eq_some_iff.mp h
      cases heq
      exact (isSuffix_of_inlineEntries? hentries).trans
        ((sameLine_skipSpaces _).isSuffix.trans (List.suffix_cons _ _))
    · split at h
      case h_3 => exact isSuffix_of_scalarValue? h
      all_goals
        obtain ⟨⟨_, _⟩, hstring, heq⟩ := Option.map_eq_some_iff.mp h
        cases heq
        exact isSuffix_of_stringValue? hstring

theorem isSuffix_of_elements? : ∀ {fuel depth : Nat} {s rest : List Char} {items : List Value},
    elements? fuel depth s = some (items, rest) → rest <:+ s
  | 0, _, _, _, _, h => by cases h
  | fuel + 1, depth, s, rest, items, h => by
    unfold elements? at h
    split at h
    · cases h
    · cases h
      exact List.suffix_cons _ _
    · obtain ⟨⟨first, after⟩, hfirst, h⟩ := Option.bind_eq_some_iff.mp h
      have hlines := (isSuffix_skipLines after.length after).trans (isSuffix_of_value? hfirst)
      dsimp only at h
      split at h
      · rename_i comma hcomma
        obtain ⟨⟨more, _⟩, hmore, heq⟩ := Option.bind_eq_some_iff.mp h
        cases heq
        rw [hcomma] at hlines
        exact (isSuffix_of_elements? hmore).trans
          ((isSuffix_skipLines _ _).trans ((List.suffix_cons _ _).trans hlines))
      · rename_i bracket hbracket
        cases h
        rw [hbracket] at hlines
        exact (List.suffix_cons _ _).trans hlines
      · cases h

theorem isSuffix_of_inlineEntries? : ∀ {fuel depth : Nat} {s rest : List Char}
    {entries : Section}, inlineEntries? fuel depth s = some (entries, rest) → rest <:+ s
  | 0, _, _, _, _, h => by cases h
  | fuel + 1, depth, s, rest, entries, h => by
    unfold inlineEntries? at h
    split at h
    · cases h
    · cases h
      exact List.suffix_cons _ _
    · exact isSuffix_of_moreInlineEntries? h

theorem isSuffix_of_moreInlineEntries? : ∀ {fuel depth : Nat} {before : Section}
    {s rest : List Char} {entries : Section},
    moreInlineEntries? fuel depth before s = some (entries, rest) → rest <:+ s
  | 0, _, _, _, _, _, h => by cases h
  | fuel + 1, depth, before, s, rest, entries, h => by
    unfold moreInlineEntries? at h
    obtain ⟨⟨key, _⟩, hkey, h⟩ := Option.bind_eq_some_iff.mp h
    obtain ⟨_, hequals, h⟩ := Option.bind_eq_some_iff.mp h
    obtain ⟨⟨value, after⟩, hvalue, h⟩ := Option.bind_eq_some_iff.mp h
    obtain ⟨_, -, h⟩ := Option.bind_eq_some_iff.mp h
    have hfront := ((sameLine_of_dottedKey? hkey).trans
      ((sameLine_of_afterChar? (by decide) hequals).trans (sameLine_skipSpaces _))).isSuffix
    have hspaces :=
      (sameLine_skipSpaces after).isSuffix.trans ((isSuffix_of_value? hvalue).trans hfront)
    split at h
    · rename_i comma hcomma
      rw [hcomma] at hspaces
      exact (isSuffix_of_moreInlineEntries? h).trans
        ((sameLine_skipSpaces _).isSuffix.trans ((List.suffix_cons _ _).trans hspaces))
    · rename_i brace hbrace
      cases h
      rw [hbrace] at hspaces
      exact (List.suffix_cons _ _).trans hspaces
    · cases h

end

/-! ## The end of a line -/

/-- What is skipped up to the end of a line stays on the line, and without a comment it
has blanks only. -/
theorem exists_skipped (s : List Char) :
    ∃ front, s = front ++ skipComment (skipSpaces s) ∧ '\n' ∉ front ∧
    ('#' ∉ front → ∀ c ∈ front, Text.isBlank c) := by
  have hspaces := takeWhile_append_skipSpaces s
  have hspace : ∀ c ∈ s.takeWhile isSpace, isSpace c := fun c hc => List.mem_takeWhile_imp hc
  unfold skipComment
  split
  · rename_i tail hcomment
    refine ⟨s.takeWhile isSpace ++ '#' :: tail.takeWhile isPrintable, ?_, ?_, fun hnone =>
      absurd ?_ hnone⟩
    · rw [List.append_assoc, List.cons_append, List.takeWhile_append_dropWhile, ← hcomment, hspaces]
    · rintro hmem
      rcases List.mem_append.mp hmem with hmem | hmem
      · exact absurd (hspace '\n' hmem) (by decide)
      · rcases List.mem_cons.mp hmem with heq | hmem
        · cases heq
        · exact absurd (List.mem_takeWhile_imp hmem) (by decide)
    · exact List.mem_append_right _ List.mem_cons_self
  · exact ⟨s.takeWhile isSpace, hspaces.symm, fun hmem => absurd (hspace '\n' hmem) (by decide),
      fun _ c hc => isBlank_of_isSpace (hspace c hc)⟩

/-- The end of a line leaves the text at the beginning of the next one, or nothing.  Without a
comment it has blanks only. -/
theorem exists_of_endOfLine? (h : endOfLine? s = some rest) :
    ∃ line, '\n' ∉ line ∧ ('#' ∉ line → ∀ c ∈ line, Text.isBlank c) ∧
      (s = line ++ '\n' :: rest ∨ s = line ∧ rest = []) := by
  obtain ⟨front, hfront, hnone, hblank⟩ := exists_skipped s
  unfold endOfLine? at h
  split at h
  · rename_i hnil
    cases h
    rw [hnil, List.append_nil] at hfront
    exact ⟨front, hnone, hblank, .inr ⟨hfront, rfl⟩⟩
  · unfold lineEnd? at h
    split at h
    · rename_i after hfeed
      cases h
      exact ⟨front, hnone, hblank, .inl (hfeed ▸ hfront)⟩
    · rename_i after hreturn
      cases h
      refine ⟨front ++ ['\r'], by simpa using hnone, ?_, .inl ?_⟩
      · intro hcomment c hc
        rcases List.mem_append.mp hc with hc | hc
        · exact hblank (fun hmem => hcomment (List.mem_append_left _ hmem)) c hc
        · rw [List.mem_singleton.mp hc]
          rfl
      · rw [hfront, hreturn]
        simp
    · cases h

end Toml
end SiteSettings
