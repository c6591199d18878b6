import SiteSettings.Proofs.Php.Parting

/-!
# Parted texts in literals

Text of a literal may go over a line end, so here a line end parts nothing by itself.  What counts
is whether a part of a literal ends before the first text does: then it is the same part with the
second text behind it.  Of a part that does not end there at least the kind is known
(`part?_append`).

In a literal of several lines there is one more case.  A line that holds nothing but the delimiter
is text if the whole text ends there, and closes the literal if a line end follows.  All of such a
line would be text, up to the end (`contentLength_of_stopsText`).
-/

namespace SiteSettings
namespace Php

/-! ## Looking ahead in text -/

theorem endsAtLine_escapeLength : EndsAtLine escapeLength := by
  intro p u
  cases p with
  | nil => rfl
  | cons c p =>
    have hhex : EndsAtLine (runLength isHexDigit) := endsAtLine_runLength (by decide)
    have hoctal := endsAtLine_runLength (q := fun d => '0' ≤ d && d ≤ '7') (by decide) (c :: p) u
    simp only [List.cons_append] at hoctal
    simp only [List.cons_append, escapeLength, hhex p u, hoctal]
    cases p with
    | nil => simp
    | cons d p =>
      have hle := runLength_le isHexDigit p
      simp only [List.cons_append, List.drop_succ_cons, List.drop_zero, List.head?_cons, hhex p u,
        List.drop_append_of_le_length hle]
      cases p.drop (runLength isHexDigit p) <;> simp

theorem endsAtLine_beginsEscape (q : Quote) : EndsAtLine (beginsEscape q) := by
  intro p u
  cases p with
  | nil => cases q <;> rfl
  | cons c p =>
    have hlength := endsAtLine_escapeLength (c :: p) u
    simp only [List.cons_append] at hlength
    unfold beginsEscape
    simp only [List.cons_append, List.head?_cons, hlength]
    rfl

theorem endsAtLine_beginsVariable : EndsAtLine beginsVariable :=
  endsAtLine_head? (g := fun c => c.any fun c => c == '\x7b' || (isDelimiterChar c && !c.isDigit))
    (by decide)

theorem endsAtLine_beginsProperty : EndsAtLine beginsProperty := by
  intro p u
  match p with
  | [] => rfl
  | [c] => by_cases hc : c = '>' <;> simp [beginsProperty, hc]; decide
  | c :: d :: p => by_cases hc : c = '>' <;> simp [beginsProperty, hc]

theorem endsAtLine_shieldedLength (q : Quote) : EndsAtLine (shieldedLength q) := by
  intro p u
  cases p with
  | nil => cases q <;> rfl
  | cons c p => rfl

/-! ## The length of text -/

section

variable {s t : List Char}

/-- Whether text of a literal that holds code ends before a character. -/
def endsCodeText (q : Quote) (behind : Bool) (c : Char) (rest : List Char) : Bool :=
  endsText q c || (c == '\\' && beginsEscape q rest) || (c == '$' && beginsVariable rest) ||
    (c == '\x7b' && rest.head? == some '$') ||
    (behind && (c == '[' || (c == '-' && beginsProperty rest)))

theorem codeTextLength_cons (q : Quote) (behind : Bool) (c : Char) (rest : List Char) :
    codeTextLength q 0 behind (c :: rest) =
      if endsCodeText q behind c rest then 0
      else codeTextLength q (if c = '\\' then shieldedLength q rest else 0) false rest + 1 :=
  rfl

theorem endsCodeText_append (q : Quote) (behind : Bool) {c : Char} (h : Parted (c :: s) t) :
    endsCodeText q behind c (s ++ t) = endsCodeText q behind c s := by
  rcases h.tail with hs | ⟨rfl, rfl⟩
  · have hdollar : ((s ++ t).head? == some '$') = (s.head? == some '$') :=
      (endsAtLine_head? (g := fun c => c == some '$') (by decide)).append hs
    simp only [endsCodeText, (endsAtLine_beginsEscape q).append hs,
      endsAtLine_beginsVariable.append hs, hdollar, endsAtLine_beginsProperty.append hs]
  · simp [endsCodeText]

/-- Text that ends within the first text is no longer when the second one follows. -/
theorem codeTextLength_append {q : Quote} {shielded : Nat} {behind : Bool} (h : Parted s t)
    (hlt : codeTextLength q shielded behind s < s.length) :
    codeTextLength q shielded behind (s ++ t) = codeTextLength q shielded behind s := by
  induction s generalizing shielded behind with
  | nil => nomatch hlt
  | cons c s ih =>
    have htail : ∀ {n b}, codeTextLength q n b s < s.length →
        codeTextLength q n b (s ++ t) = codeTextLength q n b s := by
      intro n b hn
      refine ih ((h.tail).resolve_right ?_) hn
      rintro ⟨rfl, -⟩
      nomatch hn
    cases shielded with
    | succ shielded =>
      simp only [codeTextLength, List.length_cons, Nat.add_lt_add_iff_right] at hlt
      simp only [List.cons_append, codeTextLength, htail hlt]
    | zero =>
      rw [codeTextLength_cons] at hlt ⊢
      rw [List.cons_append, codeTextLength_cons, endsCodeText_append q behind h]
      split
      · rfl
      · rename_i hends
        rw [if_neg hends, List.length_cons, Nat.add_lt_add_iff_right] at hlt
        have hs : Parted s t := by
          refine (h.tail).resolve_right ?_
          rintro ⟨rfl, -⟩
          nomatch hlt
        rw [(endsAtLine_shieldedLength q).append hs, htail hlt]

/-- Whether a backslash takes the character behind it along, in a literal that is text alone. -/
def plainEscape (q : Quote) (c : Char) (rest : List Char) : Bool :=
  q == .single && c == '\\' && rest.head?.any fun d => d == '\\' || d == '\''

theorem plainTextLength_cons (q : Quote) (c : Char) (rest : List Char) :
    plainTextLength q 0 (c :: rest) =
      if endsText q c then 0
      else plainTextLength q (if plainEscape q c rest then 1 else 0) rest + 1 :=
  rfl

theorem plainTextLength_append {q : Quote} {shielded : Nat} (h : Parted s t)
    (hlt : plainTextLength q shielded s < s.length) :
    plainTextLength q shielded (s ++ t) = plainTextLength q shielded s := by
  induction s generalizing shielded with
  | nil => nomatch hlt
  | cons c s ih =>
    have hparted : ∀ {n}, plainTextLength q n s < s.length → Parted s t := by
      intro n hn
      refine (h.tail).resolve_right ?_
      rintro ⟨rfl, -⟩
      nomatch hn
    cases shielded with
    | succ shielded =>
      simp only [plainTextLength, List.length_cons, Nat.add_lt_add_iff_right] at hlt
      simp only [List.cons_append, plainTextLength, ih (hparted hlt) hlt]
    | zero =>
      rw [plainTextLength_cons] at hlt ⊢
      rw [List.cons_append, plainTextLength_cons]
      split
      · rfl
      · rename_i hends
        rw [if_neg hends, List.length_cons, Nat.add_lt_add_iff_right] at hlt
        have hs := hparted hlt
        have hescape : plainEscape q c (s ++ t) = plainEscape q c s :=
          (endsAtLine_head? (g := fun d => q == .single && c == '\\' &&
            d.any fun d => d == '\\' || d == '\'') (by simp)).append hs
        rw [hescape, ih hs hlt]

theorem contentLength_append {q : Quote} {behind : Bool} (h : Parted s t)
    (hlt : contentLength q behind s < s.length) :
    contentLength q behind (s ++ t) = contentLength q behind s := by
  unfold contentLength at hlt ⊢
  split
  · rename_i hcode
    rw [if_pos hcode] at hlt
    exact codeTextLength_append h hlt
  · rename_i hcode
    rw [if_neg hcode] at hlt
    exact plainTextLength_append h hlt

/-- Whether there is text at all does not depend on what follows. -/
theorem contentLength_append_eq_zero (q : Quote) (behind : Bool) (h : Parted s t) (hs : s ≠ []) :
    contentLength q behind (s ++ t) = 0 ↔ contentLength q behind s = 0 := by
  cases s with
  | nil => exact absurd rfl hs
  | cons c s =>
    unfold contentLength
    split
    · rw [List.cons_append, codeTextLength_cons, codeTextLength_cons,
        endsCodeText_append q behind h]
      split <;> simp
    · rw [List.cons_append, plainTextLength_cons, plainTextLength_cons]
      split <;> simp

/-! ## Parts of a literal -/

theorem lineEndLength_append (hlt : lineEndLength s < s.length) (t : List Char) :
    lineEndLength (s ++ t) = lineEndLength s := by
  match s with
  | [] => nomatch hlt
  | [c] =>
    by_cases hn : c = '\n'
    · subst hn; rfl
    · by_cases hr : c = '\r'
      · subst hr; simp [lineEndLength] at hlt
      · rw [lineEndLength, lineEndLength] <;> simp_all
  | c :: d :: s =>
    by_cases hn : c = '\n'
    · subst hn; rfl
    · by_cases hr : c = '\r'
      · subst hr
        by_cases hd : d = '\n'
        · subst hd; rfl
        · simp [lineEndLength, hd]
      · rw [lineEndLength, lineEndLength] <;> simp_all

theorem lineEndLength_append_eq_zero (hs : s ≠ []) (t : List Char) :
    lineEndLength (s ++ t) = 0 ↔ lineEndLength s = 0 := by
  cases s with
  | nil => exact absurd rfl hs
  | cons c s =>
    by_cases hn : c = '\n'
    · subst hn; simp [lineEndLength]
    · by_cases hr : c = '\r'
      · subst hr
        have hpos (u : List Char) : lineEndLength ('\r' :: u) ≠ 0 := by
          unfold lineEndLength
          split <;> simp_all
        simp [hpos]
      · rw [List.cons_append, lineEndLength, lineEndLength] <;> simp_all

theorem textEnd?_append {q : Quote} (h : Parted s t) {l : Lexeme} (hs : textEnd? q s = some l) :
    ∃ l', textEnd? q (s ++ t) = some l' ∧ l'.terminal = l.terminal ∧
      (l.length < s.length → l' = l) := by
  unfold textEnd? at hs
  split at hs
  · nomatch hs
  · rename_i rest
    cases hs
    have hescape := endsAtLine_escapeLength.append (h.tail_of_ne (by decide))
    exact ⟨⟨.content, max 1 (escapeLength (rest ++ t)) + 1⟩, rfl, rfl, fun _ => by rw [hescape]⟩
  · cases hs; exact ⟨_, rfl, rfl, fun _ => rfl⟩
  · cases hs; exact ⟨_, rfl, rfl, fun _ => rfl⟩
  · cases hs; exact ⟨_, rfl, rfl, fun _ => rfl⟩
  · cases hs; exact ⟨_, rfl, rfl, fun _ => rfl⟩
  · rename_i c rest h₁ h₂ h₃ h₄ h₅
    have hmore : textEnd? q (c :: rest ++ t) =
        if closingChar? q = some c then some ⟨.closing q, 1⟩
        else some ⟨.lineEnd, lineEndLength (c :: rest ++ t)⟩ := by
      rw [List.cons_append, textEnd?] <;> simp_all
    rw [hmore]
    split at hs
    · rename_i hclosing
      cases hs
      exact ⟨_, if_pos hclosing, rfl, fun _ => rfl⟩
    · rename_i hclosing
      cases hs
      exact ⟨_, if_neg hclosing, rfl, fun hlt => by rw [lineEndLength_append hlt]⟩

/-- A part of a literal is a part of the same kind when more text follows, and the same part if it
ends within the first text. -/
theorem part?_append {q : Quote} {behind : Bool} (h : Parted s t) {l : Lexeme}
    (hs : part? q behind s = some l) :
    ∃ l', part? q behind (s ++ t) = some l' ∧ l'.terminal = l.terminal ∧
      (l.length < s.length → l' = l) := by
  have hne : s ≠ [] := by
    rintro rfl
    cases q <;> cases behind <;>
      simp [part?, contentLength, holdsCode, codeTextLength, plainTextLength, textEnd?] at hs
  have hzero := contentLength_append_eq_zero q behind h hne
  unfold part? at hs ⊢
  simp only at hs ⊢
  by_cases hcontent : contentLength q behind s = 0
  · rw [if_neg (by simp [hcontent])] at hs
    rw [if_neg (by simp [hzero.mpr hcontent])]
    exact textEnd?_append h hs
  · rw [if_pos hcontent] at hs
    rw [if_pos fun h0 => hcontent (hzero.mp h0)]
    cases hs
    exact ⟨_, rfl, rfl, fun hlt => by rw [contentLength_append h hlt]⟩

/-! ## Delimiters -/

/-- The rest behind a front part that ends at lines. -/
theorem Parted.drop_front {n : List Char → Nat} (h : Parted s t) (hn : EndsAtLine n)
    (hle : ∀ s, n s ≤ s.length) :
    Parted (s.drop (n s)) t ∧ (s ++ t).drop (n (s ++ t)) = s.drop (n s) ++ t := by
  refine ⟨?_, by rw [hn.append h, List.drop_append_of_le_length (hle s)]⟩
  rcases h with h | ⟨p, rfl⟩
  · exact .inl h
  · refine .inr ⟨p.drop (n p), ?_⟩
    rw [hn p [], List.drop_append_of_le_length (hle p)]

/-- The rest behind a part without a line end. -/
theorem Parted.of_append {front : List Char} (h : Parted (front ++ s) t) (hfront : '\n' ∉ front) :
    Parted s t := by
  rcases h with h | ⟨p, hp⟩
  · exact .inl h
  · have hlast : (s.getLast?.or front.getLast?) = some '\n' := by
      rw [← List.getLast?_append, hp, List.getLast?_concat]
    cases hs : s.getLast? with
    | none =>
      rw [hs, Option.none_or] at hlast
      exact absurd (List.mem_of_getLast? hlast) hfront
    | some c =>
      rw [hs, Option.some_or] at hlast
      cases hlast
      exact .inr (List.getLast?_eq_some_iff.mp hs)

theorem endsAtLine_lineBlankLength : EndsAtLine lineBlankLength :=
  endsAtLine_runLength (by decide)

theorem lineBlankLength_le (s : List Char) : lineBlankLength s ≤ s.length :=
  runLength_le _ s

theorem endsAtLine_closing? (q : Quote) (delimiter : List Char) :
    EndsAtLine fun s => closing? q delimiter (lineBlankLength s) s := by
  have hword : EndsAtLine fun s => (s.drop (lineBlankLength s)).takeWhile isDelimiterChar :=
    (endsAtLine_takeWhile (by decide)).drop endsAtLine_lineBlankLength lineBlankLength_le
  intro p u
  have hword := hword p u
  have hblanks := endsAtLine_lineBlankLength p u
  simp only at hword
  simp only [closing?]
  rw [hword, hblanks]

/-- A character that never ends text of a literal of several lines. -/
def isQuiet (c : Char) : Bool :=
  isDelimiterChar c || (isPlainBlank c && !isLineEnd c)

/-- What may stand behind a delimiter that keeps text from going on. -/
def followsDelimiter (c : Char) : Bool :=
  c == ';' || c == ',' || c == ')' || isLineEnd c

theorem stopsText_eq (delimiter s : List Char) :
    stopsText delimiter s =
      (delimiter.isPrefixOf (s.drop (lineBlankLength s)) &&
        (((s.drop (lineBlankLength s)).drop delimiter.length).drop
          (lineBlankLength ((s.drop (lineBlankLength s)).drop delimiter.length))).head?.any
          followsDelimiter) :=
  rfl

theorem quiet_of_mem_lineBlanks {s : List Char} {c : Char} (hc : c ∈ s.take (lineBlankLength s)) :
    isQuiet c = true := by
  have htake : s.take (lineBlankLength s) = s.takeWhile fun c => isPlainBlank c && !isLineEnd c :=
    (List.prefix_iff_eq_take.mp (List.takeWhile_prefix _)).symm
  rw [htake] at hc
  have hblank := List.all_eq_true.mp List.all_takeWhile c hc
  simp [isQuiet, hblank]

/-- Whether text is stopped at the start of a line does not depend on what follows, unless the line
holds nothing but the delimiter and blanks. -/
theorem stopsText_append {delimiter : List Char} (h : Parted s t)
    (hdelimiter : ∀ c ∈ delimiter, isDelimiterChar c = true) :
    stopsText delimiter (s ++ t) = stopsText delimiter s ∨
      stopsText delimiter s = false ∧ ∀ c ∈ s, isQuiet c = true := by
  have hnewline : '\n' ∉ delimiter := fun hmem => by
    have := hdelimiter _ hmem
    simp [isDelimiterChar] at this
  obtain ⟨hrest, hdrop⟩ := h.drop_front endsAtLine_lineBlankLength lineBlankLength_le
  rw [stopsText_eq, stopsText_eq, hdrop, (endsAtLine_isPrefixOf hnewline).append hrest]
  cases hprefix : delimiter.isPrefixOf (s.drop (lineBlankLength s)) with
  | false => exact .inl rfl
  | true =>
    obtain ⟨behind, hbehind⟩ := List.isPrefixOf_iff_prefix.mp hprefix
    rw [← hbehind] at hrest ⊢
    have hparted := hrest.of_append hnewline
    obtain ⟨hlast, hdrop'⟩ := hparted.drop_front endsAtLine_lineBlankLength lineBlankLength_le
    simp only [List.append_assoc, List.drop_left, hdrop']
    cases hend : behind.drop (lineBlankLength behind) with
    | cons c rest => exact .inl rfl
    | nil =>
      refine .inr ⟨rfl, fun c hc => ?_⟩
      rw [← List.take_append_drop (lineBlankLength s) s, ← hbehind, List.mem_append,
        List.mem_append] at hc
      rcases hc with hc | hc | hc
      · exact quiet_of_mem_lineBlanks hc
      · simp [isQuiet, hdelimiter c hc]
      · rw [← List.take_append_drop (lineBlankLength behind) behind, hend, List.append_nil] at hc
        exact quiet_of_mem_lineBlanks hc

theorem ne_of_quiet {c : Char} (hc : isQuiet c = true) :
    ∀ d ∈ ['\n', '\r', '\\', '$', '\x7b', '[', '-'], c ≠ d := by
  rintro d hd rfl
  have hall : ['\n', '\r', '\\', '$', '\x7b', '[', '-'].all (fun d => !isQuiet d) = true := by
    decide
  have := List.all_eq_true.mp hall c hd
  simp [hc] at this

theorem codeTextLength_of_quiet {behind : Bool} (hs : ∀ c ∈ s, isQuiet c = true) :
    codeTextLength .heredoc 0 behind s = s.length := by
  induction s generalizing behind with
  | nil => rfl
  | cons c s ih =>
    have hc := hs c List.mem_cons_self
    have hne := ne_of_quiet hc
    simp only [List.mem_cons, List.not_mem_nil, or_false, forall_eq_or_imp, forall_eq] at hne
    have hends : endsCodeText .heredoc behind c s = false := by
      simp [endsCodeText, endsText, closingChar?, isLineEnd, hne]
    have hslash : c ≠ '\\' := hne.2.2.1
    rw [codeTextLength_cons, hends, if_neg (by decide), if_neg hslash,
      ih fun d hd => hs d (List.mem_cons_of_mem _ hd), List.length_cons]

theorem plainTextLength_of_quiet (hs : ∀ c ∈ s, isQuiet c = true) :
    plainTextLength .nowdoc 0 s = s.length := by
  induction s with
  | nil => rfl
  | cons c s ih =>
    have hc := hs c List.mem_cons_self
    have hne := ne_of_quiet hc
    simp only [List.mem_cons, List.not_mem_nil, or_false, forall_eq_or_imp, forall_eq] at hne
    have hends : endsText .nowdoc c = false := by
      simp [endsText, closingChar?, isLineEnd, hne]
    rw [plainTextLength_cons, hends, if_neg (by decide), plainEscape]
    simp [ih fun d hd => hs d (List.mem_cons_of_mem _ hd)]

/-- So text that all of is quiet is content up to its end. -/
theorem part?_of_quiet {q : Quote} (hq : q = .heredoc ∨ q = .nowdoc) {behind : Bool} (hne : s ≠ [])
    (hs : ∀ c ∈ s, isQuiet c = true) : part? q behind s = some ⟨.content, s.length⟩ := by
  have hlength : contentLength q behind s = s.length := by
    rcases hq with rfl | rfl
    · exact codeTextLength_of_quiet hs
    · exact plainTextLength_of_quiet hs
  have hpos : contentLength q behind s ≠ 0 := by
    rw [hlength]
    exact fun h0 => hne (List.eq_nil_of_length_eq_zero h0)
  rw [part?, if_pos hpos, hlength]

theorem part?_isSome {q : Quote} {behind : Bool} (hne : s ≠ []) : (part? q behind s).isSome := by
  unfold part?
  simp only
  split
  · rfl
  · cases s with
    | nil => exact absurd rfl hne
    | cons c s =>
      unfold textEnd?
      split <;> first | rfl | nomatch ‹_ :: _ = []› | (split <;> rfl)

/-- A part of a line that ends within the first text is the same when more text follows. -/
theorem partOfLine?_append {q : Quote} {behind : Bool} {delimiter : List Char} (h : Parted s t)
    (hdelimiter : ∀ c ∈ delimiter, isDelimiterChar c = true) {l : Lexeme}
    (hs : partOfLine? q behind delimiter s = some l) :
    (∀ l', partOfLine? q behind delimiter (s ++ t) = some l' → l'.terminal = l.terminal) ∧
      (l.length < s.length → partOfLine? q behind delimiter (s ++ t) = some l) := by
  have hpart : part? q behind s = some l := by
    unfold partOfLine? at hs
    split at hs
    · nomatch hs
    · exact hs
  have hgoes : ¬(q = .heredoc ∧ stopsText delimiter s) := by
    intro hstops
    rw [partOfLine?, if_pos hstops] at hs
    nomatch hs
  obtain ⟨l', hl', hterminal, hsame⟩ := part?_append h hpart
  constructor
  · intro l'' hl''
    unfold partOfLine? at hl''
    split at hl''
    · nomatch hl''
    · rw [hl'] at hl''
      cases hl''
      exact hterminal
  · intro hlt
    have hgoes' : ¬(q = .heredoc ∧ stopsText delimiter (s ++ t)) := by
      rintro ⟨hq, hstops⟩
      rcases stopsText_append h hdelimiter with heq | ⟨-, hquiet⟩
      · exact hgoes ⟨hq, heq ▸ hstops⟩
      · have hne : s ≠ [] := List.ne_nil_of_length_pos (by omega)
        rw [part?_of_quiet (.inl hq) hne hquiet] at hpart
        cases hpart
        exact Nat.lt_irrefl _ hlt
    rw [partOfLine?, if_neg hgoes', hl', hsame hlt]

/-- Only the delimiter keeps text from going on, and what keeps it so in the first text
does so still. -/
theorem partOfLine?_append_of_none {q : Quote} {behind : Bool} {delimiter : List Char}
    (h : Parted s t) (hne : s ≠ []) (hdelimiter : ∀ c ∈ delimiter, isDelimiterChar c = true)
    (hnone : partOfLine? q behind delimiter s = none) :
    partOfLine? q behind delimiter (s ++ t) = none := by
  obtain ⟨hheredoc, hstops⟩ : q = .heredoc ∧ stopsText delimiter s = true := by
    unfold partOfLine? at hnone
    split at hnone
    · assumption
    · exact absurd hnone (Option.isSome_iff_ne_none.mp (part?_isSome hne))
  have hstops' : stopsText delimiter (s ++ t) = true := by
    rcases stopsText_append h hdelimiter with heq | ⟨hfalse, -⟩
    · rw [heq, hstops]
    · rw [hfalse] at hstops
      nomatch hstops
  rw [partOfLine?, if_pos ⟨hheredoc, hstops'⟩]

/-! ## The first lexeme that can be used -/

/-- The first lexeme of a kind that can be used. -/
def firstOf (usable : Terminal → Bool) (lexemes : List Lexeme) : Option Lexeme :=
  lexemes.find? fun l => usable l.terminal

variable {usable : Terminal → Bool}

theorem firstOf_toList {o : Option Lexeme} {l : Lexeme} :
    firstOf usable o.toList = some l ↔ o = some l ∧ usable l.terminal = true := by
  cases o with
  | none => simp [firstOf]
  | some l' =>
    by_cases hl' : usable l'.terminal = true
    · simp only [firstOf, Option.toList_some, List.find?_singleton, hl', if_true, Option.some.injEq]
      constructor
      · rintro rfl; exact ⟨rfl, hl'⟩
      · exact fun h => h.1
    · simp only [firstOf, Option.toList_some, List.find?_singleton, hl', Option.some.injEq]
      constructor
      · intro h; simp at h
      · rintro ⟨rfl, h⟩; exact absurd h hl'

theorem firstOf_append (usable : Terminal → Bool) (as bs : List Lexeme) :
    firstOf usable (as ++ bs) = (firstOf usable as).or (firstOf usable bs) :=
  List.find?_append

/-- A part of a line that cannot be used does not become one when more text follows. -/
theorem firstOf_partOfLine?_append_of_none {q : Quote} {behind : Bool} {delimiter : List Char}
    (h : Parted s t) (hne : s ≠ []) (hdelimiter : ∀ c ∈ delimiter, isDelimiterChar c = true)
    (hnone : firstOf usable (partOfLine? q behind delimiter s).toList = none) :
    firstOf usable (partOfLine? q behind delimiter (s ++ t)).toList = none := by
  cases hpart : partOfLine? q behind delimiter s with
  | none =>
    rw [partOfLine?_append_of_none h hne hdelimiter hpart]
    rfl
  | some l =>
    cases hmore : partOfLine? q behind delimiter (s ++ t) with
    | none => rfl
    | some l' =>
      rw [hpart] at hnone
      have hterminal := (partOfLine?_append h hdelimiter hpart).1 l' hmore
      simpa [firstOf, hterminal] using hnone

/-- A lexeme at the start of a line that ends within the first text is the first
usable one still. -/
theorem lineStartLexemes_append {q : Quote} {delimiter : List Char} (h : Parted s t) (hne : s ≠ [])
    (hdelimiter : ∀ c ∈ delimiter, isDelimiterChar c = true) {l : Lexeme}
    (hs : firstOf usable (lineStartLexemes q delimiter s) = some l) (hlt : l.length < s.length) :
    firstOf usable (lineStartLexemes q delimiter (s ++ t)) = some l := by
  have hclosing : closing? q delimiter (lineBlankLength (s ++ t)) (s ++ t) =
      closing? q delimiter (lineBlankLength s) s :=
    (endsAtLine_closing? q delimiter).append h
  unfold lineStartLexemes at hs ⊢
  simp only [hclosing] at hs ⊢
  split at hs
  · rename_i hq
    have hstops : stopsText delimiter (s ++ t) = stopsText delimiter s := by
      rcases stopsText_append h hdelimiter with heq | ⟨hfalse, hquiet⟩
      · exact heq
      · rw [if_neg (by simp [hfalse]), firstOf_toList, part?_of_quiet (.inr hq) hne hquiet] at hs
        cases hs.1
        exact absurd hlt (Nat.lt_irrefl _)
    rw [if_pos hq, hstops]
    split at hs
    · rename_i hstops
      rwa [if_pos hstops]
    · rename_i hstops
      rw [if_neg hstops, firstOf_toList]
      obtain ⟨hpart, husable⟩ := firstOf_toList.mp hs
      obtain ⟨l', hl', -, hsame⟩ := part?_append h hpart
      exact ⟨by rw [hl', hsame hlt], husable⟩
  · rename_i hq
    rw [if_neg hq]
    rw [firstOf_append, Option.or_eq_some_iff] at hs ⊢
    rcases hs with hs | ⟨hnone, hs⟩
    · obtain ⟨hpart, husable⟩ := firstOf_toList.mp hs
      exact .inl (firstOf_toList.mpr ⟨(partOfLine?_append h hdelimiter hpart).2 hlt, husable⟩)
    · exact .inr ⟨firstOf_partOfLine?_append_of_none h hne hdelimiter hnone, hs⟩

/-- The delimiter behind some lines of blanks, where none follows in the text that is appended. -/
theorem closing?_append (q : Quote) (delimiter : List Char) (h : Parted s t) {c : Char}
    {rest : List Char} (ht : t.drop (runLength isPlainBlank t) = c :: rest)
    (hc : isDelimiterChar c = false) :
    match closing? q delimiter (runLength isPlainBlank s) s with
    | none => closing? q delimiter (runLength isPlainBlank (s ++ t)) (s ++ t) = none
    | some l => ∃ l', closing? q delimiter (runLength isPlainBlank (s ++ t)) (s ++ t) = some l' ∧
        l'.terminal = l.terminal ∧ (l.length < s.length → l' = l) := by
  unfold closing?
  rcases Nat.lt_or_eq_of_le (runLength_le isPlainBlank s) with hlt | heq
  · have hword := (endsAtLine_takeWhile (q := isDelimiterChar) (by decide)).append (h.drop hlt)
    rw [runLength_append_of_lt hlt, List.drop_append_of_le_length (Nat.le_of_lt hlt), hword]
    split
    · next hnone => exact hnone
    · next l hsome => exact ⟨l, hsome, rfl, fun _ => rfl⟩
  · -- the first text is all blanks: no delimiter follows, here or there
    have hdrop : (s ++ t).drop (runLength isPlainBlank (s ++ t)) = c :: rest := by
      rw [runLength_append_of_eq heq, List.drop_append, List.drop_eq_nil_of_le (by omega),
        Nat.add_sub_cancel_left, List.nil_append, ht]
    have hword : (c :: rest).takeWhile isDelimiterChar = [] := by
      rw [List.takeWhile_cons, hc, if_neg Bool.false_ne_true]
    rw [hdrop, heq, List.drop_length, hword, List.takeWhile_nil]
    by_cases hdelimiter : [] = delimiter
    · rw [if_pos hdelimiter, if_pos hdelimiter]
      exact ⟨_, rfl, rfl, fun hlt => absurd hlt (by simp)⟩
    · rw [if_neg hdelimiter, if_neg hdelimiter]

theorem Parted.drop_lineBlanks (h : Parted s t) :
    Parted (s.drop (runLength (fun c => isCodeBlank c && !isLineEnd c) s)) t ∧
      runLength (fun c => isCodeBlank c && !isLineEnd c) (s ++ t) =
        runLength (fun c => isCodeBlank c && !isLineEnd c) s ∧
      (s ++ t).drop (runLength (fun c => isCodeBlank c && !isLineEnd c) s) =
        s.drop (runLength (fun c => isCodeBlank c && !isLineEnd c) s) ++ t := by
  have hblanks : EndsAtLine (runLength fun c => isCodeBlank c && !isLineEnd c) :=
    endsAtLine_runLength (by decide)
  obtain ⟨hparted, hdrop⟩ := h.drop_front hblanks (runLength_le _)
  rw [hblanks.append h] at hdrop
  exact ⟨hparted, hblanks.append h, hdrop⟩

/-- Behind the opening of a literal of several lines, what ends its line or the literal is of the
same kind, and the same if it ends within the first text. -/
theorem afterOpening?_append {q : Quote} {delimiter : List Char} (h : Parted s t) {c : Char}
    {rest : List Char} (ht : t.drop (runLength isPlainBlank t) = c :: rest)
    (hc : isDelimiterChar c = false) {l : Lexeme} (hl : afterOpening? q delimiter s = some l) :
    ∃ l', afterOpening? q delimiter (s ++ t) = some l' ∧ l'.terminal = l.terminal ∧
      (l.length < s.length → l' = l) := by
  have hclosing := closing?_append q delimiter h ht hc
  unfold afterOpening? at hl ⊢
  cases hsome : closing? q delimiter (runLength isPlainBlank s) s with
  | some l₀ =>
    rw [hsome] at hl hclosing
    cases hl
    obtain ⟨l', hl', hterminal, hlength⟩ := hclosing
    rw [hl']
    exact ⟨l', rfl, hterminal, hlength⟩
  | none =>
    rw [hsome] at hl hclosing
    rw [show closing? q delimiter _ _ = none from hclosing]
    obtain ⟨-, hrun, hdrop⟩ := h.drop_lineBlanks
    simp only [Option.ite_none_left_eq_some, Option.some.injEq] at hl
    obtain ⟨hend, rfl⟩ := hl
    have hlength : (s.drop (runLength (fun c => isCodeBlank c && !isLineEnd c) s)).length =
        s.length - runLength (fun c => isCodeBlank c && !isLineEnd c) s := List.length_drop
    simp only [hrun, hdrop]
    generalize s.drop (runLength (fun c => isCodeBlank c && !isLineEnd c) s) = line
      at hend hlength ⊢
    have hline : line ≠ [] := by
      rintro rfl
      exact hend rfl
    rw [if_neg fun h0 => hend ((lineEndLength_append_eq_zero hline t).mp h0)]
    refine ⟨_, rfl, rfl, fun hlt => ?_⟩
    have hshort : runLength (fun c => isCodeBlank c && !isLineEnd c) s + lineEndLength line <
        s.length := hlt
    rw [lineEndLength_append (by omega)]

/-- Nothing ends the line or the literal if nothing did before, unless only blanks were there. -/
theorem afterOpening?_append_of_none {q : Quote} {delimiter : List Char} (h : Parted s t) {c : Char}
    {rest : List Char} (ht : t.drop (runLength isPlainBlank t) = c :: rest)
    (hc : isDelimiterChar c = false)
    (hs : s.drop (runLength (fun c => isCodeBlank c && !isLineEnd c) s) ≠ [])
    (hnone : afterOpening? q delimiter s = none) : afterOpening? q delimiter (s ++ t) = none := by
  have hclosing := closing?_append q delimiter h ht hc
  unfold afterOpening? at hnone ⊢
  cases hsome : closing? q delimiter (runLength isPlainBlank s) s with
  | some l₀ =>
    rw [hsome] at hnone
    nomatch hnone
  | none =>
    rw [hsome] at hnone hclosing
    rw [show closing? q delimiter _ _ = none from hclosing]
    obtain ⟨-, hrun, hdrop⟩ := h.drop_lineBlanks
    simp only [hrun, hdrop]
    have hend :
        lineEndLength (s.drop (runLength (fun c => isCodeBlank c && !isLineEnd c) s)) = 0 := by
      simpa using hnone
    rw [if_pos ((lineEndLength_append_eq_zero hs t).mpr hend)]

end

end Php
end SiteSettings
