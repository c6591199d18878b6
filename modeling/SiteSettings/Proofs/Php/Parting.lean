import SiteSettings.Proofs.Php.Pieces

/-!
# A line end parts lexemes

No lexeme of code reaches over a line end, and a look ahead does not either.  So what stands at the
front of a text is the same whether the text ends, or goes on on a new line.

`EndsAtLine f` says this of a function `f` on texts.  `Parted s t` says that `s` and `t` meet at a
line end, which then belongs to either of them; a function that ends at lines cannot tell `s ++ t`
from `s` (`EndsAtLine.append`).  Comments and literals are another matter: some of them go over a
line end, and what can be said of those is said case by case.
-/

namespace SiteSettings
namespace Php

/-! ## Parted texts -/

/-- The texts meet at a line end. -/
def Parted (s t : List Char) : Prop :=
  (∃ u, t = '\n' :: u) ∨ ∃ p, s = p ++ ['\n']

/-- Nothing behind a line end matters to the function, nor the line end itself. -/
def EndsAtLine {α : Type} (f : List Char → α) : Prop :=
  ∀ p u, f (p ++ '\n' :: u) = f p

section

variable {α β : Type} {s t : List Char}

/-- Parted texts in one: a first part, a line end, and what follows. -/
theorem Parted.exists_split (h : Parted s t) :
    ∃ p u, s ++ t = p ++ '\n' :: u ∧ (s = p ∨ s = p ++ ['\n']) := by
  rcases h with ⟨u, rfl⟩ | ⟨p, rfl⟩
  · exact ⟨s, u, rfl, .inl rfl⟩
  · exact ⟨p, t, by simp, .inr rfl⟩

theorem EndsAtLine.append {f : List Char → α} (hf : EndsAtLine f) (h : Parted s t) :
    f (s ++ t) = f s := by
  obtain ⟨p, u, hsplit, rfl | rfl⟩ := h.exists_split
  · rw [hsplit, hf]
  · rw [hsplit, hf, hf]

theorem EndsAtLine.comp {f : List Char → α} (hf : EndsAtLine f) (g : α → β) :
    EndsAtLine fun s => g (f s) :=
  fun p u => congrArg g (hf p u)

/-- What is left behind a part of the text is parted from `t`, unless the part took the line end. -/
theorem Parted.drop (h : Parted s t) {n : Nat} (hn : n < s.length) : Parted (s.drop n) t := by
  rcases h with h | ⟨p, rfl⟩
  · exact .inl h
  · refine .inr ⟨p.drop n, ?_⟩
    have hle : n ≤ p.length := by
      simp only [List.length_append, List.length_singleton] at hn
      omega
    rw [List.drop_append_of_le_length hle]

theorem Parted.of_suffix {r : List Char} (h : Parted s t) (hr : r <:+ s) (hne : r ≠ []) :
    Parted r t := by
  obtain ⟨front, rfl⟩ := hr
  have hlength : front.length < (front ++ r).length := by
    rw [List.length_append]
    exact Nat.lt_add_of_pos_right (List.length_pos_iff.mpr hne)
  have hdrop := h.drop hlength
  rwa [List.drop_left] at hdrop

theorem Parted.tail {c : Char} (h : Parted (c :: s) t) : Parted s t ∨ s = [] ∧ c = '\n' := by
  cases s with
  | nil =>
    rcases h with h | ⟨p, hp⟩
    · exact .inl (.inl h)
    · refine .inr ⟨rfl, ?_⟩
      cases p <;> simp_all
  | cons d s => exact .inl (h.drop (n := 1) (by simp))

theorem Parted.tail_of_ne {c : Char} (h : Parted (c :: s) t) (hc : c ≠ '\n') : Parted s t :=
  h.tail.resolve_right fun hs => hc hs.2

end

/-! ## Runs and beginnings -/

theorem endsAtLine_takeWhile {q : Char → Bool} (hq : q '\n' = false) :
    EndsAtLine fun s => s.takeWhile q := by
  intro p u
  induction p with
  | nil => simp [hq]
  | cons c p ih =>
    simp only [List.cons_append, List.takeWhile_cons]
    split
    · exact congrArg _ ih
    · rfl

theorem endsAtLine_runLength {q : Char → Bool} (hq : q '\n' = false) : EndsAtLine (runLength q) :=
  (endsAtLine_takeWhile hq).comp List.length

/-- A function of the first character that treats a line end like no character. -/
theorem endsAtLine_head? {α : Type} {g : Option Char → α} (hg : g (some '\n') = g none) :
    EndsAtLine fun s => g s.head? := by
  intro p u
  cases p with
  | nil => simpa using hg
  | cons c p => rfl

theorem endsAtLine_isPrefixOf {front : List Char} (hfront : '\n' ∉ front) :
    EndsAtLine fun s => front.isPrefixOf s := by
  intro p u
  induction front generalizing p with
  | nil => simp
  | cons c front ih =>
    have hc : c ≠ '\n' := fun h => hfront (by simp [h])
    cases p with
    | nil => simp [List.isPrefixOf, hc]
    | cons d p =>
      have ih := ih (fun h => hfront (List.mem_cons_of_mem _ h)) p
      simp only [List.cons_append, List.isPrefixOf] at ih ⊢
      rw [ih]

theorem endsAtLine_beginsWith {start : String} (hstart : '\n' ∉ start.toList) :
    EndsAtLine (beginsWith start) :=
  endsAtLine_isPrefixOf hstart

/-- What a function finds behind a part whose length ends at lines. -/
theorem EndsAtLine.drop {α : Type} {f : List Char → α} {n : List Char → Nat} (hf : EndsAtLine f)
    (hn : EndsAtLine n) (hle : ∀ s, n s ≤ s.length) : EndsAtLine fun s => f (s.drop (n s)) := by
  intro p u
  simp only [hn p u, List.drop_append_of_le_length (hle p)]
  exact hf _ u

theorem EndsAtLine.take {n : List Char → Nat} (hn : EndsAtLine n) (hle : ∀ s, n s ≤ s.length) :
    EndsAtLine fun s => s.take (n s) := by
  intro p u
  simp only [hn p u, List.take_append_of_le_length (hle p)]

/-! ## Numbers and names -/

theorem endsAtLine_groupsLength {isDigit : Char → Bool} (h : isDigit '\n' = false) :
    EndsAtLine (groupsLength isDigit) := by
  intro p u
  induction p with
  | nil => simp [groupsLength, h]
  | cons c p ih =>
    have hhead : (p ++ '\n' :: u).head?.any isDigit = p.head?.any isDigit :=
      endsAtLine_head? (g := fun c => c.any isDigit) (by simp [h]) p u
    simp only [List.cons_append, groupsLength, ih, hhead]

theorem groupsLength_le (isDigit : Char → Bool) (s : List Char) :
    groupsLength isDigit s ≤ s.length := by
  induction s with
  | nil => simp [groupsLength]
  | cons c s ih =>
    simp only [groupsLength, List.length_cons]
    split
    · omega
    · split <;> omega

theorem endsAtLine_markedLength {isDigit : Char → Bool} (h : isDigit '\n' = false) :
    EndsAtLine (markedLength isDigit) := by
  intro p u
  have hhead : (p ++ '\n' :: u).head?.any isDigit = p.head?.any isDigit :=
    endsAtLine_head? (g := fun c => c.any isDigit) (by simp [h]) p u
  simp only [markedLength, hhead, endsAtLine_groupsLength h p u]

theorem integerLength_cons {c : Char} (hc : c ≠ '0') (s : List Char) :
    integerLength (c :: s) = if c.isDigit then groupsLength Char.isDigit s + 1 else 0 := by
  unfold integerLength
  split
  · next h => exact absurd (List.cons.inj h).1 hc
  · next h => cases h; rfl
  · next h => nomatch h

theorem endsAtLine_integerLength : EndsAtLine integerLength := by
  intro p u
  match p with
  | [] => rfl
  | c :: p =>
    by_cases hc : c = '0'
    · subst hc
      have hoctal : EndsAtLine (groupsLength fun d => '0' ≤ d && d ≤ '7') :=
        endsAtLine_groupsLength (by decide)
      cases p with
      | nil => rfl
      | cons d p =>
        have hhex : EndsAtLine (markedLength isHexDigit) := endsAtLine_markedLength (by decide)
        have hbinary : EndsAtLine (markedLength fun d => d == '0' || d == '1') :=
          endsAtLine_markedLength (by decide)
        have hall := hoctal (d :: p) u
        simp only [List.cons_append] at hall
        simp only [List.cons_append, integerLength, hhex p u, hbinary p u, hoctal p u, hall]
    · rw [List.cons_append, integerLength_cons hc, integerLength_cons hc,
        endsAtLine_groupsLength (by decide) p u]

theorem endsAtLine_exponentLength : EndsAtLine exponentLength := by
  intro p u
  cases p with
  | nil => rfl
  | cons c p =>
    have hsign : (p ++ '\n' :: u).head?.any (fun d => d == '+' || d == '-') =
        p.head?.any fun d => d == '+' || d == '-' :=
      endsAtLine_head? (g := fun c => c.any fun d => d == '+' || d == '-') (by decide) p u
    have hdigit (p : List Char) : (p ++ '\n' :: u).head?.any Char.isDigit =
        p.head?.any Char.isDigit :=
      endsAtLine_head? (g := fun c => c.any Char.isDigit) (by decide) p u
    have hgroups : EndsAtLine (groupsLength Char.isDigit) := endsAtLine_groupsLength (by decide)
    simp only [List.cons_append, exponentLength, hsign]
    cases p with
    | nil => simp
    | cons d p =>
      have hall := hgroups (d :: p) u
      simp only [List.cons_append] at hall
      cases hd : (d == '+' || d == '-') with
      | true =>
        have hdigit := hdigit p
        simp only [List.cons_append, List.head?_cons, Option.any_some, hd, List.drop_succ_cons,
          List.drop_zero, if_true, hdigit, hgroups p u]
      | false => simp [hd, hall]

theorem fractionLength_cons {c : Char} (hc : c ≠ '.') (s : List Char) :
    fractionLength (c :: s) = 0 := by
  unfold fractionLength
  split
  · next h => exact absurd (List.cons.inj h).1 hc
  · rfl

theorem endsAtLine_fractionLength : EndsAtLine fractionLength := by
  intro p u
  cases p with
  | nil => rfl
  | cons c p =>
    by_cases hc : c = '.'
    · subst hc
      have hdigits : EndsAtLine (groupsLength Char.isDigit) := endsAtLine_groupsLength (by decide)
      simp only [List.cons_append, fractionLength, hdigits p u]
    · rw [List.cons_append, fractionLength_cons hc, fractionLength_cons hc]

theorem fractionLength_le (s : List Char) : fractionLength s ≤ s.length := by
  unfold fractionLength
  split
  · exact Nat.succ_le_succ (groupsLength_le _ _)
  · exact Nat.zero_le _

theorem endsAtLine_floatLength : EndsAtLine floatLength := by
  have hwhole : EndsAtLine (groupsLength Char.isDigit) := endsAtLine_groupsLength (by decide)
  have hfraction : EndsAtLine fun s => fractionLength (s.drop (groupsLength Char.isDigit s)) :=
    endsAtLine_fractionLength.drop hwhole (groupsLength_le _)
  have hbefore : EndsAtLine fun s =>
      groupsLength Char.isDigit s + fractionLength (s.drop (groupsLength Char.isDigit s)) :=
    fun p u => congr (congrArg _ (hwhole p u)) (hfraction p u)
  have hle (s : List Char) : groupsLength Char.isDigit s +
      fractionLength (s.drop (groupsLength Char.isDigit s)) ≤ s.length := by
    have := groupsLength_le Char.isDigit s
    have := fractionLength_le (s.drop (groupsLength Char.isDigit s))
    simp only [List.length_drop] at this
    omega
  have hexponent := endsAtLine_exponentLength.drop hbefore hle
  let total (whole fraction exponent : Nat) : Nat :=
    if fraction = 0 ∧ exponent = 0 then 0 else whole + fraction + exponent
  intro p u
  have h := congr (congr (congrArg total (hwhole p u)) (hfraction p u)) (hexponent p u)
  exact h

theorem endsAtLine_nameLength : EndsAtLine nameLength := by
  intro p u
  cases p with
  | nil => rfl
  | cons c p =>
    simp only [List.cons_append, nameLength,
      endsAtLine_runLength (q := isLexicalNameChar) (by decide) p u]

theorem nameLength_le (s : List Char) : nameLength s ≤ s.length := by
  cases s with
  | nil => exact Nat.le_refl 0
  | cons c s =>
    simp only [nameLength, List.length_cons]
    split
    · exact Nat.succ_le_succ (runLength_le _ s)
    · exact Nat.zero_le _

/-! ## Lexemes of code -/

theorem endsAtLine_quoteOpening? : EndsAtLine quoteOpening? := by
  intro p u
  match p with
  | [] =>
    unfold quoteOpening?
    split <;> simp_all
    -- a line end is no `b` in front of a quote
    all_goals
      rintro hb
      rename_i heq
      rw [← heq.1] at hb
      exact absurd hb (by decide)
  | [c] =>
    unfold quoteOpening?
    split <;> simp_all
  | c :: d :: p =>
    unfold quoteOpening?
    split <;> simp_all

theorem endsAtLine_tightLexemes (tight : Bool) : EndsAtLine (tightLexemes tight) := by
  intro p u
  cases p <;> simp [tightLexemes]

theorem endsAtLine_markLexemes : EndsAtLine markLexemes := by
  intro p u
  have hmarks : (marks.filter (beginsWith · (p ++ '\n' :: u))) = marks.filter (beginsWith · p) := by
    refine List.filter_congr fun m hm => endsAtLine_beginsWith ?_ p u
    have hall : marks.all (fun m => '\n' ∉ m.toList) = true := by decide
    simpa using List.all_eq_true.mp hall m hm
  simp only [markLexemes, hmarks]

theorem endsAtLine_keywordLexemes : EndsAtLine keywordLexemes := by
  intro p u
  have hword := endsAtLine_nameLength.take nameLength_le p u
  simp only at hword
  simp only [keywordLexemes, hword]

theorem endsAtLine_classLexemes : EndsAtLine classLexemes := by
  intro p u
  simp only [classLexemes, endsAtLine_floatLength p u, endsAtLine_integerLength p u,
    endsAtLine_nameLength p u]

theorem endsAtLine_codeLexemes (tight : Bool) : EndsAtLine (codeLexemes tight) := by
  intro p u
  simp only [codeLexemes, endsAtLine_quoteOpening? p u, endsAtLine_tightLexemes tight p u,
    endsAtLine_markLexemes p u, endsAtLine_keywordLexemes p u, endsAtLine_classLexemes p u]

/-! ## Tags and gaps -/

theorem tagLength_eq (s : List Char) :
    tagLength ('<' :: '?' :: s) =
      if s.head? = some '=' then 3
      else if (s.take 3).map Char.toLower = ['p', 'h', 'p'] then 5 else 2 := by
  match s with
  | [] => rfl
  | [a] => by_cases ha : a = '=' <;> simp [tagLength, ha]
  | [a, b] => by_cases ha : a = '=' <;> simp [tagLength, ha]
  | a :: b :: c :: s =>
    by_cases ha : a = '='
    · simp [tagLength, ha]
    · simp only [tagLength, List.head?_cons, Option.some.injEq, ha, if_false, List.take_succ_cons,
        List.take_zero, List.map_cons, List.map_nil]

theorem endsAtLine_tagLength : EndsAtLine fun s => tagLength ('<' :: '?' :: s) := by
  intro p u
  have hlower : ('\n' : Char).toLower = '\n' := by decide
  simp only [tagLength_eq]
  match p with
  | [] => simp [hlower]
  | [a] => simp [hlower]
  | [a, b] => simp [hlower]
  | a :: b :: c :: p => simp

section

variable {s t : List Char}

/-- A gap that ends inside the first text ends there still; else the second text is looked at
from its front. -/
theorem afterGap_append (h : Parted s t) (inComment : Bool) :
    afterGap inComment (s ++ t) =
      if afterGap inComment s = [] then afterGap false t else afterGap inComment s ++ t := by
  induction s generalizing inComment with
  | nil =>
    cases inComment with
    | false => rfl
    | true =>
      obtain ⟨u, rfl⟩ | ⟨p, hp⟩ := h
      · rfl
      · simp at hp
  | cons d s ih =>
    rcases h.tail with htail | ⟨rfl, rfl⟩
    · cases inComment with
      | true => exact ih htail _
      | false =>
        have hhead : (s ++ t).head? = some '/' ↔ s.head? = some '/' := by
          have hends : EndsAtLine fun s => decide (s.head? = some '/') :=
            endsAtLine_head? (g := fun c => decide (c = some '/')) (by decide)
          simpa using hends.append htail
        simp only [List.cons_append, afterGap, Bool.false_eq_true, if_false, hhead]
        split
        · exact ih htail _
        · split
          · exact ih htail _
          · simp
    · cases inComment <;> simp [afterGap, isPlainBlank]

theorem endFollows_append (h : Parted s t) (hs : endFollows s = false) :
    endFollows (s ++ t) = false := by
  simp only [endFollows, afterGap_append h, List.isEmpty_eq_false_iff] at hs ⊢
  rw [if_neg hs]
  exact List.append_ne_nil_of_left_ne_nil hs t

theorem beginsWith_append (h : Parted s t) {start : String} (hstart : '\n' ∉ start.toList) :
    beginsWith start (s ++ t) = beginsWith start s :=
  (endsAtLine_beginsWith hstart).append h

theorem exists_of_beginsWith_tag (h : beginsWith "<?" s) : ∃ rest, s = '<' :: '?' :: rest := by
  obtain ⟨rest, rfl⟩ := List.isPrefixOf_iff_prefix.mp h
  exact ⟨rest, rfl⟩

/-- Opening tags are read the same. -/
theorem tagLength_append (h : Parted s t) (hbegins : beginsWith "<?" s = true) :
    tagLength (s ++ t) = tagLength s ∧ tagLength s ≤ s.length := by
  obtain ⟨rest, rfl⟩ := exists_of_beginsWith_tag hbegins
  have hrest := (h.tail_of_ne (by decide)).tail_of_ne (by decide)
  exact ⟨endsAtLine_tagLength.append hrest, tagLength_le rfl⟩

/-- Plain text that an opening tag ends is not changed by what follows the tag. -/
theorem plainLength_append_of_opens (h : Parted s t) {n : Nat} (hs : plainLength s = (n, true)) :
    plainLength (s ++ t) = (n, true) ∧ n ≤ s.length := by
  induction s generalizing n with
  | nil => simp [plainLength] at hs
  | cons c s ih =>
    have htag : beginsWith "<?" (c :: (s ++ t)) = beginsWith "<?" (c :: s) :=
      beginsWith_append h (by decide)
    simp only [List.cons_append, plainLength, htag] at hs ⊢
    split at hs
    · rename_i hbegins
      obtain ⟨hlength, hle⟩ := tagLength_append h hbegins
      cases hs
      rw [if_pos hbegins]
      exact ⟨by rw [← hlength, List.cons_append], hle⟩
    · rename_i hbegins
      rw [if_neg hbegins]
      obtain ⟨hlength, hopens⟩ := Prod.mk.inj hs
      rcases h.tail with htail | ⟨rfl, rfl⟩
      · obtain ⟨hmore, hle⟩ := ih htail (n := (plainLength s).1) (by rw [← hopens])
        rw [hmore, List.length_cons]
        exact ⟨by rw [← hlength], by omega⟩
      · simp [plainLength] at hopens

/-- So is plain text behind a closing tag. -/
theorem plainLengthInside_append (h : Parted s t) {n : Nat} (hs : plainLengthInside s = (n, true)) :
    plainLengthInside (s ++ t) = (n, true) ∧ n ≤ s.length := by
  induction s generalizing n with
  | nil => simp [plainLengthInside] at hs
  | cons c s ih =>
    have htag : beginsWith "<?" (c :: (s ++ t)) = beginsWith "<?" (c :: s) :=
      beginsWith_append h (by decide)
    simp only [List.cons_append, plainLengthInside, htag] at hs ⊢
    split at hs
    · rename_i hbegins
      obtain ⟨hlength, hle⟩ := tagLength_append h hbegins
      cases hs
      rw [if_pos hbegins]
      exact ⟨by rw [← hlength, List.cons_append], hle⟩
    · rename_i hbegins
      rw [if_neg hbegins]
      split at hs
      · nomatch hs
      · rename_i hangle
        obtain ⟨hlength, hopens⟩ := Prod.mk.inj hs
        rcases h.tail with htail | ⟨rfl, rfl⟩
        · obtain ⟨hmore, hle⟩ := ih htail (n := (plainLengthInside s).1) (by rw [← hopens])
          have hangle' : ¬(c = '<' ∧ endFollows (s ++ t)) := by
            rintro ⟨rfl, hend⟩
            have hs : endFollows s = false := by simpa using hangle
            rw [endFollows_append htail hs] at hend
            nomatch hend
          rw [if_neg hangle', hmore, List.length_cons]
          exact ⟨by rw [← hlength], by omega⟩
        · simp [plainLengthInside] at hopens

/-- So a closing tag, with the plain text and the opening tag behind it, is read the same. -/
theorem interruption?_append (h : Parted s t) {n : Nat} (hs : interruption? s = some (n, true)) :
    interruption? (s ++ t) = some (n, true) ∧ n ≤ s.length := by
  unfold interruption? at hs ⊢
  rw [beginsWith_append h (by decide)]
  split at hs
  case isFalse => nomatch hs
  case isTrue hbegins =>
    obtain ⟨rest, rfl⟩ := List.isPrefixOf_iff_prefix.mp hbegins
    have hrest : Parted rest t := (h.tail_of_ne (by decide)).tail_of_ne (by decide)
    rw [if_pos hbegins]
    simp only [show "?>".toList = ['?', '>'] from rfl, List.cons_append, List.nil_append,
      List.drop_succ_cons, List.drop_zero, Option.some.injEq, Prod.mk.injEq,
      List.length_cons] at hs ⊢
    split at hs
    · simp at hs
    · rename_i hend
      obtain ⟨hlength, hopens⟩ := hs
      obtain ⟨hmore, hle⟩ := plainLengthInside_append hrest
        (n := (plainLengthInside rest).1) (by rw [← hopens])
      have hend' := endFollows_append hrest (by simpa using hend)
      rw [hend', if_neg (by decide), hmore]
      exact ⟨⟨hlength, rfl⟩, by omega⟩

theorem interruption?_append_of_none (h : Parted s t) (hs : interruption? s = none) :
    interruption? (s ++ t) = none := by
  unfold interruption? at hs ⊢
  rw [beginsWith_append h (by decide)]
  split at hs
  · nomatch hs
  · rename_i hbegins
    rw [if_neg hbegins]

theorem afterGap_suffix (inComment : Bool) (s : List Char) : afterGap inComment s <:+ s := by
  fun_induction afterGap inComment s with
  | case1 => exact List.suffix_rfl
  | case2 _ _ ih => exact ih.trans (List.suffix_cons _ _)
  | case3 _ _ _ _ _ ih => exact ih.trans (List.suffix_cons _ _)
  | case4 _ _ _ _ _ _ ih => exact ih.trans (List.suffix_cons _ _)
  | case5 => exact List.suffix_rfl

theorem tagFollows_append (h : Parted s t) {c : Char} {rest : List Char}
    (ht : afterGap false t = c :: rest) (hc : c ≠ '?') : tagFollows (s ++ t) = tagFollows s := by
  unfold tagFollows
  rw [afterGap_append h]
  cases hs : afterGap false s with
  | nil =>
    rw [if_pos rfl, ht]
    simp [beginsWith, List.isPrefixOf, hc.symm]
  | cons d front =>
    have hparted : Parted (d :: front) t :=
      h.of_suffix (hs ▸ afterGap_suffix false s) (List.cons_ne_nil _ _)
    rw [if_neg (List.cons_ne_nil _ _)]
    exact beginsWith_append hparted (by decide)

/-! ## Comments -/

theorem lineCommentLength_cons {c : Char} (hc : c ≠ '\n') (hc' : c ≠ '\r') (hc'' : c ≠ '?')
    (s : List Char) : lineCommentLength (c :: s) = lineCommentLength s + 1 := by
  rw [lineCommentLength] <;> simp_all

/-- A comment up to the end of its line is read the same, unless a question mark at its end could
take the line end along. -/
theorem lineCommentLength_append (h : Parted s t) :
    lineCommentLength (s ++ t) = lineCommentLength s ∨
      s.drop (lineCommentLength s) = ['?'] ∨ s.drop (lineCommentLength s) = ['?', '\r'] := by
  fun_induction lineCommentLength s with
  | case1 =>
    left
    obtain ⟨u, rfl⟩ | ⟨p, hp⟩ := h
    · rfl
    · simp at hp
  | case2 => exact .inl rfl
  | case3 => exact .inl rfl
  | case4 => exact .inl rfl
  | case5 => exact .inl rfl
  | case6 => exact .inr (.inl rfl)
  | case7 c rest hc hrest hends =>
    by_cases hexception : c = '\r' ∧ rest = []
    · obtain ⟨rfl, rfl⟩ := hexception
      exact .inr (.inr rfl)
    · left
      have hrest' : ∀ tail, c = '\r' → rest ++ t = '\n' :: tail → False := by
        intro tail hreturn htail
        cases rest with
        | nil => exact hexception ⟨hreturn, rfl⟩
        | cons d rest => exact hrest rest hreturn (by rw [(List.cons.inj htail).1])
      simp only [List.cons_append]
      rw [lineCommentLength, if_pos hends] <;> simp_all
  | case8 c rest hc hrest hends ih =>
    have hends' := not_or.mp hends
    have htail : Parted rest t := (h.tail_of_ne (by decide)).tail_of_ne hc
    have hlength : lineCommentLength ('?' :: c :: (rest ++ t)) =
        lineCommentLength (rest ++ t) + 2 := by
      rw [lineCommentLength, if_neg hends] <;> simp_all
    simp only [List.cons_append, hlength, List.drop_succ_cons]
    rcases ih htail with hsame | hexception
    · exact .inl (by rw [hsame])
    · exact .inr hexception
  | case9 c rest hc hc' hline hreturn hend hmore ih =>
    have hquestion : c ≠ '?' := by
      rintro rfl
      cases rest with
      | nil => exact hend rfl rfl
      | cons d rest => exact hmore d rest rfl rfl
    have hlength := lineCommentLength_cons hc hc' hquestion (rest ++ t)
    simp only [List.cons_append, hlength, List.drop_succ_cons]
    rcases ih (h.tail_of_ne hc) with hsame | hexception
    · exact .inl (by rw [hsame])
    · exact .inr hexception

theorem blockCommentLength?_append {n : Nat} (hs : blockCommentLength? s = some n) :
    blockCommentLength? (s ++ t) = some n := by
  fun_induction blockCommentLength? s generalizing n with
  | case1 => cases hs
  | case2 rest =>
    cases hs
    rfl
  | case3 c rest hclosed ih =>
    obtain ⟨m, hm, rfl⟩ := Option.map_eq_some_iff.mp hs
    have hmore := ih hm
    have hclosed' : ∀ tail, c = '*' → rest ++ t = '/' :: tail → False := by
      intro tail hstar htail
      cases rest with
      | nil => cases hm
      | cons d rest => exact hclosed rest hstar (by rw [(List.cons.inj htail).1])
    rw [List.cons_append, blockCommentLength?, hmore] <;> simp_all

theorem commentLength_eq_zero {c : Char} (hslash : c ≠ '/') (hhash : c ≠ '#') (s : List Char) :
    commentLength (c :: s) = 0 := by
  rw [commentLength] <;> simp_all

/-- A comment is read the same, with three exceptions: a question mark at the end of the text could
take the line end along, and a comment that is not closed may be closed further on. -/
theorem commentLength_append (h : Parted s t) :
    commentLength (s ++ t) = commentLength s ∨ s.drop (commentLength s) = ['?'] ∨
      s.drop (commentLength s) = ['?', '\r'] ∨
      ∃ rest, s = '/' :: '*' :: rest ∧ blockCommentLength? rest = none := by
  match s with
  | [] =>
    obtain ⟨u, rfl⟩ | ⟨p, hp⟩ := h
    · exact .inl (commentLength_eq_zero (by decide) (by decide) u)
    · simp at hp
  | [c] =>
    left
    by_cases hslash : c = '/'
    · subst hslash
      obtain ⟨u, rfl⟩ | ⟨p, hp⟩ := h.tail_of_ne (by decide)
      · rfl
      · simp at hp
    · by_cases hhash : c = '#'
      · subst hhash
        obtain ⟨u, rfl⟩ | ⟨p, hp⟩ := h.tail_of_ne (by decide)
        · rfl
        · simp at hp
      · rw [List.cons_append, commentLength_eq_zero hslash hhash,
          commentLength_eq_zero hslash hhash]
  | c :: d :: rest =>
    have hshift (n : Nat) : (c :: d :: rest).drop (n + 2) = rest.drop n := rfl
    have hrest : c ≠ '\n' → d ≠ '\n' → Parted rest t := fun hc hd =>
      (h.tail_of_ne hc).tail_of_ne hd
    simp only [List.cons_append]
    by_cases hhash : c = '#'
    · subst hhash
      simp only [commentLength]
      split
      · exact .inl rfl
      · rename_i hd
        have hd : d ≠ '\n' := fun he => hd (by simp [he])
        rw [hshift]
        rcases lineCommentLength_append (hrest (by decide) hd) with hsame | hquestion
        · exact .inl (by rw [hsame])
        · exact .inr (hquestion.imp_right .inl)
    · by_cases hslash : c = '/'
      · subst hslash
        by_cases hd : d = '/'
        · subst hd
          simp only [commentLength, hshift]
          rcases lineCommentLength_append (hrest (by decide) (by decide)) with hsame | hquestion
          · exact .inl (by rw [hsame])
          · exact .inr (hquestion.imp_right .inl)
        · by_cases hstar : d = '*'
          · subst hstar
            simp only [commentLength]
            cases hblock : blockCommentLength? rest with
            | none => exact .inr (.inr (.inr ⟨rest, rfl, hblock⟩))
            | some n => exact .inl (by rw [blockCommentLength?_append hblock])
          · left
            have hnone (rest : List Char) : commentLength ('/' :: d :: rest) = 0 := by
              rw [commentLength] <;> simp_all
            rw [hnone, hnone]
      · exact .inl (by rw [commentLength_eq_zero hslash hhash, commentLength_eq_zero hslash hhash])

/-- The same without the exceptions. -/
theorem commentLength_append_of_ne (h : Parted s t)
    (hquestion : ∀ rest, s.drop (commentLength s) ≠ '?' :: rest)
    (hslash : commentLength s = 0 → ∀ rest, s ≠ '/' :: rest) :
    commentLength (s ++ t) = commentLength s := by
  rcases commentLength_append h with hsame | hq | hq | ⟨rest, rfl, hopen⟩
  · exact hsame
  · exact absurd hq (hquestion _)
  · exact absurd hq (hquestion _)
  · exact absurd rfl (hslash (by simp [commentLength, hopen]) _)

/-! ## Blanks and openings -/

theorem blankLength_le (s : List Char) : blankLength s ≤ s.length :=
  runLength_le isCodeBlank s

/-- Blanks that something follows are no more when more text follows. -/
theorem runLength_append_of_lt {q : Char → Bool} (hs : runLength q s < s.length) (t : List Char) :
    runLength q (s ++ t) = runLength q s := by
  unfold runLength at hs ⊢
  rw [List.takeWhile_append, if_neg (by omega)]

theorem runLength_append_of_eq {q : Char → Bool} (hs : runLength q s = s.length) (t : List Char) :
    runLength q (s ++ t) = s.length + runLength q t := by
  unfold runLength at hs ⊢
  rw [List.takeWhile_append, if_pos hs, List.length_append]

theorem gapLength_cons_eq_zero {c : Char} (hslash : c ≠ '/') (hhash : c ≠ '#')
    (hblank : isCodeBlank c = false) (fuel : Nat) (s : List Char) :
    gapLength fuel (c :: s) = 0 := by
  cases fuel with
  | zero => rfl
  | succ fuel =>
    simp [gapLength, blankLength, runLength, hblank, commentLength_eq_zero hslash hhash]

/-- With at least as much fuel as there are characters, the gap does not depend on it. -/
theorem gapLength_fuel {fuel : Nat} {s : List Char} (hfuel : s.length ≤ fuel) (more : Nat) :
    gapLength (fuel + more) s = gapLength fuel s := by
  induction fuel generalizing s with
  | zero =>
    have hs : s = [] := List.eq_nil_of_length_eq_zero (by omega)
    subst hs
    cases more <;> rfl
  | succ fuel ih =>
    rw [Nat.add_right_comm]
    unfold gapLength
    simp only
    split
    · rfl
    · rename_i hn
      rw [ih]
      rw [List.length_drop]
      omega

theorem gapLength_succ (fuel : Nat) (s : List Char) :
    gapLength (fuel + 1) s =
      if max (blankLength s) (commentLength s) = 0 then 0
      else max (blankLength s) (commentLength s) +
        gapLength fuel (s.drop (max (blankLength s) (commentLength s))) :=
  rfl

theorem blankLength_cons_eq_zero {c : Char} (hc : isCodeBlank c = false) (s : List Char) :
    blankLength (c :: s) = 0 := by
  simp [blankLength, runLength, hc]

/-- Blanks and a comment do not begin at one place. -/
theorem commentLength_of_blank {s : List Char} (h : blankLength s ≠ 0) : commentLength s = 0 := by
  cases s with
  | nil => rfl
  | cons c s =>
    have hc : isCodeBlank c = true := by
      cases hc : isCodeBlank c
      · exact absurd (blankLength_cons_eq_zero hc s) h
      · rfl
    exact commentLength_eq_zero (fun he => by simp [he, isCodeBlank, isPlainBlank] at hc)
      (fun he => by simp [he, isCodeBlank, isPlainBlank] at hc) s

/-- A gap that something else than a slash or a question mark follows is the same when more text
follows. -/
theorem gapLength_append (h : Parted s t) {fuel : Nat} {c : Char} {rest : List Char}
    (hrest : s.drop (gapLength fuel s) = c :: rest) (hslash : c ≠ '/') (hquestion : c ≠ '?') :
    gapLength fuel (s ++ t) = gapLength fuel s := by
  induction fuel generalizing s with
  | zero => rfl
  | succ fuel ih =>
    have hlt : gapLength (fuel + 1) s < s.length := by
      refine Nat.lt_of_not_le fun hge => ?_
      rw [List.drop_eq_nil_of_le hge] at hrest
      nomatch hrest
    rw [gapLength_succ] at hrest hlt
    rw [gapLength_succ, gapLength_succ]
    generalize hn : max (blankLength s) (commentLength s) = n at hrest hlt ⊢
    have hle : n < s.length := by
      split at hlt <;> omega
    have hrest' (hn0 : n ≠ 0) : (s.drop n).drop (gapLength fuel (s.drop n)) = c :: rest := by
      rw [List.drop_drop]
      rwa [if_neg hn0] at hrest
    have hblank : blankLength (s ++ t) = blankLength s :=
      runLength_append_of_lt (by unfold blankLength at hn; omega) t
    have hnoQuestion : ∀ r, s.drop (commentLength s) ≠ '?' :: r := by
      intro r hr
      by_cases hzero : commentLength s = 0
      · rw [hzero] at hr
        cases hr
        rw [blankLength_cons_eq_zero (by decide), hzero] at hn
        subst hn
        exact hquestion (List.cons.inj hrest).1.symm
      · have hblank : blankLength s = 0 :=
          Decidable.byContradiction fun hblank => hzero (commentLength_of_blank hblank)
        have hcomment : commentLength s = n := by omega
        have hrest := hrest' (by omega)
        rw [← hcomment, hr, gapLength_cons_eq_zero (by decide) (by decide) (by decide)] at hrest
        exact hquestion (List.cons.inj hrest).1.symm
    have hnoSlash (hzero : commentLength s = 0) : ∀ r, s ≠ '/' :: r := by
      rintro r rfl
      rw [blankLength_cons_eq_zero (by decide), hzero] at hn
      subst hn
      exact hslash (List.cons.inj hrest).1.symm
    have hcomment := commentLength_append_of_ne h hnoQuestion hnoSlash
    rw [hblank, hcomment, hn]
    split
    · rfl
    · rename_i hn0
      have hdrop : (s ++ t).drop n = s.drop n ++ t := List.drop_append_of_le_length (by omega)
      rw [hdrop, ih (h.drop hle) (hrest' hn0)]

/-- The same for a gap further on in the text, with fuel for all of it. -/
theorem gapLength_drop_append (h : Parted s t) {n : Nat} {c : Char} {rest : List Char}
    (hrest : s.drop (n + gapLength s.length (s.drop n)) = c :: rest) (hslash : c ≠ '/')
    (hquestion : c ≠ '?') :
    gapLength (s ++ t).length ((s ++ t).drop n) = gapLength s.length (s.drop n) := by
  have hn : n < s.length := by
    refine Nat.lt_of_not_le fun hge => ?_
    rw [List.drop_eq_nil_of_le (by omega)] at hrest
    nomatch hrest
  have hfuel : gapLength (s.length + t.length) (s.drop n) = gapLength s.length (s.drop n) :=
    gapLength_fuel (by rw [List.length_drop]; omega) _
  have hsame : gapLength (s.length + t.length) (s.drop n ++ t) =
      gapLength (s.length + t.length) (s.drop n) := by
    have hbehind : (s.drop n).drop (gapLength (s.length + t.length) (s.drop n)) = c :: rest := by
      rwa [hfuel, List.drop_drop]
    exact gapLength_append (h.drop hn) hbehind hslash hquestion
  rw [List.length_append, List.drop_append_of_le_length (by omega), hsame, hfuel]

/-! ## The opening of a literal of several lines

An opening has a front part, up to where its delimiter begins, and a back part. -/

/-- Where the first gap of an opening ends. -/
def openingGap (s : List Char) : Nat :=
  3 + gapLength s.length (s.drop 3)

/-- The quote there, if there is one. -/
def openingMark? (s : List Char) : Option Char :=
  (s.drop (openingGap s)).head?.filter fun c => c == '\'' || c == '"'

/-- Where the delimiter begins. -/
def delimiterStart (s : List Char) : Nat :=
  if (openingMark? s).isSome then
    openingGap s + 1 + gapLength s.length (s.drop (openingGap s + 1))
  else openingGap s

/-- The opening, from its mark, the place of the delimiter and the text from there on. -/
def openingAt? (mark : Option Char) (start : Nat) (s : List Char) : Option LineOpening :=
  let delimiter := s.takeWhile isDelimiterChar
  let stop := start + delimiter.length
  let next := (s.drop delimiter.length).head?
  if delimiter.isEmpty then none
  else if mark = some '\'' then
    if next = some '\'' then some ⟨.nowdoc, stop + 1, delimiter⟩ else none
  else some ⟨.heredoc, if next = some '"' then stop + 1 else stop, delimiter⟩

theorem lineOpening?_eq (s : List Char) :
    lineOpening? s =
      if beginsWith "<<<" s then
        openingAt? (openingMark? s) (delimiterStart s) (s.drop (delimiterStart s))
      else none := by
  unfold lineOpening? openingAt?
  simp only [List.drop_drop]
  rfl

theorem endsAtLine_openingAt? (mark : Option Char) (start : Nat) :
    EndsAtLine (openingAt? mark start) := by
  have hdelimiter := endsAtLine_takeWhile (q := isDelimiterChar) (by decide)
  have hlength (s : List Char) : (s.takeWhile isDelimiterChar).length ≤ s.length :=
    runLength_le isDelimiterChar s
  have hnext (c : Char) (hc : c ≠ '\n') : EndsAtLine fun s =>
      decide ((s.drop (s.takeWhile isDelimiterChar).length).head? = some c) :=
    (endsAtLine_head? (g := fun d => decide (d = some c)) (by simp [hc.symm])).drop
      (hdelimiter.comp List.length) hlength
  intro p u
  have hd := hdelimiter p u
  have hsingle := hnext '\'' (by decide) p u
  have hdouble := hnext '"' (by decide) p u
  simp only [decide_eq_decide] at hd hsingle hdouble
  simp only [openingAt?, hd] at hsingle hdouble ⊢
  simp only [hsingle, hdouble]

theorem openingAt?_eq_some {mark : Option Char} {start : Nat} {o : LineOpening}
    (h : openingAt? mark start s = some o) :
    o.delimiter = s.takeWhile isDelimiterChar ∧ o.delimiter ≠ [] := by
  unfold openingAt? at h
  simp only at h
  split at h
  · nomatch h
  · rename_i hempty
    have hne : s.takeWhile isDelimiterChar ≠ [] := by simpa using hempty
    split at h
    · split at h
      · cases h; exact ⟨rfl, hne⟩
      · nomatch h
    · cases h; exact ⟨rfl, hne⟩

/-- Where a delimiter follows, an opening reaches it in the same way. -/
theorem delimiterStart_append (h : Parted s t) {d : Char} {rest : List Char}
    (hstart : s.drop (delimiterStart s) = d :: rest) (hd : isDelimiterChar d = true) :
    openingMark? (s ++ t) = openingMark? s ∧ delimiterStart (s ++ t) = delimiterStart s := by
  have hslash : d ≠ '/' := fun he => by simp [he, isDelimiterChar] at hd
  have hquestion : d ≠ '?' := fun he => by simp [he, isDelimiterChar] at hd
  cases hmark : openingMark? s with
  | none =>
    have hgap : s.drop (openingGap s) = d :: rest := by
      rwa [delimiterStart, hmark, if_neg (by decide)] at hstart
    have hgap' : openingGap (s ++ t) = openingGap s :=
      congrArg (3 + ·) (gapLength_drop_append h hgap hslash hquestion)
    have hmark' : openingMark? (s ++ t) = none := by
      have hlength : openingGap s ≤ s.length := by
        refine Nat.le_of_not_lt fun hlt => ?_
        rw [List.drop_eq_nil_of_le (by omega)] at hgap
        nomatch hgap
      rw [← hmark, openingMark?, openingMark?, hgap', List.drop_append_of_le_length hlength, hgap]
      rfl
    simp only [hmark', delimiterStart, hmark, hgap', true_and]
    rfl
  | some c =>
    obtain ⟨hc, hquote⟩ := Option.filter_eq_some_iff.mp hmark
    obtain ⟨front, hgap⟩ : ∃ front, s.drop (openingGap s) = c :: front := by
      cases hdrop : s.drop (openingGap s) with
      | nil => simp [hdrop] at hc
      | cons c' front => exact ⟨front, by simp_all⟩
    have hcslash : c ≠ '/' := fun he => by simp [he] at hquote
    have hcquestion : c ≠ '?' := fun he => by simp [he] at hquote
    have hgap' : openingGap (s ++ t) = openingGap s :=
      congrArg (3 + ·) (gapLength_drop_append h hgap hcslash hcquestion)
    have hlength : openingGap s ≤ s.length := by
      refine Nat.le_of_not_lt fun hlt => ?_
      rw [List.drop_eq_nil_of_le (by omega)] at hgap
      nomatch hgap
    have hmark' : openingMark? (s ++ t) = some c := by
      rw [← hmark, openingMark?, openingMark?, hgap', List.drop_append_of_le_length hlength, hgap]
      rfl
    rw [delimiterStart, hmark, Option.isSome_some, if_pos rfl] at hstart
    simp only [hmark', delimiterStart, hmark, hgap', true_and, Option.isSome_some, if_true]
    rw [gapLength_drop_append h hstart hslash hquestion]

/-- The opening of a literal of several lines is read the same. -/
theorem lineOpening?_append (h : Parted s t) {o : LineOpening} (hs : lineOpening? s = some o) :
    lineOpening? (s ++ t) = some o := by
  rw [lineOpening?_eq] at hs ⊢
  rw [beginsWith_append h (by decide)]
  split at hs
  case isFalse => nomatch hs
  case isTrue hbegins =>
    rw [if_pos hbegins]
    obtain ⟨hdelimiter, hne⟩ := openingAt?_eq_some hs
    cases hstart : s.drop (delimiterStart s) with
    | nil => simp [hdelimiter, hstart] at hne
    | cons d rest =>
      have hd : isDelimiterChar d = true := by
        cases hd : isDelimiterChar d
        · simp [hdelimiter, hstart, hd] at hne
        · rfl
      obtain ⟨hmark, hstart'⟩ := delimiterStart_append h hstart hd
      have hlt : delimiterStart s < s.length := by
        refine Nat.lt_of_not_le fun hge => ?_
        rw [List.drop_eq_nil_of_le hge] at hstart
        nomatch hstart
      rw [hmark, hstart', List.drop_append_of_le_length (by omega),
        (endsAtLine_openingAt? _ _).append (h.drop hlt), hs]

end

end Php
end SiteSettings
