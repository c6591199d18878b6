import SiteSettings.Proofs.Php.Settling

/-!
# Reading on behind a template

What is appended to a template begins behind a line end.  A template that is read without going
back is then read in the same steps (`Reader.Reads`), since hardly anything at its end could be
read together with what follows: a complete text ends in a semicolon, a brace, a colon or a closing
tag.  Only blanks go on, and plain text behind the last closing tag goes on up to the opening tag
that is appended to it.

Some texts look as if they could go on, but no reading that ends with them is complete: a
question mark at the end of a comment, a block comment that is not closed, angle brackets that no
delimiter follows.
-/

namespace SiteSettings
namespace Php
namespace Reader

variable {r r' last : Reader} {p : Place} {s t : List Char} {fuel n : Nat}

/-! ## Texts that no reading ends with -/

theorem endAtTag_of_not_tagFollows (h : tagFollows s = false) : r.endAtTag s = r := by
  simp [Reader.endAtTag, h]

theorem tagFollows_of_not_mem (h : '>' ∉ s) : tagFollows s = false := by
  refine Bool.eq_false_iff.mpr fun htag => h ?_
  have hmem : '>' ∈ afterGap false s :=
    List.IsPrefix.subset (List.isPrefixOf_iff_prefix.mp htag) (by decide)
  exact (afterGap_suffix false s).subset hmem

theorem interruption?_of_not_mem (h : '>' ∉ s) : interruption? s = none :=
  if_neg fun htag => h (List.IsPrefix.subset (List.isPrefixOf_iff_prefix.mp htag) (by decide))

theorem Stands.uses_eq_false (hr : r.Stands p) {t : Terminal} (hafter : p.after? t = none)
    (hfinal : p.isFinal = false) : r.uses t = false := by
  have hend : r.ways.canEnd = false :=
    Bool.eq_false_iff.mpr fun hend => by rw [hr.fit.isFinal hend] at hfinal; nomatch hfinal
  rw [uses, hr.fit.after?_eq_none hafter, hend]
  rfl

/-- In a literal a text is not complete. -/
theorem Stands.of_textPlace? (hr : r.Stands p) {place : TextPlace}
    (hplace : r.ways.textPlace? = some place) :
    Rule.isBehindOperand p = true ∧ p.isFinal = false := by
  obtain ⟨hframe, hbehind⟩ := hr.fit.of_textPlace? hplace
  refine ⟨hbehind, ?_⟩
  have hframes : p.frames.isEmpty = false := by
    cases hp : p.frames with
    | nil => rw [hp] at hframe; nomatch hframe
    | cons f frames => rfl
  rw [Place.isFinal, Place.isOutermost, hframes]
  rfl

/-- Question marks and carriage returns. -/
def IsSilent (s : List Char) : Prop :=
  ∀ c ∈ s, c = '?' ∨ c = '\r'

theorem IsSilent.not_mem (hs : IsSilent s) {c : Char} (hc : c ∉ ['?', '\r']) : c ∉ s :=
  fun hmem => hc (by simpa using hs c hmem)

/-- What is taken from such a text leads to a place that is not final, and nothing else
changes the place. -/
theorem Stands.moves_silent (hr : r.Stands p) (hs : IsSilent s)
    (hp : s.head? = some '?' ∨ p.isFinal = false) (hmoves : r.Moves s r' n) :
    ∃ q, r'.Stands q ∧ q.isFinal = false := by
  cases hmoves with
  | pass hgap hstarts hlengths =>
    refine ⟨p, hr.pass _ _, hp.resolve_left fun hhead => ?_⟩
    obtain ⟨rest, rfl⟩ := List.head?_eq_some_iff.mp hhead
    rcases hstarts with hblank | hcomment
    · exact hblank (blankLength_cons_eq_zero (by decide) rest)
    · exact hcomment (commentLength_eq_zero (by decide) (by decide) rest)
  | plain hinterruption =>
    rw [interruption?_of_not_mem (hs.not_mem (by decide))] at hinterruption
    nomatch hinterruption
  | take hspelled htake =>
    obtain ⟨q, hq, p₀, hafter⟩ := hr.take? htake
    refine ⟨q, hq, Bool.eq_false_iff.mpr fun hfinal => ?_⟩
    obtain ⟨-, c, hc, hhead⟩ :=
      hspelled.head?_of_canFinish (Place.canFinish_of_isFinal hafter hfinal)
    rcases hs c (List.mem_of_mem_head? hhead) with rfl | rfl
    · exact absurd hc (by decide)
    · exact absurd hc (by decide)
  | openLines ho htake =>
    rw [lineOpening?_eq] at ho
    split at ho
    · next hbegins =>
      have hangle : '<' ∈ s :=
        List.IsPrefix.subset (List.isPrefixOf_iff_prefix.mp hbegins) (by decide)
      exact absurd hangle (hs.not_mem (by decide))
    · nomatch ho

theorem Stands.ne_nil_of_settle? (hr : r.Stands p) (hp : s.head? = some '?' ∨ p.isFinal = false)
    (h : settle? fuel r s = some last) : s ≠ [] := by
  rintro rfl
  rw [hr.fit.isFinal (settle?_nil h).2] at hp
  simp at hp

/-- Question marks and carriage returns complete no text. -/
theorem Stands.settle?_silent (hr : r.Stands p) (hs : IsSilent s)
    (hp : s.head? = some '?' ∨ p.isFinal = false) : settle? fuel r s ≠ some last := by
  intro h
  induction fuel generalizing r p s with
  | zero =>
    obtain ⟨_, _, _, _, hfuel, -⟩ := settle?_cons (hr.ne_nil_of_settle? hp h) h
    nomatch hfuel
  | succ fuel ih =>
    obtain ⟨_, r', n, others, hfuel, hsteps, hsettle, -⟩ :=
      settle?_cons (hr.ne_nil_of_settle? hp h) h
    cases hfuel
    have htag := tagFollows_of_not_mem (hs.not_mem (c := '>') (by decide))
    have hmoves := moves_of_mem_steps (hsteps ▸ List.mem_cons_self)
    rw [endAtTag_of_not_tagFollows htag, or_self] at hmoves
    obtain ⟨q, hq, hfinal⟩ := hr.moves_silent hs hp hmoves
    exact ih hq (fun c hc => hs c (List.mem_of_mem_drop hc)) (.inr hfinal) hsettle

/-- At an asterisk, and at an angle bracket that opens no literal, there are only lexemes. -/
theorem stepCode_operator {c : Char} {rest : List Char}
    (hc : c = '*' ∨ c = '<' ∧ beginsWith "<<<" (c :: rest) = false) :
    r.stepCode (c :: rest) = r.firstUsable (c :: rest)
      (codeLexemes (r.blanks == 0) (c :: rest)) := by
  have hopening : lineOpening? (c :: rest) = none := by
    rw [lineOpening?_eq]
    rcases hc with rfl | ⟨rfl, hc⟩
    · rfl
    · rw [hc]
      rfl
  have hchar : c ∉ ['/', '#', '?'] ∧ isCodeBlank c = false := by
    rcases hc with rfl | ⟨rfl, -⟩ <;> decide
  simp only [List.mem_cons, List.not_mem_nil, or_false, not_or] at hchar
  obtain ⟨⟨hslash, hhash, hquestion⟩, hblank⟩ := hchar
  have htag : beginsWith "?>" (c :: rest) = false := by
    simp [beginsWith, List.isPrefixOf, Ne.symm hquestion]
  have htag' : tagFollows (c :: rest) = false := by
    rcases hc with rfl | ⟨rfl, -⟩ <;> rfl
  have hattribute : beginsWith "#[" (c :: rest) = false := by
    simp [beginsWith, List.isPrefixOf, Ne.symm hhash]
  rw [stepCode_dense (by simp [interruption?, htag]) (blankLength_cons_eq_zero hblank rest),
    endAtTag_of_not_tagFollows htag', stepDense, hattribute]
  simp [comment?, commentLength_eq_zero hslash hhash, openLines?, hopening]

/-- Behind an operator stands none that could be one with it. -/
theorem Stands.firstOf_operator (hr : r.Stands p) (hp : p.last = .operator) {c : Char}
    (hc : c = '*' ∨ c = '<') (tight : Bool) (rest : List Char) :
    firstOf r.uses (codeLexemes tight (c :: rest)) = none := by
  have hfinal : p.isFinal = false := by
    rw [Place.isFinal, hp]
    cases p.isOutermost <;> rfl
  refine List.find?_eq_none.mpr fun l hl => ?_
  obtain ⟨m, hm, hbegins, rfl⟩ := mark_of_mem_codeLexemes
    (by rcases hc with rfl | rfl <;> decide) (by rcases hc with rfl | rfl <;> decide) hl
  have hhead := head?_of_beginsWith hm hbegins
  have hkind := kind_of_operator hm (by rcases hc with rfl | rfl <;> simp [hhead])
  have hafter : p.after? (.mark m) = none := by
    rw [Place.after?, hp]
    rcases hkind with hkind | hkind <;>
      simp [Terminal.kind, hkind, Place.admits, Place.afterKind?, hp]
  rw [hr.uses_eq_false hafter hfinal]
  exact Bool.false_ne_true

/-- An operator and what would make it the start of a comment or of a literal do not go together. -/
theorem Stands.settle?_operator (hr : r.Stands p) (hp : p.last = .operator) {c : Char}
    {rest : List Char} (hc : c = '*' ∨ c = '<' ∧ beginsWith "<<<" (c :: rest) = false) :
    settle? fuel r (c :: rest) ≠ some last := by
  intro h
  have hplace : r.ways.textPlace? = none := by
    by_contra hplace
    obtain ⟨place, hplace⟩ := Option.ne_none_iff_exists'.mp hplace
    have hbehind := (hr.of_textPlace? hplace).1
    rw [Rule.isBehindOperand, hp] at hbehind
    cases hbehind
  obtain ⟨_, r', n, others, -, hsteps, -⟩ := settle?_cons (List.cons_ne_nil c rest) h
  rw [steps_code hplace, stepCode_operator hc, firstUsable_eq,
    hr.firstOf_operator hp (hc.imp_right And.left)] at hsteps
  cases hsteps

/-! ## A step in front of more text -/

/-- A step that is read on from takes no more than there is, and less if it completes no text. -/
theorem Stands.length_lt (hr : r.Stands p) {l : Lexeme} (htake : r.take? l s = some r')
    (hend : s.drop l.length = [] → r'.ways.canEnd = true) :
    l.length < s.length ∨ l.terminal.kind.canFinish = true :=
  (Nat.lt_or_ge l.length s.length).imp_right fun hge =>
    hr.isFinal_of_take? htake (hend (List.drop_eq_nil_of_le hge))

theorem canEnd_of_settle? (h : settle? fuel r s = some last) (hs : s = []) :
    r.ways.canEnd = true := by
  subst hs
  exact (settle?_nil h).2

theorem take?_append {l : Lexeme} (hl : l.length ≤ s.length) (t : List Char) :
    r.take? l (s ++ t) = r.take? l s := by
  rw [Reader.take?, Reader.take?, List.take_append_of_le_length hl]

/-- A comment that is read on from ends where it ends in front of more text. -/
theorem Stands.commentLength_append (hr : r'.Stands p) (h : Parted s t) (hn : commentLength s ≠ 0)
    (hsettle : settle? fuel r' (s.drop (commentLength s)) = some last) :
    commentLength (s ++ t) = commentLength s := by
  rcases Php.commentLength_append h with hsame | hquestion | hquestion | ⟨rest, rfl, hopen⟩
  · exact hsame
  · rw [hquestion] at hsettle
    exact absurd hsettle (hr.settle?_silent (by simp [IsSilent]) (.inl rfl))
  · rw [hquestion] at hsettle
    exact absurd hsettle (hr.settle?_silent (by simp [IsSilent]) (.inl rfl))
  · simp [commentLength, hopen] at hn

theorem last_of_operator {q : Place} {m : Terminal} (hm : m.kind = .operator)
    (h : p.after? m = some q) : q.last = .operator := by
  unfold Place.after? at h
  rw [hm] at h
  simp only [Place.afterKind?] at h
  repeat' split at h
  all_goals first | (cases h; rfl) | cases h

/-- Behind a mark that could begin a comment or a literal, the text does not go on as if it did. -/
theorem Stands.settle?_mark (hr : r.Stands p) {l : Lexeme} (htake : r.take? l s = some r')
    (hl : l.terminal.kind = .operator) {c : Char} {rest : List Char}
    (hrest : s.drop l.length = c :: rest)
    (hc : c = '*' ∨ c = '<' ∧ beginsWith "<<<" (c :: rest) = false) :
    settle? fuel r' (s.drop l.length) ≠ some last := by
  obtain ⟨q, hq, p₀, hafter⟩ := hr.take? htake
  rw [hrest]
  exact hq.settle?_operator (last_of_operator hl hafter) hc

theorem isPrefixOf_take {m : String} (h : beginsWith m s = true) (n : Nat) :
    (m.toList.take n).isPrefixOf (s.take n) = true := by
  obtain ⟨u, rfl⟩ := List.isPrefixOf_iff_prefix.mp h
  exact List.isPrefixOf_iff_prefix.mpr ⟨u.take (n - m.toList.length), by rw [List.take_append]⟩

/-- Where no comment begins, none begins in front of more text. -/
theorem Stands.commentLength_append_eq_zero (hr : r.Stands p) (h : Parted s t)
    (hn : commentLength s = 0) {tight : Bool}
    (hstep : lineOpening? s = none → r.firstUsable s (codeLexemes tight s) = some (r', n))
    (hsettle : settle? fuel r' (s.drop n) = some last) : commentLength (s ++ t) = 0 := by
  rcases Php.commentLength_append h with hsame | hquestion | hquestion | ⟨rest, rfl, hopen⟩
  · rw [hsame, hn]
  · rw [hn, List.drop_zero] at hquestion
    rw [hquestion]
    exact commentLength_eq_zero (by decide) (by decide) t
  · rw [hn, List.drop_zero] at hquestion
    rw [hquestion]
    exact commentLength_eq_zero (by decide) (by decide) ('\r' :: t)
  · -- the comment is not closed, so it is not read as one
    obtain ⟨l, hl, htake, rfl⟩ := firstUsable_eq_some.mp (hstep rfl)
    obtain ⟨m, hm, hbegins, rfl⟩ :=
      mark_of_mem_codeLexemes (by decide) (by decide) (List.mem_of_find?_eq_some hl)
    have hslash : m = "/" := by
      have hall :
          (marks.all fun m => !(m.toList.take 2).isPrefixOf ['/', '*'] || m = "/") = true := by
        decide
      have htake : (m.toList.take 2).isPrefixOf ['/', '*'] = true := isPrefixOf_take hbegins 2
      simpa [htake] using List.all_eq_true.mp hall m hm
    subst hslash
    exact absurd hsettle (hr.settle?_mark htake rfl rfl (.inl rfl))

theorem lineOpening?_angles (rest : List Char) :
    lineOpening? ('<' :: '<' :: '<' :: '<' :: rest) = none := by
  have hgap : openingGap ('<' :: '<' :: '<' :: '<' :: rest) = 3 := by
    rw [openingGap, List.drop_succ_cons, List.drop_succ_cons, List.drop_succ_cons, List.drop_zero,
      gapLength_cons_eq_zero (by decide) (by decide) (by decide)]
  have hmark : openingMark? ('<' :: '<' :: '<' :: '<' :: rest) = none := by
    rw [openingMark?, hgap]
    rfl
  rw [lineOpening?_eq, delimiterStart, hmark, hgap]
  rfl

/-- Where no literal of several lines begins, none begins in front of more text. -/
theorem Stands.lineOpening?_append_of_none (hr : r.Stands p) (h : Parted s t)
    (hnone : lineOpening? s = none) {tight : Bool}
    (hstep : r.firstUsable s (codeLexemes tight s) = some (r', n))
    (hsettle : settle? fuel r' (s.drop n) = some last) : lineOpening? (s ++ t) = none := by
  cases hbegins : beginsWith "<<<" s with
  | false =>
    rw [lineOpening?_eq, beginsWith_append h (by decide), hbegins]
    rfl
  | true =>
    obtain ⟨rest, rfl⟩ : ∃ rest, s = '<' :: '<' :: '<' :: rest := by
      obtain ⟨rest, hrest⟩ := List.isPrefixOf_iff_prefix.mp hbegins
      exact ⟨rest, hrest.symm⟩
    by_cases hmore : rest.head? = some '<'
    · obtain ⟨rest, rfl⟩ : ∃ more, rest = '<' :: more := by
        cases rest with
        | nil => nomatch hmore
        | cons c more => exact ⟨more, by rw [Option.some.inj hmore]⟩
      exact lineOpening?_angles _
    · obtain ⟨l, hl, htake, rfl⟩ := firstUsable_eq_some.mp hstep
      obtain ⟨m, hm, hbegins', rfl⟩ :=
        mark_of_mem_codeLexemes (by decide) (by decide) (List.mem_of_find?_eq_some hl)
      have hangles : m = "<<" ∨ m = "<" := by
        have hall : (marks.all fun m =>
            !(m.toList.take 3).isPrefixOf ['<', '<', '<'] || (m = "<<" || m = "<")) = true := by
          decide
        have htake : (m.toList.take 3).isPrefixOf ['<', '<', '<'] = true :=
          isPrefixOf_take hbegins' 3
        simpa [htake] using List.all_eq_true.mp hall m hm
      -- what is left behind either mark begins no literal
      have hone : beginsWith "<<<" ('<' :: rest) = false ∧
          beginsWith "<<<" ('<' :: '<' :: rest) = false := by
        simp only [beginsWith, Bool.eq_false_iff, ne_eq, List.isPrefixOf_iff_prefix]
        cases rest with
        | nil => exact ⟨by decide, by decide⟩
        | cons c more =>
          have hc : '<' ≠ c := fun hc => hmore (by rw [hc]; rfl)
          constructor
          · show ¬ ['<', '<', '<'] <+: _
            simp [List.cons_prefix_cons, hc]
          · show ¬ ['<', '<', '<'] <+: _
            simp [List.cons_prefix_cons, hc]
      rcases hangles with rfl | rfl
      · exact absurd hsettle (hr.settle?_mark htake rfl rfl (.inr ⟨rfl, hone.1⟩))
      · exact absurd hsettle (hr.settle?_mark htake rfl rfl (.inr ⟨rfl, hone.2⟩))

theorem Stands.firstUsable_append (hr : r.Stands p) (h : Parted s t) {tight : Bool}
    (hstep : r.firstUsable s (codeLexemes tight s) = some (r', n))
    (hsettle : settle? fuel r' (s.drop n) = some last) :
    r.firstUsable (s ++ t) (codeLexemes tight (s ++ t)) = some (r', n) ∧ n ≤ s.length := by
  obtain ⟨l, hl, htake, rfl⟩ := firstUsable_eq_some.mp hstep
  have hle : l.length ≤ s.length := by
    rcases hr.length_lt htake (canEnd_of_settle? hsettle) with hlt | hfinish
    · exact Nat.le_of_lt hlt
    · obtain ⟨hone, c, -, hhead⟩ := head?_of_canFinish (List.mem_of_find?_eq_some hl) hfinish
      cases s with
      | nil => nomatch hhead
      | cons c rest => rw [hone]; simp
  refine ⟨firstUsable_eq_some.mpr ⟨l, ?_, ?_, rfl⟩, hle⟩
  · rwa [(endsAtLine_codeLexemes tight).append h]
  · rwa [take?_append hle t]

theorem firstUsable_append_of_none (h : Parted s t) {tight : Bool}
    (hnone : r.firstUsable s (codeLexemes tight s) = none) :
    r.firstUsable (s ++ t) (codeLexemes tight (s ++ t)) = none := by
  rw [firstUsable_eq, Option.bind_eq_none_iff] at hnone ⊢
  rw [(endsAtLine_codeLexemes tight).append h]
  intro l hl
  have hsome := r.take?_isSome l (s ++ t)
  have hnone' := hnone l hl
  rw [Option.map_eq_none_iff, ← Option.isNone_iff_eq_none, ← Option.not_isSome] at hnone' ⊢
  rwa [hsome, ← r.take?_isSome l s]

theorem Stands.openLines?_append (hr : r.Stands p) (h : Parted s t)
    (hstep : r.openLines? s = some (r', n)) (hsettle : settle? fuel r' (s.drop n) = some last) :
    r.openLines? (s ++ t) = some (r', n) ∧ n ≤ s.length := by
  unfold openLines? at hstep
  simp only [Option.bind_eq_bind, Option.bind_eq_some_iff, Option.some.injEq,
    Prod.mk.injEq] at hstep
  obtain ⟨o, ho, r₁, htake, rfl, rfl⟩ := hstep
  have hle : o.length ≤ s.length := by
    have hend := canEnd_of_settle? hsettle
    rcases hr.length_lt htake hend with hlt | hfinish
    · exact Nat.le_of_lt hlt
    · nomatch hfinish
  have htake' := (take?_append (l := ⟨.opening o.quote, o.length⟩) hle t).trans htake
  exact ⟨by simp [openLines?, lineOpening?_append h ho, htake'], hle⟩

theorem Stands.openLines?_append_of_none (hr : r.Stands p) (h : Parted s t)
    (hnone : r.openLines? s = none) {tight : Bool}
    (hstep : r.firstUsable s (codeLexemes tight s) = some (r', n))
    (hsettle : settle? fuel r' (s.drop n) = some last) : r.openLines? (s ++ t) = none := by
  unfold openLines? at hnone ⊢
  cases ho : lineOpening? s with
  | none =>
    rw [hr.lineOpening?_append_of_none h ho hstep hsettle]
    rfl
  | some o =>
    have hsome := r.take?_isSome ⟨.opening o.quote, o.length⟩ (s ++ t)
    rw [← r.take?_isSome ⟨.opening o.quote, o.length⟩ s] at hsome
    rw [lineOpening?_append h ho]
    cases htake : r.take? ⟨.opening o.quote, o.length⟩ s with
    | none =>
      rw [htake] at hsome
      have htake' : r.take? ⟨.opening o.quote, o.length⟩ (s ++ t) = none := by simpa using hsome
      simp [htake']
    | some r₁ => simp [ho, htake] at hnone

/-- A step among lexemes is the same in front of more text. -/
theorem Stands.stepDense_append (hr : r.Stands p) (h : Parted s t)
    (hstep : r.stepDense s = some (r', n)) (hsettle : settle? fuel r' (s.drop n) = some last) :
    r.stepDense (s ++ t) = some (r', n) ∧ n ≤ s.length := by
  have hcomment : r.comment? s = some (r', n) →
      r.comment? (s ++ t) = some (r', n) ∧ n ≤ s.length := by
    intro hsome
    unfold comment? at hsome ⊢
    simp only [Option.ite_none_left_eq_some, Option.some.injEq, Prod.mk.injEq] at hsome
    obtain ⟨hn, rfl, rfl⟩ := hsome
    have hlength := (hr.pass _ _).commentLength_append h hn hsettle
    rw [hlength, if_neg hn]
    exact ⟨rfl, commentLength_le s⟩
  unfold stepDense at hstep ⊢
  rw [beginsWith_append h (by decide)]
  split
  · next hbegins =>
    rw [if_pos hbegins] at hstep
    rcases Option.or_eq_some_iff.mp hstep with hstep | ⟨hnone, hstep⟩
    · obtain ⟨hsame, hle⟩ := hr.firstUsable_append h hstep hsettle
      exact ⟨Option.or_eq_some_iff.mpr (.inl hsame), hle⟩
    · obtain ⟨hsame, hle⟩ := hcomment hstep
      exact ⟨Option.or_eq_some_iff.mpr (.inr ⟨firstUsable_append_of_none h hnone, hsame⟩), hle⟩
  · next hbegins =>
    rw [if_neg hbegins] at hstep
    rcases Option.or_eq_some_iff.mp hstep with hstep | ⟨hnone, hstep⟩
    · obtain ⟨hsame, hle⟩ := hcomment hstep
      exact ⟨Option.or_eq_some_iff.mpr (.inl hsame), hle⟩
    · have hzero : commentLength s = 0 := by
        simpa [comment?] using hnone
      have hnone' : r.comment? (s ++ t) = none := by
        have hfirst : lineOpening? s = none →
            r.firstUsable s (codeLexemes (r.blanks == 0) s) = some (r', n) := fun hopening => by
          simpa [openLines?, hopening] using hstep
        simp [comment?, hr.commentLength_append_eq_zero h hzero hfirst hsettle]
      rw [hnone', Option.none_or]
      rcases Option.or_eq_some_iff.mp hstep with hstep | ⟨hunopened, hstep⟩
      · obtain ⟨hsame, hle⟩ := hr.openLines?_append h hstep hsettle
        exact ⟨Option.or_eq_some_iff.mpr (.inl hsame), hle⟩
      · obtain ⟨hsame, hle⟩ := hr.firstUsable_append h hstep hsettle
        have hunopened' := hr.openLines?_append_of_none h hunopened hstep hsettle
        exact ⟨Option.or_eq_some_iff.mpr (.inr ⟨hunopened', hsame⟩), hle⟩

/-! ## A step in a literal -/

/-- What is appended: some line ends, and then a block comment or an opening tag. -/
def IsAddition (t : List Char) : Prop :=
  ∃ m c rest, t = List.replicate m '\n' ++ c :: rest ∧ (c = '/' ∧ rest.head? = some '*' ∨ c = '<')

theorem runLength_newlines {q : Char → Bool} (hq : q '\n' = true) {c : Char} (hc : q c = false)
    (m : Nat) (rest : List Char) : runLength q (List.replicate m '\n' ++ c :: rest) = m := by
  induction m with
  | zero => simp [runLength, hc]
  | succ m ih =>
    rw [List.replicate_succ, List.cons_append, runLength, List.takeWhile_cons, hq]
    exact congrArg (· + 1) ih

theorem IsAddition.drop_blanks (ht : IsAddition t) :
    ∃ c rest, t.drop (runLength isPlainBlank t) = c :: rest ∧ isDelimiterChar c = false := by
  obtain ⟨m, c, rest, rfl, hc⟩ := ht
  have hchar : c = '/' ∨ c = '<' := hc.imp_left And.left
  rw [runLength_newlines (by decide) (by rcases hchar with rfl | rfl <;> decide)]
  refine ⟨c, rest, by simp, ?_⟩
  rcases hchar with rfl | rfl <;> decide

theorem IsAddition.afterGap (ht : IsAddition t) :
    ∃ c rest, afterGap false t = c :: rest ∧ c ≠ '?' := by
  obtain ⟨m, c, rest, rfl, hc⟩ := ht
  refine ⟨c, rest, ?_, by rcases hc with ⟨rfl, -⟩ | rfl <;> decide⟩
  induction m with
  | zero => rcases hc with ⟨rfl, hstar⟩ | rfl <;> simp_all [Php.afterGap, isPlainBlank]
  | succ m ih =>
    rw [List.replicate_succ, List.cons_append, Php.afterGap]
    simpa [isPlainBlank] using ih

/-- A lexeme of a literal is the same in front of more text. -/
theorem Stands.textLexeme_append (hr : r.Stands p) (h : Parted s t) (ht : IsAddition t)
    (hne : s ≠ []) {place : TextPlace}
    (hstep : r.firstUsable s (textLexemes place r.delimiter s) = some (r', n))
    (hsettle : settle? fuel r' (s.drop n) = some last) :
    r.firstUsable (s ++ t) (textLexemes place r.delimiter (s ++ t)) = some (r', n) ∧
      n < s.length := by
  obtain ⟨l, hl, htake, rfl⟩ := firstUsable_eq_some.mp hstep
  have hlt : l.length < s.length := by
    rcases hr.length_lt htake (canEnd_of_settle? hsettle) with hlt | hfinish
    · exact hlt
    · rw [canFinish_of_mem_textLexemes (List.mem_of_find?_eq_some hl)] at hfinish
      nomatch hfinish
  refine ⟨firstUsable_eq_some.mpr
    ⟨l, ?_, (take?_append (Nat.le_of_lt hlt) t).trans htake, rfl⟩, hlt⟩
  have hline : ∀ {q behind}, firstOf r.uses (partOfLine? q behind r.delimiter s).toList = some l →
      firstOf r.uses (partOfLine? q behind r.delimiter (s ++ t)).toList = some l := by
    intro q behind hpart
    obtain ⟨hpart, huses⟩ := firstOf_toList.mp hpart
    exact firstOf_toList.mpr ⟨(partOfLine?_append h hr.delimiter hpart).2 hlt, huses⟩
  cases place with
  | opened q =>
    obtain ⟨hafter, huses⟩ := firstOf_toList.mp hl
    obtain ⟨c, rest, hrest, hc⟩ := ht.drop_blanks
    obtain ⟨l', hl', -, hsame⟩ := afterOpening?_append h hrest hc hafter
    exact firstOf_toList.mpr ⟨hl'.trans (congrArg some (hsame hlt)), huses⟩
  | lineStart q => exact lineStartLexemes_append h hne hr.delimiter hl hlt
  | inside q => exact hline hl
  | afterVariable q => exact hline hl
  | afterAccess q => exact hline hl

theorem firstUsable_toList_eq_none {o : Option Lexeme} :
    r.firstUsable s o.toList = none ↔ ∀ l, o = some l → r.uses l.terminal = false := by
  cases o with
  | none => simp [firstUsable]
  | some l =>
    have hnone : r.firstUsable s [l] = none ↔ r.take? l s = none := by
      cases htake : r.take? l s <;> simp [firstUsable, htake]
    rw [Option.toList_some, hnone, ← Option.isNone_iff_eq_none]
    simp [← r.take?_isSome l s]

/-- Blanks or a comment behind an opening are the same in front of more text. -/
theorem Stands.stepOpened_append (hr : r.Stands p) (h : Parted s t) (ht : IsAddition t) {q : Quote}
    (hplace : r.ways.textPlace? = some (.opened q))
    (hnone : r.firstUsable s (textLexemes (.opened q) r.delimiter s) = none)
    (hstep : r.stepOpened s = some (r', n)) (hsettle : settle? fuel r' (s.drop n) = some last) :
    r.firstUsable (s ++ t) (textLexemes (.opened q) r.delimiter (s ++ t)) = none ∧
      r.stepOpened (s ++ t) = some (r', n) ∧ n ≤ s.length := by
  obtain ⟨-, hrun, -⟩ := h.drop_lineBlanks
  unfold stepOpened at hstep ⊢
  rw [hrun]
  -- a literal is not complete, so it is not blanks that are read up to the end
  have hs : s.drop (runLength (fun c => isCodeBlank c && !isLineEnd c) s) ≠ [] := by
    intro hs
    by_cases hblanks : runLength (fun c => isCodeBlank c && !isLineEnd c) s = 0
    · rw [hblanks, List.drop_zero] at hs
      subst hs
      nomatch hstep
    · simp only [ne_eq, hblanks, not_false_eq_true, if_true, Option.some.injEq,
        Prod.mk.injEq] at hstep
      obtain ⟨rfl, rfl⟩ := hstep
      have hend := canEnd_of_settle? hsettle hs
      have hfinal := hr.fit.isFinal hend
      rw [(hr.of_textPlace? hplace).2] at hfinal
      nomatch hfinal
  constructor
  · obtain ⟨c, rest, hrest, hc⟩ := ht.drop_blanks
    refine firstUsable_toList_eq_none.mpr fun l' hl' => ?_
    cases hafter : afterOpening? q r.delimiter s with
    | none =>
      rw [afterOpening?_append_of_none h hrest hc hs hafter] at hl'
      nomatch hl'
    | some l =>
      obtain ⟨l'', hl'', hterminal, -⟩ := afterOpening?_append h hrest hc hafter
      rw [hl''] at hl'
      cases hl'
      rw [hterminal]
      exact firstUsable_toList_eq_none.mp hnone l hafter
  · simp only at hstep ⊢
    split at hstep
    · next hblanks =>
      cases hstep
      exact ⟨if_pos hblanks, runLength_le _ s⟩
    · next hblanks =>
      unfold comment? at hstep ⊢
      simp only [Option.ite_none_left_eq_some, Option.some.injEq, Prod.mk.injEq] at hstep
      obtain ⟨hn, rfl, rfl⟩ := hstep
      have hlength := (hr.pass _ _).commentLength_append h hn hsettle
      simp only [hblanks, if_false, hlength, hn, true_and, commentLength_le]

/-! ## Plain text in front of an opening tag -/

theorem IsAddition.newlines (m : Nat) {c : Char} {rest : List Char}
    (hc : c = '/' ∧ rest.head? = some '*' ∨ c = '<') :
    IsAddition (List.replicate m '\n' ++ c :: rest) :=
  ⟨m, c, rest, rfl, hc⟩

theorem IsAddition.endFollows (ht : IsAddition t) (h : s ≠ [] → Parted s t) :
    endFollows (s ++ t) = false := by
  obtain ⟨c, rest, hgap, -⟩ := ht.afterGap
  unfold Php.endFollows
  by_cases hs : s = []
  · rw [hs, List.nil_append, hgap]
    rfl
  · rw [afterGap_append (h hs), hgap]
    split
    · rfl
    · next hne => simp [hne]

theorem plainLength_cons (c : Char) (s : List Char) :
    (plainLength (c :: s)).2 = (beginsWith "<?" (c :: s) || (plainLength s).2) := by
  rw [plainLength]
  split
  · next htag => rw [htag]; rfl
  · next htag => rw [Bool.eq_false_iff.mpr htag]; rfl

/-- Some line ends and an opening tag. -/
def openingTag (m : Nat) (rest : List Char) : List Char :=
  List.replicate m '\n' ++ '<' :: '?' :: 'p' :: 'h' :: 'p' :: '\n' :: rest

theorem plainLength_openingTag (m : Nat) (rest : List Char) :
    plainLength (openingTag m rest) = (m + 5, true) ∧
      plainLengthInside (openingTag m rest) = (m + 5, true) := by
  induction m with
  | zero => exact ⟨rfl, rfl⟩
  | succ m ih =>
    have hcons : openingTag (m + 1) rest = '\n' :: openingTag m rest := by
      rw [openingTag, List.replicate_succ, List.cons_append, openingTag]
    have htag (s : List Char) : beginsWith "<?" ('\n' :: s) = false := rfl
    rw [hcons, plainLength, plainLengthInside, htag, ih.1, ih.2]
    simp [Nat.add_right_comm]

/-- Text without a tag is plain text up to a tag that follows. -/
theorem plainLength_append {m : Nat} {rest : List Char}
    (h : s ≠ [] → Parted s (openingTag m rest)) (hs : (plainLength s).2 = false) :
    plainLength (s ++ openingTag m rest) = (s.length + (m + 5), true) ∧
      plainLengthInside (s ++ openingTag m rest) = (s.length + (m + 5), true) := by
  induction s with
  | nil => simpa using plainLength_openingTag m rest
  | cons c s ih =>
    have hparted := h (List.cons_ne_nil c s)
    have hsub : s ≠ [] → Parted s (openingTag m rest) :=
      hparted.of_suffix (List.suffix_cons c s)
    rw [plainLength_cons, Bool.or_eq_false_iff] at hs
    obtain ⟨hplain, hinside⟩ := ih hsub hs.2
    have htag : beginsWith "<?" (c :: (s ++ openingTag m rest)) = false := by
      rw [← hs.1, ← List.cons_append]
      exact beginsWith_append hparted (by decide)
    have hend : endFollows (s ++ openingTag m rest) = false :=
      IsAddition.endFollows (.newlines m (.inr rfl)) hsub
    simp only [List.cons_append, plainLength, plainLengthInside, htag, hend, hplain, hinside,
      Bool.false_eq_true, and_false, if_false, List.length_cons]
    constructor <;> simp only [Prod.mk.injEq, and_true] <;> omega

theorem plainLength_of_inside (h : plainLengthInside s = (n, false))
    (hrest : (plainLength (s.drop n)).2 = false) : (plainLength s).2 = false := by
  induction s generalizing n with
  | nil => rfl
  | cons c s ih =>
    rw [plainLengthInside] at h
    split at h
    · cases h
    · next htag =>
      rw [plainLength_cons, Bool.eq_false_iff.mpr htag, Bool.false_or]
      split at h
      · cases h
        exact hrest
      · simp only [Prod.mk.injEq] at h
        obtain ⟨rfl, hopens⟩ := h
        exact ih (Prod.ext rfl hopens) hrest

/-- Plain text behind a closing tag goes on up to a tag that follows, if there is no tag in it. -/
theorem interruption?_openingTag {m : Nat} {rest : List Char} (h : Parted s (openingTag m rest))
    (hs : interruption? s = some (n, false)) (hrest : (plainLength (s.drop n)).2 = false) :
    interruption? (s ++ openingTag m rest) = some (s.length + (m + 5), true) := by
  unfold interruption? at hs ⊢
  split at hs
  · next htag =>
    obtain ⟨u, rfl⟩ : ∃ u, s = '?' :: '>' :: u := by
      obtain ⟨u, hu⟩ := List.isPrefixOf_iff_prefix.mp htag
      exact ⟨u, hu.symm⟩
    have hsub : u ≠ [] → Parted u (openingTag m rest) :=
      h.of_suffix ((List.suffix_cons _ _).trans (List.suffix_cons _ _))
    have hplain : (plainLength u).2 = false := by
      simp only [List.drop_succ_cons, List.drop_zero, Option.some.injEq, Prod.mk.injEq] at hs
      split at hs
      · obtain ⟨rfl, -⟩ := hs
        exact hrest
      · obtain ⟨rfl, hopens⟩ := hs
        exact plainLength_of_inside (Prod.ext rfl hopens) hrest
    have hend : endFollows (u ++ openingTag m rest) = false :=
      IsAddition.endFollows (.newlines m (.inr rfl)) hsub
    have hinside := (plainLength_append hsub hplain).2
    rw [beginsWith_append h (by decide), if_pos htag]
    simp only [List.cons_append, List.drop_succ_cons, List.drop_zero, hend, Bool.false_eq_true,
      if_false, hinside, List.length_cons, Option.some.injEq, Prod.mk.injEq, and_true]
    omega
  · nomatch hs

end Reader
end Php
end SiteSettings
