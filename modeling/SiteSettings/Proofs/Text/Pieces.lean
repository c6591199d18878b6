import SiteSettings.Text.Pieces

/-!
# The pieces of a text

A text is cut where its separators are, so cutting commutes with joining: behind a separator the
pieces of the rest follow.  Read the other way, the pieces of one text begin those of another
exactly if it is the other text, or the other text goes on after it with a separator.
-/

namespace SiteSettings
namespace Text

variable (separator : Char)

/-- What comes first in a text extends its first piece alone. -/
theorem extendFirst_append (c : Char) {pieces : List (List Char)} (h : pieces ≠ [])
    (more : List (List Char)) :
    extendFirst c (pieces ++ more) = extendFirst c pieces ++ more := by
  cases pieces with
  | nil => exact absurd rfl h
  | cons piece rest => rfl

theorem splitAt_append (s rest : List Char) :
    splitAt separator (s ++ separator :: rest) = splitAt separator s ++ splitAt separator rest := by
  induction s with
  | nil => simp [splitAt]
  | cons c s ih =>
    rw [List.cons_append, splitAt, splitAt, ih]
    split
    · rfl
    · exact extendFirst_append c (splitAt_ne_nil separator s) _

theorem joinWith_append {front back : List (List Char)} (hfront : front ≠ []) (hback : back ≠ []) :
    joinWith separator (front ++ back) =
      joinWith separator front ++ separator :: joinWith separator back := by
  induction front with
  | nil => exact absurd rfl hfront
  | cons piece front ih =>
    cases front with
    | nil =>
      cases back with
      | nil => exact absurd rfl hback
      | cons next back => rfl
    | cons next front =>
      have hrest := ih (List.cons_ne_nil _ _)
      simp only [List.cons_append, joinWith] at hrest ⊢
      rw [hrest]
      simp

theorem isPrefix_joinWith (front back : List (List Char)) :
    joinWith separator front <+: joinWith separator (front ++ back) := by
  by_cases hfront : front = []
  · subst hfront
    exact List.nil_prefix
  · by_cases hback : back = []
    · subst hback
      simp
    · rw [joinWith_append separator hfront hback]
      exact List.prefix_append _ _

theorem splitAt_prefix_iff {s t : List Char} :
    splitAt separator s <+: splitAt separator t ↔ s = t ∨ ∃ rest, t = s ++ separator :: rest := by
  constructor
  · rintro ⟨more, hmore⟩
    have hjoin := congrArg (joinWith separator) hmore
    rw [joinWith_splitAt] at hjoin
    by_cases hnil : more = []
    · subst hnil
      rw [List.append_nil, joinWith_splitAt] at hjoin
      exact .inl hjoin
    · rw [joinWith_append separator (splitAt_ne_nil separator s) hnil, joinWith_splitAt] at hjoin
      exact .inr ⟨_, hjoin.symm⟩
  · rintro (rfl | ⟨rest, rfl⟩)
    · exact List.prefix_refl _
    · rw [splitAt_append]
      exact List.prefix_append _ _

/-- What has no separator in it goes before the first piece. -/
theorem splitAt_append_of_notMem {s : List Char} (h : separator ∉ s) {t first : List Char}
    {more : List (List Char)} (ht : splitAt separator t = first :: more) :
    splitAt separator (s ++ t) = (s ++ first) :: more := by
  induction s with
  | nil => simpa using ht
  | cons c s ih =>
    obtain ⟨hc, hs⟩ := not_or.mp (mt List.mem_cons.mpr h)
    rw [List.cons_append, splitAt, if_neg (Ne.symm hc), ih hs]
    rfl

theorem splitAt_of_notMem {s : List Char} (h : separator ∉ s) : splitAt separator s = [s] := by
  have happend := splitAt_append_of_notMem separator h (t := []) rfl
  rwa [List.append_nil] at happend

/-- Pieces without separators are found again between them. -/
theorem splitAt_joinWith {pieces : List (List Char)} (hne : pieces ≠ [])
    (h : ∀ piece ∈ pieces, separator ∉ piece) :
    splitAt separator (joinWith separator pieces) = pieces := by
  induction pieces with
  | nil => exact absurd rfl hne
  | cons piece rest ih =>
    obtain ⟨hself, hrest⟩ := List.forall_mem_cons.mp h
    have hone := splitAt_of_notMem separator hself
    cases rest with
    | nil => exact hone
    | cons next more =>
      have hjoin : joinWith separator (piece :: next :: more) =
          piece ++ separator :: joinWith separator (next :: more) := rfl
      rw [hjoin, splitAt_append, hone, ih (List.cons_ne_nil next more) hrest]
      rfl

theorem notMem_of_mem_splitAt {s piece : List Char} (h : piece ∈ splitAt separator s) :
    separator ∉ piece := by
  induction s generalizing piece with
  | nil =>
    obtain rfl := List.mem_singleton.mp h
    simp
  | cons c s ih =>
    rw [splitAt] at h
    split at h
    · rcases List.mem_cons.mp h with rfl | h
      · simp
      · exact ih h
    · rename_i hc
      obtain ⟨first, more, hs⟩ := List.exists_cons_of_ne_nil (splitAt_ne_nil separator s)
      rw [hs] at h ih
      rcases List.mem_cons.mp h with rfl | h
      · have hfirst := ih List.mem_cons_self
        simpa [Ne.symm hc] using hfirst
      · exact ih (List.mem_cons_of_mem _ h)

/-- The first piece goes up to the first separator. -/
theorem exists_splitAt_eq_cons (s : List Char) :
    ∃ more, splitAt separator s = s.takeWhile (· ≠ separator) :: more := by
  induction s with
  | nil => exact ⟨[], rfl⟩
  | cons c s ih =>
    obtain ⟨more, hmore⟩ := ih
    by_cases hc : c = separator
    · exact ⟨splitAt separator s, by simp [splitAt, hc]⟩
    · exact ⟨more, by simp [splitAt, hc, hmore, extendFirst]⟩

theorem length_splitAt (s : List Char) : (splitAt separator s).length = s.count separator + 1 := by
  induction s with
  | nil => rfl
  | cons c s ih =>
    obtain ⟨more, hmore⟩ := exists_splitAt_eq_cons separator s
    by_cases hc : c = separator
    · simp [splitAt, hc, ih]
    · rw [splitAt, if_neg hc, List.count_cons_of_ne hc, ← ih, hmore]
      rfl

/-! ## Pieces as texts -/

theorem map_toList_pieces (s : String) :
    (pieces separator s).map String.toList = splitAt separator s.toList := by
  simp [pieces, Function.comp_def]

theorem pieces_ne_nil (s : String) : pieces separator s ≠ [] := by
  simp [pieces, splitAt_ne_nil]

theorem pieces_injective : Function.Injective (pieces separator) := by
  intro s t h
  have hjoin := congrArg (joinWith separator ∘ List.map String.toList) h
  simp only [Function.comp_apply, map_toList_pieces, joinWith_splitAt] at hjoin
  exact String.toList_inj.mp hjoin

theorem pieces_append (s rest : String) :
    pieces separator (s ++ String.singleton separator ++ rest) =
      pieces separator s ++ pieces separator rest := by
  simp [pieces, splitAt_append]

theorem pieces_prefix_iff {s t : String} : pieces separator s <+: pieces separator t ↔
    s = t ∨ ∃ rest, t = s ++ String.singleton separator ++ rest := by
  constructor
  · intro h
    have hprefix := h.map String.toList
    rw [map_toList_pieces, map_toList_pieces, splitAt_prefix_iff] at hprefix
    rcases hprefix with heq | ⟨rest, hrest⟩
    · exact .inl (String.toList_inj.mp heq)
    · refine .inr ⟨String.ofList rest, String.toList_inj.mp ?_⟩
      simpa using hrest
  · rintro (rfl | ⟨rest, rfl⟩)
    · exact List.prefix_refl _
    · rw [pieces_append]
      exact List.prefix_append _ _

theorem pieces_append_of_notMem {s : String} (h : separator ∉ s.toList) {t first : String}
    {more : List String} (ht : pieces separator t = first :: more) :
    pieces separator (s ++ t) = (s ++ first) :: more := by
  have hsplit := congrArg (List.map String.toList) ht
  rw [map_toList_pieces, List.map_cons] at hsplit
  have happend := splitAt_append_of_notMem separator h hsplit
  rw [pieces, String.toList_append, happend]
  simp [Function.comp_def]

theorem pieces_of_notMem {s : String} (h : separator ∉ s.toList) : pieces separator s = [s] := by
  have hempty : pieces separator "" = [""] := rfl
  have happend := pieces_append_of_notMem separator h hempty
  rwa [String.append_empty] at happend

/-- Cutting off what is behind the last separator, and cutting up what is in front, gives
the same pieces. -/
theorem pieces_concat (front : String) {last : String} (h : separator ∉ last.toList) :
    pieces separator (front ++ String.singleton separator ++ last) =
      pieces separator front ++ [last] := by
  rw [pieces_append, pieces_of_notMem separator h]

theorem pieces_intercalate {texts : List String} (hne : texts ≠ [])
    (h : ∀ text ∈ texts, separator ∉ text.toList) :
    pieces separator (String.intercalate (String.singleton separator) texts) = texts := by
  induction texts with
  | nil => exact absurd rfl hne
  | cons text rest ih =>
    obtain ⟨hself, hrest⟩ := List.forall_mem_cons.mp h
    have hone := pieces_of_notMem separator hself
    cases rest with
    | nil => exact hone
    | cons next more =>
      rw [String.intercalate_cons_cons, pieces_append, hone, ih (List.cons_ne_nil next more) hrest]
      rfl

theorem notMem_of_mem_pieces {s piece : String} (h : piece ∈ pieces separator s) :
    separator ∉ piece.toList := by
  obtain ⟨chars, hchars, rfl⟩ := List.mem_map.mp h
  simpa using notMem_of_mem_splitAt separator hchars

end Text
end SiteSettings
