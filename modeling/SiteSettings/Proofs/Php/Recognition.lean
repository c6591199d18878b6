import SiteSettings.Proofs.Php.Derivation

/-!
# Recognition is correct

A stack accepts the lists of terminals that its forms derive, from the top down.  Sharing what lies
below and gathering stacks of one top form change nothing about that.  So the ways to go on are
exactly what they are meant to be: after a terminal they accept what followed it before
(`Ways.accepts_of_after?`), there are none only if nothing could follow
(`Ways.not_accepts_of_after?`), and the text may end where they accept the empty list
(`Ways.canEnd_iff`).
-/

namespace SiteSettings
namespace Php

open Form

namespace Stack

/-! ## What a stack accepts -/

/-- Whether a list of terminals can follow. -/
inductive Accepts : Stack → List Terminal → Prop
  | done : Accepts .done []
  | over {form : Form} {below : List Stack} {s : Stack} {ts us : List Terminal}
      (hform : form.Derives ts) (hmem : s ∈ below) (h : Accepts s us) :
      Accepts (.over form below) (ts ++ us)

/-- Whether a list of terminals can follow in one of several ways. -/
def AnyAccepts (choices : List Stack) (ts : List Terminal) : Prop :=
  ∃ s ∈ choices, s.Accepts ts

variable {form : Form} {below others choices : List Stack} {s : Stack} {ts us : List Terminal}
  {t : Terminal}

theorem accepts_done_iff : Accepts .done ts ↔ ts = [] := by
  constructor
  · rintro ⟨⟩
    rfl
  · rintro rfl
    exact .done

theorem accepts_over_iff : (Stack.over form below).Accepts ts ↔
    ∃ front back, ts = front ++ back ∧ form.Derives front ∧ AnyAccepts below back := by
  constructor
  · rintro (_ | ⟨hform, hmem, h⟩)
    exact ⟨_, _, rfl, hform, _, hmem, h⟩
  · rintro ⟨front, back, rfl, hform, s, hmem, h⟩
    exact .over hform hmem h

theorem not_anyAccepts_nil : ¬ AnyAccepts [] ts := by
  rintro ⟨s, hmem, -⟩
  cases hmem

theorem anyAccepts_cons_iff :
    AnyAccepts (s :: choices) ts ↔ s.Accepts ts ∨ AnyAccepts choices ts := by
  simp [AnyAccepts]

theorem anyAccepts_append_iff :
    AnyAccepts (choices ++ others) ts ↔ AnyAccepts choices ts ∨ AnyAccepts others ts := by
  simp [AnyAccepts, or_and_right, exists_or]

theorem anyAccepts_flatMap_iff {α : Type} {items : List α} {f : α → List Stack} :
    AnyAccepts (items.flatMap f) ts ↔ ∃ item ∈ items, AnyAccepts (f item) ts := by
  constructor
  · rintro ⟨s, hmem, h⟩
    obtain ⟨item, hitem, hs⟩ := List.mem_flatMap.mp hmem
    exact ⟨item, hitem, s, hs, h⟩
  · rintro ⟨item, hitem, s, hs, h⟩
    exact ⟨s, List.mem_flatMap.mpr ⟨item, hitem, hs⟩, h⟩

/-! ## Sharing -/

theorem mem_addNew_iff {other : Stack} :
    other ∈ addNew choices s ↔ other ∈ choices ∨ other = s := by
  rw [addNew]
  split
  · rename_i hmem
    constructor
    · exact .inl
    · rintro (h | rfl)
      · exact h
      · exact hmem
  · simp

theorem mem_foldl_addNew_iff {other : Stack} :
    other ∈ below.foldl addNew others ↔ other ∈ others ∨ other ∈ below := by
  induction below generalizing others with
  | nil => simp
  | cons s rest ih => rw [List.foldl_cons, ih, mem_addNew_iff, List.mem_cons, or_assoc]

theorem anyAccepts_foldl_addNew_iff :
    AnyAccepts (below.foldl addNew others) ts ↔ AnyAccepts others ts ∨ AnyAccepts below ts := by
  simp [AnyAccepts, mem_foldl_addNew_iff, or_and_right, exists_or]

theorem anyAccepts_add_iff :
    AnyAccepts (add s choices) ts ↔ s.Accepts ts ∨ AnyAccepts choices ts := by
  induction choices with
  | nil => simp [add, AnyAccepts]
  | cons first rest ih =>
    unfold add
    split
    · rw [anyAccepts_cons_iff, ← or_assoc, or_self]
    · rename_i f below g others
      split
      · rename_i hfg
        subst hfg
        rw [anyAccepts_cons_iff, anyAccepts_cons_iff, ← or_assoc]
        refine or_congr_left ?_
        simp only [accepts_over_iff, anyAccepts_foldl_addNew_iff, and_or_left, exists_or]
        exact or_comm
      · rw [anyAccepts_cons_iff, ih, anyAccepts_cons_iff, or_left_comm]
    · rw [anyAccepts_cons_iff, ih, anyAccepts_cons_iff, or_left_comm]

theorem anyAccepts_gather_iff : AnyAccepts (gather choices) ts ↔ AnyAccepts choices ts := by
  have hfold (gathered : List Stack) :
      AnyAccepts (choices.foldl (fun gathered s => add s gathered) gathered) ts ↔
        AnyAccepts gathered ts ∨ AnyAccepts choices ts := by
    induction choices generalizing gathered with
    | nil => simp [not_anyAccepts_nil]
    | cons s rest ih =>
      rw [List.foldl_cons, ih, anyAccepts_add_iff, anyAccepts_cons_iff, or_assoc, or_left_comm]
  rw [gather, hfold]
  simp [not_anyAccepts_nil]

theorem anyAccepts_pushAll_iff {forms : List Form} : AnyAccepts (pushAll forms below) ts ↔
    ∃ front back, ts = front ++ back ∧ DeriveAll forms front ∧ AnyAccepts below back := by
  induction forms generalizing ts with
  | nil =>
    constructor
    · exact fun h => ⟨[], ts, rfl, .nil, h⟩
    · rintro ⟨_, back, rfl, ⟨⟩, h⟩
      exact h
  | cons form forms ih =>
    rw [pushAll, anyAccepts_cons_iff, or_iff_left not_anyAccepts_nil, accepts_over_iff]
    constructor
    · rintro ⟨front, _, rfl, hform, h⟩
      obtain ⟨middle, back, rfl, hforms, h⟩ := ih.mp h
      exact ⟨front ++ middle, back, (List.append_assoc ..).symm, .cons hform hforms, h⟩
    · rintro ⟨_, back, rfl, (_ | ⟨hform, hforms⟩), h⟩
      exact ⟨_, _, List.append_assoc .., hform, ih.mpr ⟨_, back, rfl, hforms, h⟩⟩

/-! ## Taking a terminal -/

/-- What is left of the top form, above what lies below. -/
theorem anyAccepts_top_iff :
    AnyAccepts ((form.after (Rule.after t ruleDepth) t).flatMap (pushAll · below)) us ↔
      ∃ front back, us = front ++ back ∧ form.Derives (t :: front) ∧ AnyAccepts below back := by
  rw [anyAccepts_flatMap_iff]
  constructor
  · rintro ⟨forms, hforms, h⟩
    obtain ⟨front, back, rfl, hall, h⟩ := anyAccepts_pushAll_iff.mp h
    exact ⟨front, back, rfl, derives_cons_iff.mpr ⟨forms, hforms, hall⟩, h⟩
  · rintro ⟨front, back, rfl, hform, h⟩
    obtain ⟨forms, hforms, hall⟩ := derives_cons_iff.mp hform
    exact ⟨forms, hforms, anyAccepts_pushAll_iff.mpr ⟨front, back, rfl, hall, h⟩⟩

mutual

theorem anyAccepts_after_iff : ∀ {s : Stack} {us : List Terminal},
    AnyAccepts (after (Rule.after t ruleDepth) t s) us ↔ s.Accepts (t :: us)
  | .done, us => by
    rw [after, accepts_done_iff]
    simp [not_anyAccepts_nil]
  | .over form below, us => by
    rw [after, anyAccepts_append_iff, anyAccepts_top_iff, accepts_over_iff]
    constructor
    · rintro (⟨front, back, rfl, hform, h⟩ | h)
      · exact ⟨t :: front, back, rfl, hform, h⟩
      · split at h
        · rename_i hnullable
          exact ⟨[], t :: us, rfl, nullable_iff.mp hnullable, anyAccepts_allAfter_iff.mp h⟩
        · exact absurd h not_anyAccepts_nil
    · rintro ⟨front, back, hsplit, hform, h⟩
      cases front with
      | nil =>
        obtain rfl : t :: us = back := hsplit
        rw [if_pos (nullable_iff.mpr hform)]
        exact .inr (anyAccepts_allAfter_iff.mpr h)
      | cons u front =>
        obtain ⟨rfl, rfl⟩ := List.cons.inj hsplit
        exact .inl ⟨front, back, rfl, hform, h⟩

theorem anyAccepts_allAfter_iff : ∀ {choices : List Stack} {us : List Terminal},
    AnyAccepts (allAfter (Rule.after t ruleDepth) t choices) us ↔ AnyAccepts choices (t :: us)
  | [], us => by simp [allAfter, not_anyAccepts_nil]
  | s :: rest, us => by
    rw [allAfter, anyAccepts_append_iff, anyAccepts_cons_iff, anyAccepts_after_iff,
      anyAccepts_allAfter_iff]

end

/-! ## Ending -/

mutual

theorem canEnd_iff : ∀ {s : Stack}, s.canEnd ↔ s.Accepts []
  | .done => by simp [canEnd, accepts_done_iff]
  | .over form below => by
    rw [canEnd, Bool.and_eq_true, nullable_iff, anyCanEnd_iff, accepts_over_iff]
    constructor
    · exact fun ⟨hform, h⟩ => ⟨[], [], rfl, hform, h⟩
    · rintro ⟨front, back, hsplit, hform, h⟩
      obtain ⟨rfl, rfl⟩ := List.append_eq_nil_iff.mp hsplit.symm
      exact ⟨hform, h⟩

theorem anyCanEnd_iff : ∀ {choices : List Stack}, anyCanEnd choices ↔ AnyAccepts choices []
  | [] => by simp [anyCanEnd, not_anyAccepts_nil]
  | s :: rest => by
    rw [anyCanEnd, Bool.or_eq_true, canEnd_iff, anyCanEnd_iff, anyAccepts_cons_iff]

end

end Stack

/-! ## Every way -/

namespace Ways

variable {ways ways' : Ways} {t : Terminal} {us : List Terminal}

/-- Whether a list of terminals can follow. -/
def Accepts (ways : Ways) (ts : List Terminal) : Prop :=
  Stack.AnyAccepts ways.choices ts

theorem accepts_ofForm_iff {f : Form} : (ofForm f).Accepts us ↔ f.Derives us := by
  rw [Accepts, ofForm, Stack.anyAccepts_cons_iff, or_iff_left Stack.not_anyAccepts_nil,
    Stack.accepts_over_iff]
  constructor
  · rintro ⟨front, back, rfl, hform, s, hmem, h⟩
    obtain rfl := List.mem_singleton.mp hmem
    obtain rfl := Stack.accepts_done_iff.mp h
    rwa [List.append_nil]
  · intro hform
    exact ⟨us, [], (List.append_nil us).symm, hform, .done, List.mem_singleton_self _, .done⟩

theorem canEnd_iff : ways.canEnd ↔ ways.Accepts [] :=
  Stack.anyCanEnd_iff

/-- The ways left after a terminal accept what the ways before accepted behind it. -/
theorem accepts_of_after? (h : ways.after? t = some ways') :
    ways'.Accepts us ↔ ways.Accepts (t :: us) := by
  rw [after?] at h
  split at h
  · cases h
  · cases h
    rw [Accepts, Stack.anyAccepts_gather_iff, Stack.anyAccepts_allAfter_iff]
    rfl

/-- If no way is left after a terminal, nothing that begins with it could follow. -/
theorem not_accepts_of_after? (h : ways.after? t = none) : ¬ ways.Accepts (t :: us) := by
  rw [after?] at h
  split at h
  · rename_i hnil
    rw [Accepts, ← Stack.anyAccepts_allAfter_iff, ← Stack.anyAccepts_gather_iff, hnil]
    exact Stack.not_anyAccepts_nil
  · cases h

end Ways
end Php
end SiteSettings
