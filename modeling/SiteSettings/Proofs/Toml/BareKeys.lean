import SiteSettings.Proofs.Text.Trimming
import SiteSettings.Proofs.Toml.Remainders

/-!
# Bare keys

A key that is written without quotes ends where its characters end.  So a bare name with blanks
around it is read as the whole key unless a dot follows (`IsBare.key_eq`), and a key of one part
that does not begin with a quote has been written that way (`exists_spaces_of_dottedKey?`).
-/

namespace SiteSettings
namespace Toml

open Text (isBlank)

/-- Whether a name can stand in a document without quotes. -/
def IsBare (name : List Char) : Prop :=
  name ≠ [] ∧ ∀ c ∈ name, isBareKeyChar c

instance (name : List Char) : Decidable (IsBare name) :=
  decidable_of_iff (name ≠ [] ∧ name.all isBareKeyChar) (by simp [IsBare])

variable {s rest : List Char} {key : List String}

theorem not_isBlank_of_isBareKeyChar {c : Char} (h : isBareKeyChar c) : ¬ isBlank c := by
  have hletter {low high : UInt32} (hc : low ≤ c.val ∧ c.val ≤ high) (hlow : 33 ≤ low.toNat)
      (hhigh : high.toNat ≤ 126) : ¬ isBlank c := by
    have hcLow : low.toNat ≤ c.toNat := UInt32.le_iff_toNat_le.mp hc.1
    have hcHigh : c.toNat ≤ high.toNat := UInt32.le_iff_toNat_le.mp hc.2
    simp only [isBlank, Bool.or_eq_true, Bool.and_eq_true, decide_eq_true_eq, beq_iff_eq]
    omega
  simp only [isBareKeyChar, Char.isAlphanum, Bool.or_eq_true, beq_iff_eq] at h
  rcases h with ((halpha | hdigit) | rfl) | rfl
  · rcases Bool.or_eq_true_iff.mp halpha with hupper | hlower
    · exact hletter (of_decide_eq_true hupper) (by decide) (by decide)
    · obtain ⟨hlow, hhigh⟩ := Bool.and_eq_true_iff.mp hlower
      exact hletter ⟨of_decide_eq_true hlow, of_decide_eq_true hhigh⟩ (by decide) (by decide)
  · exact Text.not_isBlank_of_isDigit hdigit
  · decide
  · decide

theorem skipSpaces_append_of_isSpace {spaces : List Char} (h : ∀ c ∈ spaces, isSpace c)
    (s : List Char) :
    skipSpaces (spaces ++ s) = skipSpaces s :=
  List.dropWhile_append_of_pos h

theorem skipSpaces_cons {c : Char} (h : ¬ isSpace c) (s : List Char) :
    skipSpaces (c :: s) = c :: s :=
  List.dropWhile_cons_of_neg h

theorem not_isSpace_of_skipSpaces {c : Char} {tail : List Char} (h : skipSpaces s = c :: tail) :
    ¬ isSpace c := by
  have hstop := List.head?_dropWhile_not isSpace s
  rw [← skipSpaces, h] at hstop
  exact Bool.eq_false_iff.mp hstop

theorem skipSpaces_skipSpaces (s : List Char) : skipSpaces (skipSpaces s) = skipSpaces s := by
  cases hs : skipSpaces s with
  | nil => rfl
  | cons c tail => exact skipSpaces_cons (not_isSpace_of_skipSpaces hs) tail

/-- What the skipped spaces end at stands in the first text or is what those of the
second one end at. -/
theorem mem_head?_skipSpaces_append {front back : List Char} {c : Char}
    (h : c ∈ (skipSpaces (front ++ back)).head?) : c ∈ front ∨ c ∈ (skipSpaces back).head? := by
  induction front with
  | nil => exact .inr h
  | cons d front ih =>
    by_cases hd : isSpace d
    · rw [List.cons_append, skipSpaces, List.dropWhile_cons_of_pos hd] at h
      exact (ih h).imp_left (List.mem_cons_of_mem d)
    · rw [List.cons_append, skipSpaces_cons hd] at h
      exact .inl (Option.some.inj h ▸ List.mem_cons_self)

theorem keyPart?_of_ne {c : Char} (hquote : c ≠ '"' ∧ c ≠ '\'') (s : List Char) :
    keyPart? (c :: s) =
      if (c :: s).takeWhile isBareKeyChar = [] then none
      else some (String.ofList ((c :: s).takeWhile isBareKeyChar),
        (c :: s).dropWhile isBareKeyChar) := by
  rw [keyPart?]
  · simp only [List.isEmpty_iff, drop_length_takeWhile]
  · exact fun rest hc => hquote.1 (List.cons.inj hc).1
  · exact fun rest hc => hquote.2 (List.cons.inj hc).1

theorem dottedKey?_eq (s : List Char) :
    dottedKey? s = (keyPart? (skipSpaces s)).bind fun (part, rest) =>
      match skipSpaces rest with
      | '.' :: more => (keyParts? (nestingLimit - 2) more).bind fun (parts, rest) =>
        some (part :: parts, rest)
      | rest => some ([part], rest) :=
  rfl

theorem dottedKey?_skipSpaces (s : List Char) : dottedKey? (skipSpaces s) = dottedKey? s := by
  rw [dottedKey?_eq, dottedKey?_eq, skipSpaces_skipSpaces]

theorem IsBare.ne_quote {name : List Char} (hname : IsBare name) {c : Char} (hc : c ∈ name) :
    c ≠ '"' ∧ c ≠ '\'' := by
  have hbare := hname.2 c hc
  constructor <;> rintro rfl <;> exact absurd hbare (by decide)

theorem IsBare.keyPart?_append {name : List Char} (hname : IsBare name) (back : List Char)
    (hback : ∀ c ∈ back.head?, ¬ isBareKeyChar c) :
    keyPart? (name ++ back) = some (String.ofList name, back) := by
  obtain ⟨c, tail, rfl⟩ := List.exists_cons_of_ne_nil hname.1
  have htake : (c :: (tail ++ back)).takeWhile isBareKeyChar = c :: tail := by
    rw [← List.cons_append, List.takeWhile_append_of_pos hname.2]
    cases back with
    | nil => simp
    | cons d back => simp [hback d rfl]
  have hdrop : (c :: (tail ++ back)).dropWhile isBareKeyChar = back := by
    rw [← List.cons_append, List.dropWhile_append_of_pos hname.2]
    cases back with
    | nil => rfl
    | cons d back => exact List.dropWhile_cons_of_neg (hback d rfl)
  rw [List.cons_append, keyPart?_of_ne (hname.ne_quote List.mem_cons_self), htake, hdrop,
    if_neg (List.cons_ne_nil c tail)]

/-- No key begins with a blank. -/
theorem not_isBlank_of_dottedKey? (h : dottedKey? s = some (key, rest)) :
    ∀ c ∈ (skipSpaces s).head?, ¬ isBlank c := by
  intro c hc hblank
  obtain ⟨tail, hs⟩ := List.head?_eq_some_iff.mp hc
  have hbare : ¬ isBareKeyChar c := fun hbare => not_isBlank_of_isBareKeyChar hbare hblank
  have hquote : c ≠ '"' ∧ c ≠ '\'' := by
    constructor <;> rintro rfl <;> exact absurd hblank (by decide)
  rw [dottedKey?_eq, hs, keyPart?_of_ne hquote, if_pos (List.takeWhile_cons_of_neg hbare)] at h
  cases h

/-- A bare name with blanks around it is a whole key, unless a dot comes next. -/
theorem IsBare.key_eq {name left back : List Char} (hname : IsBare name)
    (hleft : ∀ c ∈ left, isBlank c)
    (hback : ∀ c ∈ (skipSpaces back).head?, c ≠ '.' ∧ ¬ isBareKeyChar c)
    (h : dottedKey? (left ++ (name ++ back)) = some (key, rest)) : key = [String.ofList name] := by
  obtain ⟨c, tail, hcons⟩ := List.exists_cons_of_ne_nil hname.1
  have hc : isBareKeyChar c := hname.2 c (hcons ▸ List.mem_cons_self)
  have hspace : ¬ isSpace c :=
    fun hspace => not_isBlank_of_isBareKeyChar hc (isBlank_of_isSpace hspace)
  have hafter : ∀ c ∈ back.head?, ¬ isBareKeyChar c := by
    intro d hd hbare
    have hdspace : ¬ isSpace d :=
      fun hspace => not_isBlank_of_isBareKeyChar hbare (isBlank_of_isSpace hspace)
    obtain ⟨more, rfl⟩ : ∃ more, back = d :: more := List.head?_eq_some_iff.mp hd
    exact (hback d (by rw [skipSpaces_cons hdspace]; rfl)).2 hbare
  by_cases hspaces : ∀ c ∈ left, isSpace c
  · have hfront : skipSpaces (left ++ (name ++ back)) = name ++ back := by
      rw [skipSpaces_append_of_isSpace hspaces, hcons, List.cons_append, skipSpaces_cons hspace]
    rw [dottedKey?_eq, hfront, hname.keyPart?_append back hafter, Option.bind_some] at h
    dsimp only at h
    split at h
    · rename_i more hdot
      exact absurd rfl (hback '.' (by rw [hdot]; rfl)).1
    · cases h
      rfl
  · -- a blank that is no space begins no key
    exfalso
    obtain ⟨d, more, hleftover⟩ :=
      List.exists_cons_of_ne_nil (mt List.dropWhile_eq_nil_iff.mp hspaces)
    have hd : isBlank d :=
      hleft d ((List.dropWhile_suffix isSpace).subset (hleftover ▸ List.mem_cons_self))
    have hfront : skipSpaces (left ++ (name ++ back)) = d :: (more ++ (name ++ back)) := by
      rw [skipSpaces, List.dropWhile_append, hleftover]
      rfl
    exact not_isBlank_of_dottedKey? h d (by rw [hfront]; rfl) hd

theorem ne_nil_of_keyParts? {fuel : Nat} (h : keyParts? fuel s = some (key, rest)) : key ≠ [] := by
  cases fuel with
  | zero => cases h
  | succ fuel =>
    rw [keyParts?] at h
    obtain ⟨⟨part, after⟩, -, h⟩ := Option.bind_eq_some_iff.mp h
    dsimp only at h
    split at h
    · obtain ⟨_, -, heq⟩ := Option.bind_eq_some_iff.mp h
      cases heq
      exact List.cons_ne_nil _ _
    · cases h
      exact List.cons_ne_nil _ _

/-- A key of one part that is not quoted is a bare name with spaces around it. -/
theorem exists_spaces_of_dottedKey? {name : String} (h : dottedKey? s = some ([name], rest))
    (hquote : ∀ c ∈ (skipSpaces s).head?, c ≠ '"' ∧ c ≠ '\'') :
    ∃ left right, s = (left ++ (name.toList ++ right)) ++ rest ∧ IsBare name.toList ∧
      (∀ c ∈ left, isSpace c) ∧ ∀ c ∈ right, isSpace c := by
  rw [dottedKey?_eq] at h
  obtain ⟨⟨part, after⟩, hpart, h⟩ := Option.bind_eq_some_iff.mp h
  have hleft := takeWhile_append_skipSpaces s
  cases hs : skipSpaces s with
  | nil => rw [hs] at hpart; cases hpart
  | cons c tail =>
    rw [hs] at hpart hquote hleft
    rw [keyPart?_of_ne (hquote c rfl)] at hpart
    split at hpart
    · cases hpart
    · rename_i hne
      obtain ⟨rfl, rfl⟩ := Prod.mk.inj (Option.some.inj hpart)
      have hright := takeWhile_append_skipSpaces ((c :: tail).dropWhile isBareKeyChar)
      dsimp only at h
      split at h
      · obtain ⟨⟨parts, _⟩, hparts, heq⟩ := Option.bind_eq_some_iff.mp h
        cases heq
        exact absurd rfl (ne_nil_of_keyParts? hparts)
      · cases h
        refine ⟨s.takeWhile isSpace,
          ((c :: tail).dropWhile isBareKeyChar).takeWhile isSpace, ?_, ?_,
          fun _ hc => List.mem_takeWhile_imp hc, fun _ hc => List.mem_takeWhile_imp hc⟩
        · rw [String.toList_ofList, List.append_assoc, List.append_assoc, hright,
            List.takeWhile_append_dropWhile, hleft]
        · rw [String.toList_ofList]
          exact ⟨hne, fun _ hc => List.mem_takeWhile_imp hc⟩

namespace IsBare

variable {name left right : List Char}

theorem isSpace_or_isBareKeyChar (h : IsBare name) (hleft : ∀ c ∈ left, isSpace c)
    (hright : ∀ c ∈ right, isSpace c) {c : Char} (hc : c ∈ left ++ (name ++ right)) :
    isSpace c ∨ isBareKeyChar c := by
  rcases List.mem_append.mp hc with hc | hc
  · exact .inl (hleft c hc)
  · exact (List.mem_append.mp hc).elim (fun hc => .inr (h.2 c hc)) (fun hc => .inl (hright c hc))

theorem trim_eq (h : IsBare name) : Text.trim name = name :=
  Text.trim_eq_self fun c hc => not_isBlank_of_isBareKeyChar (h.2 c hc)

theorem trim_spaced (h : IsBare name) (hleft : ∀ c ∈ left, isSpace c)
    (hright : ∀ c ∈ right, isSpace c) :
    Text.trim (left ++ (name ++ right)) = name := by
  rw [Text.trim_append_left fun c hc => isBlank_of_isSpace (hleft c hc),
    Text.trim_append_right fun c hc => isBlank_of_isSpace (hright c hc), h.trim_eq]

theorem dot_notMem (h : IsBare name) : '.' ∉ name :=
  fun hmem => absurd (h.2 _ hmem) (by decide)

end IsBare

end Toml
end SiteSettings
