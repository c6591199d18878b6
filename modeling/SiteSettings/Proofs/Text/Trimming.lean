import Mathlib.Data.List.TakeWhile
import SiteSettings.Text.Blank
import SiteSettings.Text.Pieces

/-!
# Trimmed texts

Trimming takes blanks from the ends of a text and nothing else: what stands between two characters
that are not blank stays (`trim_append`), and the text is its trimmed form with blanks around it
(`exists_eq_trim`).
-/

namespace SiteSettings
namespace Text

variable {s blanks : List Char} {c : Char}

/-- What stands before a character that is not dropped makes no difference to what follows it. -/
theorem dropWhile_append_cons {p : Char → Bool} (hc : ¬ p c) (front back : List Char) :
    (front ++ c :: back).dropWhile p = front.dropWhile p ++ c :: back := by
  induction front with
  | nil => exact List.dropWhile_cons_of_neg hc
  | cons d front ih =>
    by_cases hd : p d
    · rw [List.cons_append, List.dropWhile_cons_of_pos hd, ih, List.dropWhile_cons_of_pos hd]
    · rw [List.cons_append, List.dropWhile_cons_of_neg hd, List.dropWhile_cons_of_neg hd,
        List.cons_append]

theorem trimLeft_append_of_blank (h : ∀ c ∈ blanks, isBlank c) (s : List Char) :
    trimLeft (blanks ++ s) = trimLeft s :=
  List.dropWhile_append_of_pos h

theorem trimLeft_cons (hc : ¬ isBlank c) (s : List Char) : trimLeft (c :: s) = c :: s :=
  List.dropWhile_cons_of_neg hc

theorem trimLeft_eq_nil (h : ∀ c ∈ s, isBlank c) : trimLeft s = [] :=
  List.dropWhile_eq_nil_iff.mpr h

theorem trimRight_append_of_blank (h : ∀ c ∈ blanks, isBlank c) (s : List Char) :
    trimRight (s ++ blanks) = trimRight s := by
  have hreverse : ∀ c ∈ blanks.reverse, isBlank c := fun c hc => h c (List.mem_reverse.mp hc)
  rw [trimRight, List.reverse_append, trimLeft_append_of_blank hreverse]
  rfl

theorem trimRight_append_cons (hc : ¬ isBlank c) (front back : List Char) :
    trimRight (front ++ c :: back) = front ++ c :: trimRight back := by
  have hreverse : (front ++ c :: back).reverse = back.reverse ++ c :: front.reverse := by simp
  rw [trimRight, hreverse, trimLeft, dropWhile_append_cons hc, trimRight, trimLeft]
  simp

theorem trim_eq_nil (h : ∀ c ∈ s, isBlank c) : trim s = [] := by
  rw [trim, trimLeft_eq_nil h]
  rfl

/-- What is taken from the end of a text is of one kind. -/
theorem exists_eq_reverse_dropWhile_append (p : Char → Bool) (s : List Char) :
    ∃ back, s = (s.reverse.dropWhile p).reverse ++ back ∧ ∀ c ∈ back, p c := by
  refine ⟨(s.reverse.takeWhile p).reverse, ?_, ?_⟩
  · rw [← List.reverse_append, List.takeWhile_append_dropWhile, List.reverse_reverse]
  · exact fun c hc => List.mem_takeWhile_imp (List.mem_reverse.mp hc)

theorem reverse_dropWhile_append {p : Char → Bool} {front : List Char} (h : ∀ d ∈ front, ¬ p d)
    (hc : p c) :
    ((front ++ [c]).reverse.dropWhile p).reverse = front := by
  have hstop : front.reverse.dropWhile p = front.reverse :=
    List.dropWhile_eq_self_iff.mpr fun hlength =>
      h _ (List.mem_reverse.mp (List.getElem_mem hlength))
  rw [List.reverse_append, List.reverse_singleton, List.singleton_append,
    List.dropWhile_cons_of_pos hc, hstop, List.reverse_reverse]

theorem exists_eq_trimRight (s : List Char) :
    ∃ blanks, s = trimRight s ++ blanks ∧ ∀ c ∈ blanks, isBlank c :=
  exists_eq_reverse_dropWhile_append isBlank s

theorem exists_eq_trim (s : List Char) : ∃ left right, s = left ++ trim s ++ right ∧
    (∀ c ∈ left, isBlank c) ∧ ∀ c ∈ right, isBlank c := by
  obtain ⟨right, hright, hblank⟩ := exists_eq_trimRight (trimLeft s)
  refine ⟨s.takeWhile isBlank, right, ?_, fun c hc => List.mem_takeWhile_imp hc, hblank⟩
  rw [List.append_assoc, trim, ← hright, trimLeft, List.takeWhile_append_dropWhile]

theorem trim_eq_self (h : ∀ c ∈ s, ¬ isBlank c) : trim s = s := by
  have hleft {t : List Char} (ht : ∀ c ∈ t, ¬ isBlank c) : trimLeft t = t := by
    cases t with
    | nil => rfl
    | cons c rest => exact trimLeft_cons (ht c List.mem_cons_self) rest
  have hright : trimRight s = s := by
    rw [trimRight, hleft fun c hc => h c (List.mem_reverse.mp hc), List.reverse_reverse]
  rw [trim, hleft h, hright]

theorem not_isBlank_of_isDigit (h : c.isDigit) : ¬ isBlank c := by
  obtain ⟨hlow, hhigh⟩ := Char.isDigit_iff_toNat.mp h
  have hzero : '0'.toNat = 48 := rfl
  have hnine : '9'.toNat = 57 := rfl
  simp only [isBlank, Bool.or_eq_true, Bool.and_eq_true, decide_eq_true_eq, beq_iff_eq]
  omega

theorem trim_append_left (h : ∀ c ∈ blanks, isBlank c) (s : List Char) :
    trim (blanks ++ s) = trim s := by
  rw [trim, trimLeft_append_of_blank h, ← trim]

theorem trim_append_right (h : ∀ c ∈ blanks, isBlank c) (s : List Char) :
    trim (s ++ blanks) = trim s := by
  by_cases hs : ∀ c ∈ s, isBlank c
  · have hall : ∀ c ∈ s ++ blanks, isBlank c :=
      fun c hc => (List.mem_append.mp hc).elim (hs c) (h c)
    rw [trim_eq_nil hs, trim_eq_nil hall]
  · have hkept : (trimLeft s).isEmpty = false := by
      rw [List.isEmpty_eq_false_iff]
      exact fun hnil => hs (List.dropWhile_eq_nil_iff.mp hnil)
    have hleft : trimLeft (s ++ blanks) = trimLeft s ++ blanks := by
      rw [trimLeft, List.dropWhile_append, ← trimLeft, hkept]
      rfl
    rw [trim, hleft, trimRight_append_of_blank h, ← trim]

/-- Trimming a line takes its carriage return with it. -/
theorem trim_dropReturn (line : List Char) : trim (dropReturn line) = trim line := by
  unfold dropReturn
  split
  · rename_i rest hreverse
    have hline : line = rest.reverse ++ ['\r'] := by
      rw [← List.reverse_reverse line, hreverse, List.reverse_cons]
    rw [hline, trim_append_right (by simp [show isBlank '\r' = true from rfl])]
  · rfl

end Text
end SiteSettings
