import SiteSettings.Proofs.Config.UnknownKeys
import SiteSettings.Proofs.Text.Pieces
import SiteSettings.Proofs.Toml.BareKeys
import SiteSettings.Proofs.Toml.Blocks

/-!
# The lines of unknown keys

An unknown key is reported with a line that is found in the text alone, by a scan that follows
headers and looks for the key at the front of a line.  The scan does not know about values that go
on over several lines, and it takes a header by its brackets.  So it is compared with the blocks of
the document (`findLine_block`): as long as it takes no notice of a block's further lines, it does
at every block what the first line says.

From there two arguments go along the blocks.  What the scan finds is a definition of the key,
because its table is that of the document whenever it is the one that is asked for
(`exists_definition_of_findLine`); and it finds a definition if there is one, because the converse
holds below headers without quotes and comments (`exists_findLine_of_definition`).
-/

namespace SiteSettings
namespace Config

open Toml
open Text (isBlank trim trimLeft trimRight)

variable {s text rest leaf line : List Char} {parents here : List (List Char)} {number : Nat}

/-! ## The scan -/

/-- Whether the scan for a key takes notice of a line. -/
def IsNoticed (leaf line : List Char) : Prop :=
  isHeader (trim line) ∨ assigns leaf (trim line)

instance (leaf line : List Char) : Decidable (IsNoticed leaf line) :=
  inferInstanceAs (Decidable (isHeader (trim line) ∨ assigns leaf (trim line)))

theorem isHeader_cons_iff {c : Char} : isHeader (c :: s) ↔ c = '[' ∧ s.head? ≠ some '[' := by
  by_cases hc : c = '['
  · cases s with
    | nil => simp [isHeader, Text.dropStart?, hc]
    | cons d rest => by_cases hd : d = '[' <;> simp [isHeader, Text.dropStart?, hc, hd, Ne.symm]
  · simp [isHeader, Text.dropStart?, Ne.symm hc, hc]

theorem assigns_iff : assigns leaf line ↔
    ∃ back, line = leaf ++ back ∧ (trimLeft back).head? = some '=' := by
  unfold assigns Text.dropStart?
  by_cases hstart : leaf <+: line
  · obtain ⟨back, rfl⟩ := hstart
    simp
  · refine iff_of_false (by simp [hstart]) ?_
    rintro ⟨back, rfl, -⟩
    exact hstart (List.prefix_append leaf back)

theorem not_isNoticed_of_trim_eq_nil (hleaf : leaf ≠ []) (h : trim line = []) :
    ¬ IsNoticed leaf line := by
  rintro (hheader | hassigns)
  · rw [h] at hheader
    cases hheader
  · obtain ⟨back, hback, -⟩ := assigns_iff.mp hassigns
    rw [h] at hback
    exact hleaf (List.append_eq_nil_iff.mp hback.symm).1

/-- Lines that are not noticed are passed over. -/
theorem findLine_append {front : List (List Char)} (h : ∀ line ∈ front, ¬ IsNoticed leaf line)
    (back : List (List Char)) :
    findLine parents leaf here number (front ++ back) =
      findLine parents leaf here (number + front.length) back := by
  induction front generalizing number with
  | nil => rfl
  | cons line front ih =>
    obtain ⟨hself, hrest⟩ := List.forall_mem_cons.mp h
    obtain ⟨hheader, hassigns⟩ := not_or.mp hself
    rw [List.cons_append, findLine, if_neg hheader, if_neg (fun h => hassigns h.2), ih hrest,
      List.length_cons,
      Nat.add_assoc, Nat.add_comm 1]

theorem findLine_eq_none {lines : List (List Char)} (h : ∀ line ∈ lines, ¬ IsNoticed leaf line) :
    findLine parents leaf here number lines = none :=
  calc findLine parents leaf here number lines
      = findLine parents leaf here number (lines ++ []) := by rw [List.append_nil]
    _ = findLine parents leaf here (number + lines.length) [] := findLine_append h []
    _ = none := rfl

/-- A carriage return at the end of a line and an empty line at the end of a text make
no difference. -/
theorem findLine_lines (hleaf : leaf ≠ []) (s : List Char) :
    findLine parents leaf here number (Text.lines s) =
      findLine parents leaf here number (Text.splitAt '\n' s) := by
  have hpieces (pieces : List (List Char)) :
      findLine parents leaf here number (Text.linesOfPieces pieces) =
      findLine parents leaf here number pieces := by
    induction pieces generalizing here number with
    | nil => rfl
    | cons line rest ih =>
      cases rest with
      | nil =>
        rw [Text.linesOfPieces]
        split
        · rename_i hempty
          obtain rfl := List.isEmpty_iff.mp hempty
          exact (findLine_append (List.forall_mem_singleton.mpr
            (not_isNoticed_of_trim_eq_nil hleaf rfl)) []).symm
        · rfl
      | cons next more =>
        rw [Text.linesOfPieces, findLine, findLine, Text.trim_dropReturn]
        simp only [ih]
        intro hnil
        cases hnil
  exact hpieces _

/-! ## Lines and blocks -/

/-- The line that a text begins with, as the scan takes it. -/
def frontLine (s : List Char) : List Char :=
  trim (firstLine s)

theorem frontLine_skipSpaces (s : List Char) : frontLine (skipSpaces s) = frontLine s := by
  have hblank : ∀ c ∈ s.takeWhile isSpace, isBlank c :=
    fun c hc => isBlank_of_isSpace (List.mem_takeWhile_imp hc)
  rw [frontLine, frontLine, firstLine_eq_append s, Text.trim_append_left hblank]

theorem frontLine_cons {c : Char} (hc : ¬ isBlank c) (s : List Char) :
    frontLine (c :: s) = c :: trimRight (firstLine s) := by
  have hline : c ≠ '\n' := fun heq => hc (heq ▸ rfl)
  rw [frontLine, firstLine_cons hline, trim, Text.trimLeft_cons hc]
  exact Text.trimRight_append_cons hc [] _

theorem head?_of_frontLine {c : Char} (h : (trimRight (firstLine s)).head? = some c) :
    s.head? = some c := by
  obtain ⟨blanks, hblanks, -⟩ := Text.exists_eq_trimRight (firstLine s)
  obtain ⟨more, hmore, -⟩ := exists_eq_firstLine_append s
  obtain ⟨tail, htail⟩ := List.head?_eq_some_iff.mp h
  rw [hmore, hblanks, htail]
  rfl

/-- What stands behind a line without the blanks at its end begins with a blank, if at all. -/
theorem exists_eq_append_of_firstLine {front blanks : List Char} (h : firstLine s = front ++ blanks)
    (hblank : ∀ c ∈ blanks, isBlank c) :
    ∃ back, s = front ++ back ∧ ∀ d ∈ (skipSpaces back).head?, isBlank d := by
  obtain ⟨more, hmore, hnewline⟩ := exists_eq_firstLine_append s
  refine ⟨blanks ++ more, by rw [← List.append_assoc, ← h, ← hmore], ?_⟩
  intro d hd
  rcases mem_head?_skipSpaces_append hd with hd | hd
  · exact hblank d hd
  · cases more with
    | nil => cases hd
    | cons e more =>
      obtain rfl := hnewline e rfl
      rw [skipSpaces_cons (by decide)] at hd
      cases hd
      rfl

theorem ne_dot_of_isBlank {c : Char} (h : isBlank c) : c ≠ '.' ∧ ¬ isBareKeyChar c := by
  refine ⟨?_, fun hbare => not_isBlank_of_isBareKeyChar hbare h⟩
  rintro rfl
  exact absurd h (by decide)

/-! ### Assignments -/

/-- A line gives a value to a bare name only if that is its key. -/
theorem key_of_assigns {key : List String} (hleaf : IsBare leaf)
    (hkey : dottedKey? s = some (key, rest)) (hassigns : assigns leaf (frontLine s)) :
    key = [String.ofList leaf] := by
  obtain ⟨value, hvalue, hequals⟩ := assigns_iff.mp hassigns
  obtain ⟨more, hmore⟩ := List.head?_eq_some_iff.mp hequals
  have hblanks : value = value.takeWhile isBlank ++ '=' :: more := by
    rw [← hmore, trimLeft, List.takeWhile_append_dropWhile]
  obtain ⟨left, right, hline, hleft, hright⟩ := Text.exists_eq_trim (firstLine s)
  obtain ⟨back, hback, -⟩ := exists_eq_append_of_firstLine hline hright
  have hs : s = left ++ (leaf ++ (value.takeWhile isBlank ++ '=' :: (more ++ back))) := by
    rw [hback, ← frontLine, hvalue]
    conv_lhs => rw [hblanks]
    simp
  rw [hs] at hkey
  refine hleaf.key_eq hleft ?_ hkey
  intro d hd
  rcases mem_head?_skipSpaces_append hd with hd | hd
  · exact ne_dot_of_isBlank (List.mem_takeWhile_imp hd)
  · rw [skipSpaces_cons (by decide)] at hd
    cases hd
    decide

/-- The converse, if the key is not quoted. -/
theorem assigns_of_key {name : String} (hquote : ∀ c ∈ (skipSpaces s).head?, c ≠ '"' ∧ c ≠ '\'')
    (hkey : dottedKey? s = some ([name], '=' :: rest)) : assigns name.toList (frontLine s) := by
  obtain ⟨left, right, hs, hbare, hleft, hright⟩ := exists_spaces_of_dottedKey? hkey hquote
  have hnewline : '\n' ∉ left ++ (name.toList ++ right) := fun hmem =>
    (hbare.isSpace_or_isBareKeyChar hleft hright hmem).elim (by decide) (by decide)
  obtain ⟨c, tail, hname⟩ := List.exists_cons_of_ne_nil hbare.1
  have hc : ¬ isBlank c := not_isBlank_of_isBareKeyChar (hbare.2 c (hname ▸ List.mem_cons_self))
  have hfront : frontLine s = name.toList ++ (right ++ '=' :: trimRight (firstLine rest)) :=
    calc frontLine s
        = trim (left ++ (name.toList ++ (right ++ '=' :: firstLine rest))) := by
          rw [frontLine, hs, firstLine_append hnewline, firstLine_cons (by decide),
            List.append_assoc, List.append_assoc]
      _ = trim (name.toList ++ (right ++ '=' :: firstLine rest)) :=
          Text.trim_append_left (fun c hc => isBlank_of_isSpace (hleft c hc)) _
      _ = trimRight ((name.toList ++ right) ++ '=' :: firstLine rest) := by
          rw [hname, List.cons_append, trim, Text.trimLeft_cons hc, List.cons_append,
            List.cons_append, List.append_assoc]
      _ = name.toList ++ (right ++ '=' :: trimRight (firstLine rest)) := by
          rw [Text.trimRight_append_cons (by decide), List.append_assoc]
  refine assigns_iff.mpr ⟨_, hfront, ?_⟩
  rw [Text.trimLeft_append_of_blank fun c hc => isBlank_of_isSpace (hright c hc)]
  rfl

/-! ### Headers -/

theorem headerParts_frontLine (hone : s.head? ≠ some '[') :
    headerParts (frontLine ('[' :: s)) =
      (Text.splitAt '.' (trim ((trimRight (firstLine s)).reverse.dropWhile (· == ']')).reverse)).map
        trim := by
  have hopen : ('[' :: trimRight (firstLine s)).dropWhile (· == '[') = trimRight (firstLine s) := by
    rw [List.dropWhile_cons_of_pos (by decide)]
    cases hrest : trimRight (firstLine s) with
    | nil => rfl
    | cons c more =>
      refine List.dropWhile_cons_of_neg fun hc => hone (head?_of_frontLine ?_)
      rw [hrest, eq_of_beq hc]
      rfl
  rw [frontLine_cons (by decide), headerParts, hopen]

/-- A header has the name that the scan takes from it, if that is bare. -/
theorem key_of_headerParts {key : List String} {name : List Char} (hname : IsBare name)
    (hone : s.head? ≠ some '[') (hkey : dottedKey? s = some (key, rest))
    (hparts : headerParts (frontLine ('[' :: s)) = [name]) :
    key = [String.ofList name] := by
  obtain ⟨blanks, hblanks, hblank⟩ := Text.exists_eq_trimRight (firstLine s)
  obtain ⟨back, hback, hend⟩ := exists_eq_append_of_firstLine hblanks hblank
  obtain ⟨brackets, hbrackets, hclose⟩ :=
    Text.exists_eq_reverse_dropWhile_append (· == ']') (trimRight (firstLine s))
  rw [headerParts_frontLine hone] at hparts
  generalize ((trimRight (firstLine s)).reverse.dropWhile (· == ']')).reverse = inner
    at hparts hbrackets
  obtain ⟨piece, hpiece, rfl⟩ := List.map_eq_singleton_iff.mp hparts
  have hjoin : piece = trim inner := by
    rw [← Text.joinWith_splitAt '.' (trim inner), hpiece]
    rfl
  obtain ⟨left, right, hinner, hleft, hright⟩ := Text.exists_eq_trim inner
  obtain ⟨left', right', hpiece', hleft', hright'⟩ := Text.exists_eq_trim piece
  have hs : s = (left ++ left') ++ (trim piece ++ ((right' ++ right ++ brackets) ++ back)) := by
    rw [hback, hbrackets, hinner, ← hjoin]
    conv_lhs => rw [hpiece']
    simp
  rw [hs] at hkey
  refine hname.key_eq (fun c hc => (List.mem_append.mp hc).elim (hleft c) (hleft' c)) ?_ hkey
  intro c hc
  rcases mem_head?_skipSpaces_append hc with hc | hc
  · rcases List.mem_append.mp hc with hc | hc
    · exact ne_dot_of_isBlank ((List.mem_append.mp hc).elim (hright' c) (hright c))
    · rw [eq_of_beq (hclose c hc)]
      decide
  · exact ne_dot_of_isBlank (hend c hc)

/-- A plain header ends with its bracket. -/
theorem trimRight_firstLine_of_header {front after : List Char} (hs : s = front ++ ']' :: after)
    (hnewline : '\n' ∉ front) (hcomment : '#' ∉ firstLine s) (hend : endOfLine? after = some rest) :
    trimRight (firstLine s) = front ++ [']'] := by
  obtain ⟨line, hline, hblank, hafter⟩ := exists_of_endOfLine? hend
  have hlast : firstLine after = line := by
    rcases hafter with rfl | ⟨rfl, -⟩
    · rw [firstLine_append hline, firstLine_newline, List.append_nil]
    · exact firstLine_of_notMem hline
  have hfirst : firstLine s = front ++ ']' :: line := by
    rw [hs, firstLine_append hnewline, firstLine_cons (by decide), hlast]
  have hblanks : ∀ c ∈ line, isBlank c := hblank fun hmem => hcomment (by simp [hfirst, hmem])
  rw [hfirst, Text.trimRight_append_cons (by decide)]
  exact congrArg (front ++ ']' :: ·) (Text.trimRight_append_of_blank hblanks [])

theorem mem_firstLine_of_key {key : List String} (hkey : dottedKey? s = some (key, rest)) :
    ∀ c ∈ (skipSpaces s).head?, c ∈ firstLine s := by
  intro c hc
  obtain ⟨more, hmore⟩ := List.head?_eq_some_iff.mp hc
  have hnewline : c ≠ '\n' := fun heq => not_isBlank_of_dottedKey? hkey c hc (heq ▸ rfl)
  rw [firstLine_eq_append, hmore, firstLine_cons hnewline]
  exact List.mem_append_right _ List.mem_cons_self

/-- The converse, if nothing is quoted or commented. -/
theorem headerParts_of_key {name : String} {after : List Char} (hone : s.head? ≠ some '[')
    (hplain : '"' ∉ firstLine s ∧ '\'' ∉ firstLine s ∧ '#' ∉ firstLine s)
    (hkey : dottedKey? s = some ([name], ']' :: after)) (hend : endOfLine? after = some rest) :
    headerParts (frontLine ('[' :: s)) = [name.toList] := by
  have hquote : ∀ c ∈ (skipSpaces s).head?, c ≠ '"' ∧ c ≠ '\'' := by
    intro c hc
    have hmem := mem_firstLine_of_key hkey c hc
    exact ⟨fun heq => hplain.1 (heq ▸ hmem), fun heq => hplain.2.1 (heq ▸ hmem)⟩
  obtain ⟨left, right, hs, hbare, hleft, hright⟩ := exists_spaces_of_dottedKey? hkey hquote
  have hchars {c : Char} (hc : c ∈ left ++ (name.toList ++ right)) : isSpace c ∨ isBareKeyChar c :=
    hbare.isSpace_or_isBareKeyChar hleft hright hc
  have hnewline : '\n' ∉ left ++ (name.toList ++ right) :=
    fun hmem => (hchars hmem).elim (by decide) (by decide)
  have hbracket : ∀ c ∈ left ++ (name.toList ++ right), ¬ c == ']' := by
    intro c hc heq
    rw [eq_of_beq heq] at hc
    exact (hchars hc).elim (by decide) (by decide)
  rw [headerParts_frontLine hone, trimRight_firstLine_of_header hs hnewline hplain.2.2 hend,
    Text.reverse_dropWhile_append hbracket (by decide), hbare.trim_spaced hleft hright,
    Text.splitAt_of_notMem '.' hbare.dot_notMem, List.map_singleton, hbare.trim_eq]

/-! ## The scan along the blocks -/

variable {line? : Option Line}

/-- The scan takes notice of the first line of a block at most. -/
theorem findLine_text (hend : (∃ body, text = body ++ ['\n']) ∨ rest = []) (hleaf : leaf ≠ [])
    (hfurther : ∀ line ∈ (Text.splitAt '\n' text).tail, ¬ IsNoticed leaf line) :
    findLine parents leaf here number (Text.splitAt '\n' (text ++ rest)) =
      if isHeader (frontLine (text ++ rest)) then
        findLine parents leaf (headerParts (frontLine (text ++ rest))) (number + text.count '\n')
          (Text.splitAt '\n' rest)
      else if here = parents ∧ assigns leaf (frontLine (text ++ rest)) then some number
      else findLine parents leaf here (number + text.count '\n') (Text.splitAt '\n' rest) := by
  obtain ⟨more, hmore⟩ := Text.exists_splitAt_eq_cons '\n' (text ++ rest)
  have hskip (here : List (List Char)) : findLine parents leaf here (number + 1) more =
      findLine parents leaf here (number + text.count '\n') (Text.splitAt '\n' rest) := by
    rcases hend with ⟨body, rfl⟩ | rfl
    · obtain ⟨further, hbody⟩ := Text.exists_splitAt_eq_cons '\n' body
      have htext : Text.splitAt '\n' (body ++ ['\n']) = Text.splitAt '\n' body ++ [[]] :=
        Text.splitAt_append '\n' body []
      have hlength : further.length = body.count '\n' := by
        have hpieces := Text.length_splitAt '\n' body
        rw [hbody] at hpieces
        exact Nat.succ.inj hpieces
      rw [List.append_assoc, List.singleton_append, Text.splitAt_append, hbody,
        List.cons_append] at hmore
      obtain ⟨-, rfl⟩ := List.cons.inj hmore
      have hnone : ∀ line ∈ further, ¬ IsNoticed leaf line := by
        intro line hline
        refine hfurther line ?_
        rw [htext, hbody]
        exact List.mem_append_left _ hline
      rw [findLine_append hnone, hlength, List.count_append, Nat.add_assoc, Nat.add_comm 1]
      rfl
    · rw [List.append_nil] at hmore
      have hnone : ∀ line ∈ more, ¬ IsNoticed leaf line := by
        intro line hline
        refine hfurther line ?_
        rw [hmore]
        exact hline
      have hempty : ∀ line ∈ [[]], ¬ IsNoticed leaf line :=
        List.forall_mem_singleton.mpr (not_isNoticed_of_trim_eq_nil hleaf rfl)
      exact (findLine_eq_none hnone).trans (findLine_eq_none hempty).symm
  rw [hmore, findLine, ← hskip, ← hskip]
  rfl

theorem not_assigns_of_cons {c : Char} (hleaf : IsBare leaf) (hc : ¬ isBareKeyChar c) :
    ¬ assigns leaf (c :: s) := by
  intro hassigns
  obtain ⟨back, hback, -⟩ := assigns_iff.mp hassigns
  obtain ⟨d, tail, rfl⟩ := List.exists_cons_of_ne_nil hleaf.1
  obtain ⟨rfl, -⟩ := List.cons.inj hback
  exact hc (hleaf.2 c List.mem_cons_self)

/-- Blank lines and comments say nothing to the scan either. -/
theorem frontLine_of_none (h : block? s = some (none, rest)) :
    frontLine s = [] ∨ ∃ more, frontLine s = '#' :: more := by
  rw [← frontLine_skipSpaces]
  rcases front_of_block? h with hnil | ⟨tail, htail⟩ | ⟨tail, htail⟩ | ⟨tail, htail⟩
  · exact .inl (by rw [hnil]; rfl)
  · exact .inr ⟨_, htail ▸ frontLine_cons (by decide) tail⟩
  · exact .inl (by rw [htail, frontLine, firstLine_newline]; rfl)
  · exact .inl (by rw [htail, frontLine, firstLine_cons (by decide), firstLine_newline]; rfl)

/-- What the scan does at a block: a header changes the table, and a key with its value ends the
scan if it is in the right table. -/
theorem findLine_block (hblock : block? (text ++ rest) = some (line?, rest))
    (hend : (∃ body, text = body ++ ['\n']) ∨ rest = []) (hleaf : IsBare leaf)
    (hfurther : ∀ line ∈ (Block.mk text line?).furtherLines, ¬ IsNoticed leaf line) :
    findLine parents leaf here number (Text.splitAt '\n' (text ++ rest)) =
      match line? with
      | some (.header _) => findLine parents leaf (headerParts (frontLine (text ++ rest)))
          (number + text.count '\n') (Text.splitAt '\n' rest)
      | some (.assignment _ _) =>
        if here = parents ∧ assigns leaf (frontLine (text ++ rest)) then some number
        else findLine parents leaf here (number + text.count '\n') (Text.splitAt '\n' rest)
      | _ => findLine parents leaf here (number + text.count '\n') (Text.splitAt '\n' rest) := by
  have hfront := front_of_block? hblock
  rw [findLine_text hend hleaf.1 hfurther]
  match line? with
  | none =>
    have hsilent : ¬ isHeader (frontLine (text ++ rest)) ∧
        ¬ assigns leaf (frontLine (text ++ rest)) := by
      rcases frontLine_of_none hblock with hnil | ⟨more, hmore⟩
      · have hempty : ¬ IsNoticed leaf [] := not_isNoticed_of_trim_eq_nil hleaf.1 rfl
        rw [hnil]
        exact ⟨fun h => hempty (.inl h), fun h => hempty (.inr h)⟩
      · rw [hmore, isHeader_cons_iff]
        exact ⟨fun h => absurd h.1 (by decide), not_assigns_of_cons hleaf (by decide)⟩
    rw [if_neg hsilent.1, if_neg fun h => hsilent.2 h.2]
  | some (.header key) =>
    obtain ⟨tail, after, htail, hone, -, -⟩ := hfront
    have hheader : isHeader (frontLine (text ++ rest)) := by
      rw [← frontLine_skipSpaces, htail, frontLine_cons (by decide), isHeader_cons_iff]
      exact ⟨rfl, fun h => hone (head?_of_frontLine h)⟩
    rw [if_pos hheader]
  | some (.elementHeader key) =>
    obtain ⟨tail, htail⟩ := hfront
    have hline : frontLine (text ++ rest) = '[' :: '[' :: trimRight (firstLine tail) := by
      rw [← frontLine_skipSpaces, htail, frontLine_cons (by decide), firstLine_cons (by decide)]
      exact congrArg ('[' :: ·) (Text.trimRight_append_cons (by decide) [] _)
    have hheader : ¬ isHeader (frontLine (text ++ rest)) := by
      rw [hline, isHeader_cons_iff]
      exact fun h => h.2 rfl
    have hassigns : ¬ assigns leaf (frontLine (text ++ rest)) :=
      hline ▸ not_assigns_of_cons hleaf (by decide)
    rw [if_neg hheader, if_neg fun h => hassigns h.2]
  | some (.assignment key value) =>
    obtain ⟨hbracket, after, hkey⟩ := hfront
    have hheader : ¬ isHeader (frontLine (text ++ rest)) := by
      rw [← frontLine_skipSpaces]
      cases hfirst : skipSpaces (text ++ rest) with
      | nil => decide
      | cons c tail =>
        have hhead : (skipSpaces (text ++ rest)).head? = some c := by rw [hfirst]; rfl
        rw [frontLine_cons (not_isBlank_of_dottedKey? hkey c hhead), isHeader_cons_iff]
        exact fun h => hbracket (h.1 ▸ hhead)
    rw [if_neg hheader]

/-! ## Whole files -/

variable {tables : List String} {blocks : List Block} {fuel : Nat} {table? : Option (List String)}

/-- The keys that a scan can be asked for: a bare name at the top, or in a table
with a bare name. -/
structure IsPlainKey (tables : List String) (name : String) : Prop where
  length_le : tables.length ≤ 1
  isBare : ∀ part ∈ tables ++ [name], IsBare part.toList

namespace IsPlainKey

theorem isBare_name {name : String} (h : IsPlainKey tables name) : IsBare name.toList :=
  h.isBare name (List.mem_append_right _ List.mem_cons_self)

/-- A header has the name that the scan goes by. -/
theorem key_of_headerParts {name : String} (h : IsPlainKey tables name) {key : List String}
    (hone : s.head? ≠ some '[') (hkey : dottedKey? s = some (key, rest))
    (hparts : headerParts (frontLine ('[' :: s)) = tables.map String.toList) : key = tables := by
  match tables, h with
  | [], h =>
    rw [headerParts_frontLine hone, List.map_nil, List.map_eq_nil_iff] at hparts
    exact absurd hparts (Text.splitAt_ne_nil '.' _)
  | [table], h =>
    rw [Config.key_of_headerParts (h.isBare table List.mem_cons_self) hone hkey hparts,
      String.ofList_toList]
  | _ :: _ :: _, h => exact absurd h.length_le (by simp)

/-- The converse, if nothing is quoted or commented. -/
theorem headerParts_of_key {name : String} (h : IsPlainKey tables name) {after : List Char}
    (hone : s.head? ≠ some '[')
    (hplain : '"' ∉ firstLine s ∧ '\'' ∉ firstLine s ∧ '#' ∉ firstLine s)
    (hkey : dottedKey? s = some (tables, ']' :: after)) (hend : endOfLine? after = some rest) :
    headerParts (frontLine ('[' :: s)) = tables.map String.toList := by
  match tables, h with
  | [], _ => exact absurd rfl (ne_nil_of_keyParts? hkey)
  | [table], _ => exact Config.headerParts_of_key hone hplain hkey hend
  | _ :: _ :: _, h => exact absurd h.length_le (by simp)

end IsPlainKey

/-! ### What a block says to the scan -/

variable {name : String}

namespace IsPlainKey

/-- Where the scan takes a header for that of its table, it is. -/
theorem header_of_block {key : List String} (h : IsPlainKey tables name)
    (hblock : block? s = some (some (.header key), rest))
    (hparts : headerParts (frontLine s) = tables.map String.toList) : key = tables := by
  obtain ⟨tail, after, htail, hone, hkey, -⟩ := front_of_block? hblock
  rw [← frontLine_skipSpaces, htail] at hparts
  exact h.key_of_headerParts hone hkey hparts

/-- The scan knows the header of its table if nothing in it is quoted or commented. -/
theorem parts_of_block (h : IsPlainKey tables name)
    (hblock : block? (text ++ rest) = some (some (.header tables), rest))
    (hend : (∃ body, text = body ++ ['\n']) ∨ rest = [])
    (hplain : '"' ∉ text ∧ '\'' ∉ text ∧ '#' ∉ text) :
    headerParts (frontLine (text ++ rest)) = tables.map String.toList := by
  obtain ⟨tail, after, htail, hone, hkey, hrest⟩ := front_of_block? hblock
  have hmem {c : Char} (hc : c ∈ firstLine tail) : c ∈ text := by
    refine mem_text_of_mem_firstLine hend ?_
    rw [firstLine_eq_append, htail, firstLine_cons (by decide)]
    exact List.mem_append_right _ (List.mem_cons_of_mem _ hc)
  rw [← frontLine_skipSpaces, htail]
  exact h.headerParts_of_key hone
    ⟨mt hmem hplain.1, mt hmem hplain.2.1, mt hmem hplain.2.2⟩ hkey hrest

/-- Where the scan takes a line for one that gives the key a value, it does. -/
theorem key_of_block {key : List String} {value : Value} (h : IsPlainKey tables name)
    (hblock : block? s = some (some (.assignment key value), rest))
    (hassigns : assigns name.toList (frontLine s)) : key = [name] := by
  obtain ⟨-, after, hkey⟩ := front_of_block? hblock
  rw [key_of_assigns h.isBare_name hkey hassigns, String.ofList_toList]

end IsPlainKey

/-- The scan knows a line that gives the key a value if it does not begin with a quote. -/
theorem assigns_of_block {value : Value}
    (hblock : block? (text ++ rest) = some (some (.assignment [name] value), rest))
    (hend : (∃ body, text = body ++ ['\n']) ∨ rest = [])
    (hquote : (skipSpaces text).head? ≠ some '"' ∧ (skipSpaces text).head? ≠ some '\'') :
    assigns name.toList (frontLine (text ++ rest)) := by
  obtain ⟨-, after, hkey⟩ := front_of_block? hblock
  refine assigns_of_key ?_ hkey
  intro c hc
  rw [head?_skipSpaces_text hend] at hc
  exact ⟨fun heq => hquote.1 (heq ▸ hc), fun heq => hquote.2 (heq ▸ hc)⟩

/-- Nothing is found in spaces. -/
theorem findLine_of_spaces (hblock : block? s = some (none, [])) (hleaf : IsBare leaf)
    (hfurther : ∀ line ∈ (Block.mk s none).furtherLines, ¬ IsNoticed leaf line) :
    findLine parents leaf here number (Text.splitAt '\n' s) = none := by
  have hall : block? (s ++ []) = some (none, []) := by rw [List.append_nil, hblock]
  have hempty : ∀ line ∈ [[]], ¬ IsNoticed leaf line :=
    List.forall_mem_singleton.mpr (not_isNoticed_of_trim_eq_nil hleaf.1 rfl)
  rw [← List.append_nil s, findLine_block hall (.inr rfl) hleaf hfurther]
  exact findLine_eq_none hempty

/-! ### Along the blocks -/

/-- What the scan finds is a definition of the key, in its table or in an element of an array. -/
theorem exists_definition_of_findLine (hplain : IsPlainKey tables name)
    (hblocks : blocks? fuel s = some blocks)
    (hfurther : ∀ block ∈ blocks, ∀ line ∈ block.furtherLines, ¬ IsNoticed name.toList line)
    (hhere : here = tables.map String.toList → table? = some tables ∨ table? = none) {found : Nat}
    (hfound : findLine (tables.map String.toList) name.toList here number
      (Text.splitAt '\n' s) = some found) :
    ∃ definition ∈ definitions table? number blocks,
      definition.number = found ∧ definition.key = [name] ∧
      (definition.table? = some tables ∨ definition.table? = none) := by
  -- `here` is the table of the scan and `table?` that of the document
  induction fuel generalizing s blocks table? here number with
  | zero => cases hblocks
  | succ fuel ih =>
    rcases blocks?_cases hblocks with
      ⟨hblock, rfl⟩ | ⟨text, line?, rest, more, hblock, hmore, rfl, rfl, hend⟩
    · rw [findLine_of_spaces hblock hplain.isBare_name
        (List.forall_mem_singleton.mp hfurther)] at hfound
      cases hfound
    · obtain ⟨hself, hothers⟩ := List.forall_mem_cons.mp hfurther
      rw [findLine_block hblock hend hplain.isBare_name hself] at hfound
      match line? with
      | none =>
        rw [definitions]
        exact ih hmore hothers hhere hfound
      | some (.elementHeader key) =>
        -- the scan passes over this header, so it may still be in the table from before
        rw [definitions]
        exact ih hmore hothers (fun _ => .inr rfl) hfound
      | some (.header key) =>
        have hnext : headerParts (frontLine (text ++ rest)) = tables.map String.toList →
            some key = some tables ∨ some key = none := by
          intro hparts
          exact .inl (congrArg some (hplain.header_of_block hblock hparts))
        rw [definitions]
        exact ih hmore hothers hnext hfound
      | some (.assignment key value) =>
        rw [definitions]
        dsimp only at hfound
        split at hfound
        · rename_i hfinds
          have hkey := hplain.key_of_block hblock hfinds.2
          exact ⟨⟨number, table?, key, text⟩, List.mem_cons_self, Option.some.inj hfound, hkey,
            hhere hfinds.1⟩
        · obtain ⟨definition, hmem, hdefinition⟩ := ih hmore hothers hhere hfound
          exact ⟨definition, List.mem_cons_of_mem _ hmem, hdefinition⟩

/-- A definition that is not quoted is found, unless the scan finds another one first, if nothing is
quoted or commented in the headers of its table. -/
theorem exists_findLine_of_definition (hplain : IsPlainKey tables name)
    (hblocks : blocks? fuel s = some blocks)
    (hfurther : ∀ block ∈ blocks, ∀ line ∈ block.furtherLines, ¬ IsNoticed name.toList line)
    (hheaders : ∀ block ∈ blocks, block.line? = some (.header tables) → block.IsPlain)
    (hhere : table? = some tables → here = tables.map String.toList) {definition : Definition}
    (hmem : definition ∈ definitions table? number blocks)
    (htable : definition.table? = some tables) (hkey : definition.key = [name])
    (hquote : definition.IsUnquoted) :
    ∃ found,
      findLine (tables.map String.toList) name.toList here number (Text.splitAt '\n' s) =
        some found ∧
      number ≤ found := by
  -- here the table of the document decides about that of the scan
  induction fuel generalizing s blocks table? here number with
  | zero => cases hblocks
  | succ fuel ih =>
    rcases blocks?_cases hblocks with
      ⟨-, rfl⟩ | ⟨text, line?, rest, more, hblock, hmore, rfl, rfl, hend⟩
    · cases hmem
    · obtain ⟨hself, hothers⟩ := List.forall_mem_cons.mp hfurther
      obtain ⟨hheader, hheaders⟩ := List.forall_mem_cons.mp hheaders
      have honward {table? : Option (List String)} {here : List (List Char)}
          (hhere : table? = some tables → here = tables.map String.toList)
          (hmem : definition ∈ definitions table? (number + text.count '\n') more) :
          ∃ found, findLine (tables.map String.toList) name.toList here (number + text.count '\n')
            (Text.splitAt '\n' rest) = some found ∧ number ≤ found := by
        obtain ⟨found, hfound, hle⟩ := ih hmore hothers hheaders hhere hmem
        exact ⟨found, hfound, by omega⟩
      rw [findLine_block hblock hend hplain.isBare_name hself]
      match line? with
      | none =>
        rw [definitions] at hmem
        exact honward hhere hmem
      | some (.elementHeader key) =>
        rw [definitions] at hmem
        exact honward (fun h => by cases h) hmem
      | some (.header key) =>
        have hnext : some key = some tables →
            headerParts (frontLine (text ++ rest)) = tables.map String.toList := by
          intro htables
          obtain rfl := Option.some.inj htables
          exact hplain.parts_of_block hblock hend (hheader rfl)
        rw [definitions] at hmem
        exact honward hnext hmem
      | some (.assignment key value) =>
        rw [definitions] at hmem
        dsimp only
        split
        · exact ⟨number, rfl, le_rfl⟩
        · rename_i hmiss
          rcases List.mem_cons.mp hmem with rfl | hmem
          · obtain rfl : key = [name] := hkey
            exact absurd ⟨hhere htable, assigns_of_block hblock hend hquote⟩ hmiss
          · exact honward hhere hmem

/-! ### Reports -/

/-- The line of a key is that of its last name in the table of the others. -/
theorem keyLine_dotted (hplain : IsPlainKey tables name) (content : String) :
    keyLine content (dotted (tables ++ [name])) =
      (findLine (tables.map String.toList) name.toList [] 1
        (Text.splitAt '\n' content.toList)).getD 0 := by
  have hdot : ∀ part ∈ tables ++ [name], '.' ∉ part.toList :=
    fun part hpart hmem => absurd ((hplain.isBare part hpart).2 _ hmem) (by decide)
  have hpieces : Text.splitAt '.' (dotted (tables ++ [name])).toList =
      (tables ++ [name]).map String.toList := by
    rw [← Text.map_toList_pieces]
    exact congrArg _ (Text.pieces_intercalate '.' (by simp) hdot)
  simp only [keyLine, hpieces, List.map_append, List.map_singleton, List.dropLast_concat,
    List.getLast?_concat, Option.getD_some, findLine_lines hplain.isBare_name.1]

/-- A document that can be read has blocks. -/
theorem exists_blocks_of_parse {content : String} {table : Table}
    (h : Toml.parse content = some table) (hmark : content.toList.head? ≠ some '\uFEFF') :
    ∃ blocks, blocks? (content.toList.length + 1) content.toList = some blocks := by
  have hlines : ∃ lines, lines? (content.toList.length + 1) content.toList = some lines := by
    unfold Toml.parse at h
    split at h
    · rename_i more hfirst
      exact absurd (by rw [hfirst]; rfl) hmark
    · obtain ⟨lines, hlines, -⟩ := Option.bind_eq_some_iff.mp h
      exact ⟨lines, hlines⟩
  obtain ⟨lines, hlines⟩ := hlines
  rw [lines?_eq_blocks?] at hlines
  obtain ⟨blocks, hblocks, -⟩ := Option.map_eq_some_iff.mp hlines
  exact ⟨blocks, hblocks⟩

/-- A file whose keys are reported can be read, and each is reported with the line that the
scan gives it. -/
theorem exists_table_of_checkFile {path : Path} {content : String} {keys : List UnknownKey}
    (h : checkFile path content = .error (.unknownKeys keys)) :
    (∃ table, Toml.parse content = some table) ∧
      ∀ unknown ∈ keys, unknown.line = keyLine content unknown.key := by
  unfold checkFile at h
  split at h
  · cases h
  · rename_i table htable
    split at h
    · cases h
    · split at h
      · cases h
      · cases h
        refine ⟨⟨table, htable⟩, fun unknown hmem => ?_⟩
        obtain ⟨key, -, rfl⟩ := List.mem_map.mp hmem
        rfl

/-- The keys that the check of a file reports. -/
def reportedKeys? (path : Path) (content : String) : Option (List UnknownKey) :=
  match checkFile path content with
  | .error (.unknownKeys keys) => some keys
  | _ => none

theorem checkFile_of_reportedKeys? {path : Path} {content : String} {keys : List UnknownKey}
    (h : reportedKeys? path content = some keys) :
    checkFile path content = .error (.unknownKeys keys) := by
  unfold reportedKeys? at h
  split at h
  · rename_i reported hcheck
    cases h
    exact hcheck
  · cases h

end Config

open Toml Config

/-- **The lines of unknown keys.**  A file without a byte order mark is cut into blocks, which say
what its reader is told.  Take an unknown key that is a bare name, at the top or in a table with a
bare name, and let no further line of a value read as a header or as giving a value to that name.

If the name is given no value in an element of an array of tables, the line that is reported is zero
or one on which the file gives that very key a value, in that very table.  And it is not zero if the
file does so without quotes, and nothing is quoted or commented in the headers of the table. -/
theorem key_lines_exact {path : Path} {content : String} {keys : List UnknownKey}
    (h : checkFile path content = .error (.unknownKeys keys))
    (hmark : content.toList.head? ≠ some '\uFEFF') :
    ∃ blocks, blocks? (content.toList.length + 1) content.toList = some blocks ∧
      lines? (content.toList.length + 1) content.toList = some (blocks.filterMap Block.line?) ∧
      (blocks.map Block.text).flatten = content.toList ∧
      ∀ unknown ∈ keys, ∀ (tables : List String) (name : String),
        unknown.key = dotted (tables ++ [name]) →
        IsPlainKey tables name →
        (∀ block ∈ blocks, ∀ line ∈ block.furtherLines, ¬ IsNoticed name.toList line) →
        ((∀ definition ∈ definitions (some []) 1 blocks,
          definition.key = [name] → definition.table? ≠ none) →
          unknown.line = 0 ∨ ∃ definition ∈ definitions (some []) 1 blocks,
            definition.number = unknown.line ∧ definition.table? = some tables ∧
              definition.key = [name]) ∧
        ((∀ block ∈ blocks, block.line? = some (.header tables) → block.IsPlain) →
          (∃ definition ∈ definitions (some []) 1 blocks,
            definition.table? = some tables ∧ definition.key = [name] ∧ definition.IsUnquoted) →
          unknown.line ≠ 0) := by
  obtain ⟨⟨table, htable⟩, hkeys⟩ := exists_table_of_checkFile h
  obtain ⟨blocks, hblocks⟩ := exists_blocks_of_parse htable hmark
  refine ⟨blocks, hblocks, by rw [lines?_eq_blocks?, hblocks]; rfl, flatten_of_blocks? hblocks, ?_⟩
  intro unknown hmem tables name hkey hplain hfurther
  have hline := hkeys unknown hmem
  rw [hkey, keyLine_dotted hplain] at hline
  constructor
  · intro harrays
    cases hfound : findLine (tables.map String.toList) name.toList [] 1
      (Text.splitAt '\n' content.toList) with
    | none => exact .inl (by rw [hline, hfound]; rfl)
    | some found =>
      have hhere : [] = tables.map String.toList →
          some [] = some tables ∨ (some [] : Option (List String)) = none :=
        fun hnil => .inl (congrArg some (List.map_eq_nil_iff.mp hnil.symm).symm)
      obtain ⟨definition, hdefined, hnumber, hname, htables⟩ :=
        exists_definition_of_findLine hplain hblocks hfurther hhere hfound
      refine .inr ⟨definition, hdefined, ?_,
        htables.resolve_right (harrays definition hdefined hname), hname⟩
      rw [hnumber, hline, hfound]
      rfl
  · rintro hheaders ⟨definition, hdefined, htables, hname, hquote⟩
    have hhere : some [] = some tables → [] = tables.map String.toList :=
      fun hnil => (List.map_eq_nil_iff.mpr (Option.some.inj hnil).symm).symm
    obtain ⟨found, hfound, hle⟩ :=
      exists_findLine_of_definition hplain hblocks hfurther hheaders hhere hdefined
        htables hname hquote
    rw [hline, hfound, Option.getD_some]
    omega

/-- A value over three lines at the top, and a key in a table behind it. -/
theorem key_lines_exact_two_keys :
    let content := "x = [\n  1,\n]\n[dotenv]\ny = 1\n"
    let keys : List UnknownKey := [⟨"x", ⟨"f"⟩, 1⟩, ⟨"dotenv.y", ⟨"f"⟩, 5⟩]
    checkFile ⟨"f"⟩ content = .error (.unknownKeys keys) ∧ content.toList.head? ≠ some '\uFEFF' ∧
      IsPlainKey ["dotenv"] "y" ∧
      ∃ blocks, blocks? (content.toList.length + 1) content.toList = some blocks ∧
        (∀ block ∈ blocks, ∀ line ∈ block.furtherLines, ¬ IsNoticed "y".toList line) ∧
        ∃ definition ∈ definitions (some []) 1 blocks,
          definition.number = 5 ∧ definition.table? = some ["dotenv"] ∧ definition.key = ["y"] := by
  intro content keys
  have hcheck : checkFile ⟨"f"⟩ content = .error (.unknownKeys keys) :=
    checkFile_of_reportedKeys? (by decide +kernel)
  have hmark : content.toList.head? ≠ some '\uFEFF' := by decide
  have hplain : IsPlainKey ["dotenv"] "y" := ⟨by decide, by decide⟩
  obtain ⟨blocks, hblocks, -, -, hkeys⟩ := key_lines_exact hcheck hmark
  have hfurther : ∀ blocks ∈ blocks? (content.toList.length + 1) content.toList,
      ∀ block ∈ blocks, ∀ line ∈ block.furtherLines, ¬ IsNoticed "y".toList line := by
    decide +kernel
  have hheaders : ∀ blocks ∈ blocks? (content.toList.length + 1) content.toList,
      ∀ block ∈ blocks, block.IsPlain := by
    decide +kernel
  have harrays : ∀ blocks ∈ blocks? (content.toList.length + 1) content.toList,
      ∀ definition ∈ definitions (some []) 1 blocks,
        definition.key = ["y"] → definition.table? ≠ none := by
    decide +kernel
  have hdefined : ∀ blocks ∈ blocks? (content.toList.length + 1) content.toList,
      ∃ definition ∈ definitions (some []) 1 blocks,
        definition.table? = some ["dotenv"] ∧ definition.key = ["y"] ∧ definition.IsUnquoted := by
    decide +kernel
  obtain ⟨hfound, hlocated⟩ :=
    hkeys ⟨"dotenv.y", ⟨"f"⟩, 5⟩ (by simp [keys]) ["dotenv"] "y" rfl hplain
      (hfurther blocks hblocks)
  have hline :=
    hlocated (fun block hblock _ => hheaders blocks hblocks block hblock) (hdefined blocks hblocks)
  exact ⟨hcheck, hmark, hplain, blocks, hblocks, hfurther blocks hblocks,
    (hfound (harrays blocks hblocks)).resolve_left hline⟩

/-- Where lines and values do not agree the report can be wrong: a comment behind a header hides the
keys below it, and a line of a value is taken for a key. -/
theorem key_lines_missed :
    (let content := "[dotenv] # c\nout = 1\n"
     checkFile ⟨"f"⟩ content = .error (.unknownKeys [⟨"dotenv.out", ⟨"f"⟩, 0⟩]) ∧
      ∃ blocks ∈ blocks? (content.toList.length + 1) content.toList,
        ∃ definition ∈ definitions (some []) 1 blocks, definition.number = 2 ∧
          definition.table? = some ["dotenv"] ∧ definition.key = ["out"] ∧ definition.IsUnquoted) ∧
    (let content := "a = \'\'\'\nbad = 1\n\'\'\'\nbad = 2\n"
     checkFile ⟨"f"⟩ content = .error (.unknownKeys [⟨"a", ⟨"f"⟩, 1⟩, ⟨"bad", ⟨"f"⟩, 2⟩]) ∧
      ∃ blocks ∈ blocks? (content.toList.length + 1) content.toList,
        ((definitions (some []) 1 blocks).filter (·.key = ["bad"])).map (·.number) = [4]) := by
  refine ⟨⟨checkFile_of_reportedKeys? ?_, ?_⟩, checkFile_of_reportedKeys? ?_, ?_⟩
  all_goals decide +kernel

end SiteSettings
