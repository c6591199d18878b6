import SiteSettings.Proofs.Toml.BareKeys
import SiteSettings.Text.Pieces

/-!
# The blocks of a document

A document says one thing after another, but a value may go on over many lines of the text.
`blocks?` cuts the text into what is read at a time: a header, a key with its value, or a line that
says nothing, each up to the end of its line.  The blocks in a row are the whole text, and what they
say is what the reader answers (`lines?_eq_blocks?`).

So the text has a place for everything that it says.  `definitions` lists the keys that it gives
values to, with the number of the line on which each begins and the table that it belongs to.
-/

namespace SiteSettings
namespace Toml

/-- A part of a document that is read at a time, with what it says, if anything. -/
structure Block where
  text : List Char
  line? : Option Line

/-- The lines of a block behind the first one: those that its value goes on over. -/
def Block.furtherLines (block : Block) : List (List Char) :=
  (Text.splitAt '\n' block.text).tail

/-- Whether nothing in a block is quoted or commented. -/
def Block.IsPlain (block : Block) : Prop :=
  '"' ∉ block.text ∧ '\'' ∉ block.text ∧ '#' ∉ block.text

instance (block : Block) : Decidable block.IsPlain :=
  inferInstanceAs (Decidable ('"' ∉ block.text ∧ '\'' ∉ block.text ∧ '#' ∉ block.text))

/-- What the beginning of a text says, and the text behind the end of its line. -/
def block? (s : List Char) : Option (Option Line × List Char) :=
  match skipSpaces s with
  | [] => some (none, [])
  | c :: rest =>
    if c = '#' ∨ c = '\n' ∨ c = '\r' then (endOfLine? (c :: rest)).map (none, ·)
    else do
      let (line, rest) ← (if c = '[' then header? rest else assignment? (c :: rest))
      let rest ← endOfLine? rest
      some (some line, rest)

/-- The blocks of a text. -/
def blocks? : Nat → List Char → Option (List Block)
  | 0, _ => none
  | fuel + 1, s =>
    if (skipSpaces s).isEmpty then some [⟨s, none⟩]
    else do
      let (line?, rest) ← block? s
      let more ← blocks? fuel rest
      some (⟨s.take (s.length - rest.length), line?⟩ :: more)

variable {s rest : List Char} {line? : Option Line} {fuel : Nat} {blocks : List Block}

/-! ## What a block is -/

/-- All that the beginning of a text can be: spaces to the end, a line that says nothing, a header,
or a key with its value. -/
theorem block?_cases (h : block? s = some (line?, rest)) :
    (skipSpaces s = [] ∧ line? = none ∧ rest = []) ∨
    (∃ c tail, skipSpaces s = c :: tail ∧ (c = '#' ∨ c = '\n' ∨ c = '\r') ∧ line? = none ∧
      endOfLine? (c :: tail) = some rest) ∨
    (∃ tail line after, skipSpaces s = '[' :: tail ∧ line? = some line ∧
      header? tail = some (line, after) ∧ endOfLine? after = some rest) ∨
    ∃ c tail line after, skipSpaces s = c :: tail ∧ c ≠ '[' ∧ line? = some line ∧
      assignment? (c :: tail) = some (line, after) ∧ endOfLine? after = some rest := by
  unfold block? at h
  split at h
  · rename_i hnil
    cases h
    exact .inl ⟨hnil, rfl, rfl⟩
  · rename_i c tail hspaces
    split at h
    · rename_i hsilent
      obtain ⟨_, hend, heq⟩ := Option.map_eq_some_iff.mp h
      cases heq
      exact .inr (.inl ⟨c, tail, hspaces, hsilent, rfl, hend⟩)
    · rename_i hsays
      obtain ⟨⟨line, after⟩, hline, h⟩ := Option.bind_eq_some_iff.mp h
      obtain ⟨_, hend, heq⟩ := Option.bind_eq_some_iff.mp h
      cases heq
      split at hline
      · rename_i hbracket
        exact .inr (.inr (.inl ⟨tail, line, after, hbracket ▸ hspaces, rfl, hline, hend⟩))
      · rename_i hbracket
        exact .inr (.inr (.inr ⟨c, tail, line, after, hspaces, hbracket, rfl, hline, hend⟩))

theorem isSuffix_of_assignment? {line : Line} (h : assignment? s = some (line, rest)) :
    rest <:+ s := by
  obtain ⟨⟨key, _⟩, hkey, h⟩ := Option.bind_eq_some_iff.mp h
  obtain ⟨after, hequals, h⟩ := Option.bind_eq_some_iff.mp h
  obtain ⟨⟨value, _⟩, hvalue, heq⟩ := Option.bind_eq_some_iff.mp h
  cases heq
  have hfront := (sameLine_of_dottedKey? hkey).trans
    ((sameLine_of_afterChar? (by decide) hequals).trans (sameLine_skipSpaces after))
  exact (isSuffix_of_value? hvalue).trans hfront.isSuffix

/-- A block goes up to a line end or to the end of the text. -/
theorem exists_text_of_block? (h : block? s = some (line?, rest)) :
    ∃ text, s = text ++ rest ∧ ((∃ body, text = body ++ ['\n']) ∨ rest = []) := by
  have hend {after : List Char} (hafter : after <:+ s) (hrest : endOfLine? after = some rest) :
      ∃ text, s = text ++ rest ∧ ((∃ body, text = body ++ ['\n']) ∨ rest = []) := by
    obtain ⟨front, rfl⟩ := hafter
    obtain ⟨line, -, -, rfl | ⟨rfl, rfl⟩⟩ := exists_of_endOfLine? hrest
    · exact ⟨front ++ line ++ ['\n'], by simp, .inl ⟨front ++ line, rfl⟩⟩
    · exact ⟨front ++ after, by simp, .inr rfl⟩
  have hspaces := (sameLine_skipSpaces s).isSuffix
  rcases block?_cases h with
    ⟨-, -, rfl⟩ | ⟨c, tail, hc, -, -, hrest⟩ |
      ⟨tail, line, after, hc, -, hline, hrest⟩ | ⟨c, tail, line, after, hc, -, -, hline, hrest⟩
  · exact ⟨s, by simp, .inr rfl⟩
  · exact hend (hc ▸ hspaces) hrest
  · have hafter := (sameLine_of_header? hline).isSuffix.trans (List.suffix_cons '[' tail)
    exact hend (hafter.trans (hc ▸ hspaces)) hrest
  · exact hend ((isSuffix_of_assignment? hline).trans (hc ▸ hspaces)) hrest

theorem mem_text_of_mem_firstLine {text : List Char}
    (hend : (∃ body, text = body ++ ['\n']) ∨ rest = []) {c : Char}
    (h : c ∈ firstLine (text ++ rest)) : c ∈ text := by
  rcases hend with ⟨body, rfl⟩ | rfl
  · rw [List.append_assoc, List.singleton_append, firstLine_append_newline] at h
    exact List.mem_append_left _ ((List.takeWhile_prefix _).subset h)
  · rw [List.append_nil] at h
    exact (List.takeWhile_prefix _).subset h

theorem head?_skipSpaces_text {text : List Char}
    (hend : (∃ body, text = body ++ ['\n']) ∨ rest = []) :
    (skipSpaces (text ++ rest)).head? = (skipSpaces text).head? := by
  rcases hend with ⟨body, rfl⟩ | rfl
  · have hnewline : ¬ isSpace '\n' := by decide
    rw [List.append_assoc, List.singleton_append, skipSpaces, skipSpaces,
      Text.dropWhile_append_cons hnewline, Text.dropWhile_append_cons hnewline]
    cases body.dropWhile isSpace <;> rfl
  · rw [List.append_nil]

/-! ### What it begins with -/

theorem header?_cases {line : Line} (h : header? s = some (line, rest)) :
    (∃ inner key, s = '[' :: inner ∧ line = .elementHeader key) ∨
      ∃ key, s.head? ≠ some '[' ∧ line = .header key ∧ dottedKey? s = some (key, ']' :: rest) := by
  unfold header? at h
  split at h
  · rename_i inner
    obtain ⟨⟨key, _⟩, -, h⟩ := Option.bind_eq_some_iff.mp h
    obtain ⟨_, -, h⟩ := Option.bind_eq_some_iff.mp h
    obtain ⟨_, -, heq⟩ := Option.bind_eq_some_iff.mp h
    cases heq
    exact .inl ⟨inner, key, rfl, rfl⟩
  · rename_i hone
    obtain ⟨⟨key, _⟩, hkey, h⟩ := Option.bind_eq_some_iff.mp h
    obtain ⟨_, hclose, heq⟩ := Option.bind_eq_some_iff.mp h
    cases heq
    refine .inr ⟨key, fun hbracket => ?_, rfl, eq_cons_of_afterChar? hclose ▸ hkey⟩
    obtain ⟨inner, hinner⟩ := List.head?_eq_some_iff.mp hbracket
    exact hone inner hinner

theorem exists_of_assignment? {line : Line} (h : assignment? s = some (line, rest)) :
    ∃ key value after, line = .assignment key value ∧ dottedKey? s = some (key, '=' :: after) := by
  obtain ⟨⟨key, _⟩, hkey, h⟩ := Option.bind_eq_some_iff.mp h
  obtain ⟨after, hequals, h⟩ := Option.bind_eq_some_iff.mp h
  obtain ⟨⟨value, _⟩, -, heq⟩ := Option.bind_eq_some_iff.mp h
  cases heq
  exact ⟨key, value, after, rfl, eq_cons_of_afterChar? hequals ▸ hkey⟩

theorem eq_newline_of_endOfLine? {tail : List Char} (h : endOfLine? ('\r' :: tail) = some rest) :
    tail = '\n' :: rest := by
  have hend : lineEnd? ('\r' :: tail) = some rest := h
  unfold lineEnd? at hend
  split at hend
  · rename_i heq
    cases heq
  · rename_i heq
    cases hend
    exact (List.cons.inj heq).2
  · cases hend

/-- What a block says shows in the characters that it begins with. -/
theorem front_of_block? (h : block? s = some (line?, rest)) :
    match line? with
    | none => skipSpaces s = [] ∨ (∃ tail, skipSpaces s = '#' :: tail) ∨
      (∃ tail, skipSpaces s = '\n' :: tail) ∨
        ∃ tail, skipSpaces s = '\r' :: '\n' :: tail
    | some (.header key) => ∃ tail after, skipSpaces s = '[' :: tail ∧ tail.head? ≠ some '[' ∧
        dottedKey? tail = some (key, ']' :: after) ∧ endOfLine? after = some rest
    | some (.elementHeader _) => ∃ tail, skipSpaces s = '[' :: '[' :: tail
    | some (.assignment key _) => (skipSpaces s).head? ≠ some '[' ∧
        ∃ after, dottedKey? s = some (key, '=' :: after) := by
  rcases block?_cases h with ⟨hnil, rfl, -⟩ | ⟨c, tail, hc, hsilent, rfl, hrest⟩ |
    ⟨tail, line, after, hc, rfl, hline, hrest⟩ | ⟨c, tail, line, after, hc, hbracket, rfl, hline, -⟩
  · exact .inl hnil
  · rcases hsilent with rfl | rfl | rfl
    · exact .inr (.inl ⟨tail, hc⟩)
    · exact .inr (.inr (.inl ⟨tail, hc⟩))
    · exact .inr (.inr (.inr ⟨rest, eq_newline_of_endOfLine? hrest ▸ hc⟩))
  · rcases header?_cases hline with ⟨inner, key, rfl, rfl⟩ | ⟨key, hone, rfl, hkey⟩
    · exact ⟨inner, hc⟩
    · exact ⟨tail, after, hc, hone, hkey, hrest⟩
  · obtain ⟨key, value, more, rfl, hkey⟩ := exists_of_assignment? hline
    rw [← hc, dottedKey?_skipSpaces] at hkey
    exact ⟨by simpa [hc] using hbracket, more, hkey⟩

/-! ## The whole text -/

/-- All that a text with blocks can be: spaces, or a block with others behind it. -/
theorem blocks?_cases (h : blocks? (fuel + 1) s = some blocks) :
    (block? s = some (none, []) ∧ blocks = [⟨s, none⟩]) ∨
    ∃ text line? rest more, block? s = some (line?, rest) ∧ blocks? fuel rest = some more ∧
      blocks = ⟨text, line?⟩ :: more ∧ s = text ++ rest ∧
        ((∃ body, text = body ++ ['\n']) ∨ rest = []) := by
  rw [blocks?] at h
  split at h
  · rename_i hnil
    cases h
    refine .inl ⟨?_, rfl⟩
    rw [block?, List.isEmpty_iff.mp hnil]
  · obtain ⟨⟨line?, rest⟩, hblock, h⟩ := Option.bind_eq_some_iff.mp h
    obtain ⟨more, hmore, heq⟩ := Option.bind_eq_some_iff.mp h
    cases heq
    obtain ⟨text, rfl, hend⟩ := exists_text_of_block? hblock
    refine .inr ⟨text, line?, rest, more, hblock, hmore, ?_, rfl, hend⟩
    simp

/-- The reader takes a block at a time. -/
theorem lines?_succ (fuel : Nat) (s : List Char) :
    lines? (fuel + 1) s =
      if (skipSpaces s).isEmpty then some []
      else (block? s).bind fun (line?, rest) => (lines? fuel rest).map (line?.toList ++ ·) := by
  have hend (line : Line) (after : List Char) :
      ((endOfLine? after).bind fun rest => (lines? fuel rest).bind fun more =>
        some (line :: more)) =
        ((endOfLine? after).bind fun rest => some (some line, rest)).bind fun (line?, rest) =>
          (lines? fuel rest).map (line?.toList ++ ·) := by
    cases endOfLine? after with
    | none => rfl
    | some rest =>
      dsimp only [Option.bind_some]
      cases lines? fuel rest <;> rfl
  rw [lines?, block?]
  cases skipSpaces s with
  | nil => rfl
  | cons c tail =>
    dsimp only [List.isEmpty_cons]
    split
    · cases endOfLine? (c :: tail) with
      | none => rfl
      | some rest => exact Option.map_id'.symm
    · split
      · cases header? tail with
        | none => rfl
        | some read => exact hend read.1 read.2
      · cases assignment? (c :: tail) with
        | none => rfl
        | some read => exact hend read.1 read.2

/-- The blocks of a text say what its lines are. -/
theorem lines?_eq_blocks? (fuel : Nat) (s : List Char) :
    lines? fuel s = (blocks? fuel s).map (·.filterMap Block.line?) := by
  induction fuel generalizing s with
  | zero => rfl
  | succ fuel ih =>
    rw [lines?_succ, blocks?]
    split
    · rfl
    · cases block? s with
      | none => rfl
      | some read =>
        obtain ⟨line?, rest⟩ := read
        dsimp only [Option.bind_some]
        rw [ih]
        cases hblocks : blocks? fuel rest with
        | none => simp [hblocks]
        | some more => cases line? <;> simp [hblocks]

theorem flatten_of_blocks? (h : blocks? fuel s = some blocks) :
    (blocks.map Block.text).flatten = s := by
  induction fuel generalizing s blocks with
  | zero => cases h
  | succ fuel ih =>
    obtain ⟨-, rfl⟩ | ⟨text, line?, rest, more, -, hmore, rfl, rfl, -⟩ := blocks?_cases h
    · simp
    · rw [List.map_cons, List.flatten_cons, ih hmore]

/-! ## Definitions -/

/-- A key to which a document gives a value: where it begins, and the table that it belongs to
unless that is an element of an array. -/
structure Definition where
  number : Nat
  table? : Option (List String)
  key : List String
  text : List Char

/-- Whether a definition does not begin with a quote. -/
def Definition.IsUnquoted (definition : Definition) : Prop :=
  (skipSpaces definition.text).head? ≠ some '"' ∧ (skipSpaces definition.text).head? ≠ some '\''

instance (definition : Definition) : Decidable definition.IsUnquoted :=
  inferInstanceAs (Decidable (_ ∧ _))

/-- The definitions in these blocks, where `table?` is the table at the first of them and `number`
the number of the line on which that one begins. -/
def definitions : Option (List String) → Nat → List Block → List Definition
  | _, _, [] => []
  | table?, number, block :: rest =>
    let next := number + block.text.count '\n'
    match block.line? with
    | none => definitions table? next rest
    | some (.header key) => definitions (some key) next rest
    | some (.elementHeader _) => definitions none next rest
    | some (.assignment key _) => ⟨number, table?, key, block.text⟩ :: definitions table? next rest

end Toml
end SiteSettings
