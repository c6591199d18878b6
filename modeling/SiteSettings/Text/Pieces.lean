/-!
# Cutting text into pieces

Dotted keys, variable names and files are cut at separators: at single characters, at a pair of
equal characters (leftmost first, without overlap), and at line ends.  Cutting at a separator always
gives at least one piece; joining the pieces again gives the text back.
-/

namespace SiteSettings
namespace Text

/-- Adds a character to the first piece. -/
def extendFirst (c : Char) : List (List Char) → List (List Char)
  | [] => [[c]]
  | piece :: rest => (c :: piece) :: rest

/-- The pieces between the occurrences of `separator`. -/
def splitAt (separator : Char) : List Char → List (List Char)
  | [] => [[]]
  | c :: rest =>
    if c = separator then [] :: splitAt separator rest
    else extendFirst c (splitAt separator rest)

/-- The pieces between the occurrences of two adjacent `separator`s, leftmost first: of three in a
row the third one begins the next piece. -/
def splitAtPair (separator : Char) : List Char → List (List Char)
  | [] => [[]]
  | [c] => [[c]]
  | c :: d :: rest =>
    if c = separator ∧ d = separator then [] :: splitAtPair separator rest
    else extendFirst c (splitAtPair separator (d :: rest))

/-- The pieces with `separator` between them. -/
def joinWith (separator : Char) : List (List Char) → List Char
  | [] => []
  | [piece] => piece
  | piece :: rest => piece ++ separator :: joinWith separator rest

theorem splitAt_ne_nil (separator : Char) (s : List Char) : splitAt separator s ≠ [] := by
  cases s with
  | nil => simp [splitAt]
  | cons c rest =>
    unfold splitAt
    split
    · simp
    · cases splitAt separator rest <;> simp [extendFirst]

theorem joinWith_splitAt (separator : Char) (s : List Char) :
    joinWith separator (splitAt separator s) = s := by
  induction s with
  | nil => rfl
  | cons c rest ih =>
    have hne := splitAt_ne_nil separator rest
    unfold splitAt
    split
    · rename_i h
      cases hp : splitAt separator rest with
      | nil => exact absurd hp hne
      | cons p ps => rw [hp] at ih; simp [joinWith, ih, h]
    · cases hp : splitAt separator rest with
      | nil => exact absurd hp hne
      | cons p ps =>
        rw [hp] at ih
        cases ps <;> simpa [extendFirst, joinWith] using ih

/-- A line without the carriage return that its line feed follows. -/
def dropReturn (line : List Char) : List Char :=
  match line.reverse with
  | '\r' :: rest => rest.reverse
  | _ => line

/-- The lines from their pieces between line feeds: each but the last was ended by one, and
nothing follows a text's last line feed. -/
def linesOfPieces : List (List Char) → List (List Char)
  | [] => []
  | [last] => if last.isEmpty then [] else [last]
  | line :: rest => dropReturn line :: linesOfPieces rest

/-- The lines of a text.  A line ends at a line feed, with the carriage return before it if
there is one; what follows the last line feed is a line unless it is empty. -/
def lines (s : List Char) : List (List Char) :=
  linesOfPieces (splitAt '\n' s)

/-- What follows `start` in `s`, if `s` begins with it. -/
def dropStart? (start s : List Char) : Option (List Char) :=
  if start.isPrefixOf s then some (s.drop start.length) else none

/-- The pieces of `s` between the occurrences of `separator`. -/
def pieces (separator : Char) (s : String) : List String :=
  (splitAt separator s.toList).map String.ofList

end Text
end SiteSettings
