import SiteSettings.Config.Fields
import SiteSettings.Error
import SiteSettings.Toml.Document

/-!
# Strict reading of project files

In strict mode a project file may hold known keys only.  Each unknown key is reported with the line
it is on, as far as that can be told from the lines of the file alone: headers of tables are
followed, and the key must stand unquoted at the beginning of its line.  Keys inside values, and
quoted ones, are not located.
-/

namespace SiteSettings
namespace Config

/-! ## Lines of keys -/

/-- Whether a line is the header of a table. -/
def isHeader (line : List Char) : Bool :=
  (Text.dropStart? ['['] line).isSome && (Text.dropStart? ['[', '['] line).isNone

/-- The parts of the name in a header: what is left without the brackets at both ends. -/
def headerParts (line : List Char) : List (List Char) :=
  let rest := line.dropWhile (· == '[')
  let name := (rest.reverse.dropWhile (· == ']')).reverse
  (Text.splitAt '.' (Text.trim name)).map Text.trim

/-- Whether a line gives a value to the key `leaf`. -/
def assigns (leaf line : List Char) : Bool :=
  match Text.dropStart? leaf line with
  | none => false
  | some rest => (Text.trimLeft rest).head? == some '='

/-- The number of the first line that gives a value to `leaf` in the table `parents`, where `here`
is the table at the first of the lines and `number` that line's number. -/
def findLine (parents : List (List Char)) (leaf : List Char) :
    List (List Char) → Nat → List (List Char) → Option Nat
  | _, _, [] => none
  | here, number, line :: rest =>
    let line := Text.trim line
    if isHeader line then findLine parents leaf (headerParts line) (number + 1) rest
    else if here = parents ∧ assigns leaf line then some number
    else findLine parents leaf here (number + 1) rest

/-- The line of a dotted key in a file, zero if it is not found. -/
def keyLine (content key : String) : Nat :=
  let parts := Text.splitAt '.' key.toList
  let leaf := parts.getLast?.getD []
  (findLine parts.dropLast leaf [] 1 (Text.lines content.toList)).getD 0

/-! ## The check -/

/-- Refuses a file with values of the wrong type or, failing that, with unknown keys. -/
def checkFile (path : Path) (content : String) : Except ProjectError Unit :=
  match Toml.parse content with
  | none => .error (.malformedToml path)
  | some table =>
    match readConfig .asTables table with
    | .error mistake => .error (.wrongType path mistake.reason)
    | .ok _ =>
      match unknownKeys .asTables table with
      | [] => .ok ()
      | keys =>
        .error (.unknownKeys (keys.map fun key => { key, path, line := keyLine content key }))

end Config
end SiteSettings
