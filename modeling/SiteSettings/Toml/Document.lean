import SiteSettings.Toml.Lexeme
import SiteSettings.Toml.Section

/-!
# Configuration documents

A TOML document is read in two steps.  `lines?` reads its text as a list of `Line`s: headers of
tables, headers of arrays of tables, and keys with their values.  `Layout` then follows the
lines and builds the tables, keeping the one whose header came last aside until it is complete.
`parse` does both.  A malformed document has no answer; which rule it breaks is not told.
-/

namespace SiteSettings
namespace Toml

/-! ## Values -/

mutual

/-- A value of any kind; `depth` more levels of arrays and inline tables may follow, and `fuel`
bounds the work on the text. -/
def value? : Nat → Nat → List Char → Option (Value × List Char)
  | 0, _, _ => none
  | _ + 1, 0, '[' :: _ => none
  | _ + 1, 0, '{' :: _ => none
  | fuel + 1, depth + 1, '[' :: rest => do
    let (items, rest) ← elements? fuel depth (skipLines rest.length rest)
    some (.array items, rest)
  | fuel + 1, depth + 1, '{' :: rest => do
    let (entries, rest) ← inlineEntries? fuel depth (skipSpaces rest)
    some (.table (sectionValues entries), rest)
  | _ + 1, _, s =>
    match s with
    | '"' :: _ => (stringValue? s).map fun (text, rest) => (.string (String.ofList text), rest)
    | '\'' :: _ => (stringValue? s).map fun (text, rest) => (.string (String.ofList text), rest)
    | _ => scalarValue? s
termination_by structural fuel => fuel

/-- The elements of an array up to its closing bracket; a comma may follow the last one. -/
def elements? : Nat → Nat → List Char → Option (List Value × List Char)
  | 0, _, _ => none
  | _ + 1, _, ']' :: rest => some ([], rest)
  | fuel + 1, depth, s => do
    let (v, rest) ← value? fuel depth s
    match skipLines rest.length rest with
    | ',' :: rest =>
      let (vs, rest) ← elements? fuel depth (skipLines rest.length rest)
      some (v :: vs, rest)
    | ']' :: rest => some ([v], rest)
    | _ => none
termination_by structural fuel => fuel

/-- The entries of an inline table after its opening brace. -/
def inlineEntries? : Nat → Nat → List Char → Option (Section × List Char)
  | 0, _, _ => none
  | _ + 1, _, '}' :: rest => some ([], rest)
  | fuel + 1, depth, s => moreInlineEntries? fuel depth [] s
termination_by structural fuel => fuel

/-- One more entry of an inline table, and those after it. -/
def moreInlineEntries? : Nat → Nat → Section → List Char → Option (Section × List Char)
  | 0, _, _, _ => none
  | fuel + 1, depth, entries, s => do
    let (key, rest) ← dottedKey? s
    let rest ← afterChar? '=' rest
    let (v, rest) ← value? fuel depth (skipSpaces rest)
    let entries ← Section.assign key v entries
    match skipSpaces rest with
    | ',' :: rest => moreInlineEntries? fuel depth entries (skipSpaces rest)
    | '}' :: rest => some (entries, rest)
    | _ => none
termination_by structural fuel => fuel

end

/-! ## Lines -/

/-- What a line of a document says. -/
inductive Line
  | header (key : List String)
  | elementHeader (key : List String)
  | assignment (key : List String) (value : Value)

/-- A header after its opening bracket. -/
def header? : List Char → Option (Line × List Char)
  | '[' :: rest => do
    let (key, rest) ← dottedKey? rest
    let rest ← afterChar? ']' rest
    let rest ← afterChar? ']' rest
    some (.elementHeader key, rest)
  | rest => do
    let (key, rest) ← dottedKey? rest
    let rest ← afterChar? ']' rest
    some (.header key, rest)

/-- A key and its value. -/
def assignment? (s : List Char) : Option (Line × List Char) := do
  let (key, rest) ← dottedKey? s
  let rest ← afterChar? '=' rest
  let rest := skipSpaces rest
  let (v, rest) ← value? (2 * rest.length + 2) (nestingLimit - 1) rest
  some (.assignment key v, rest)

/-- The lines of the text, blank lines and comments left out. -/
def lines? : Nat → List Char → Option (List Line)
  | 0, _ => none
  | fuel + 1, s =>
    match skipSpaces s with
    | [] => some []
    | c :: rest =>
      if c = '#' ∨ c = '\n' ∨ c = '\r' then do
        let rest ← endOfLine? (c :: rest)
        lines? fuel rest
      else do
        let (line, rest) ← if c = '[' then header? rest else assignment? (c :: rest)
        let rest ← endOfLine? rest
        let more ← lines? fuel rest
        some (line :: more)

/-! ## Tables -/

/-- The tables of the lines so far.  The table whose header came last is not yet part of `root`:
`key` says where it belongs, and it is the root itself while `key` is empty. -/
structure Layout where
  root : Section
  key : List String
  isElement : Bool
  entries : Section

namespace Layout

def empty : Layout := ⟨[], [], false, []⟩

/-- The root with the last table put in its place. -/
def close (layout : Layout) : Option Section :=
  if layout.key.isEmpty then some layout.entries
  else if layout.isElement then Section.closeElement layout.key layout.entries layout.root
  else Section.closeTable layout.key layout.entries layout.root

/-- Follows one line. -/
def follow (layout : Layout) : Line → Option Layout
  | .header key => do
    let root ← layout.close
    let (entries, root) ← Section.openTable key root
    some ⟨root, key, false, entries⟩
  | .elementHeader key => do
    let root ← layout.close
    let root ← Section.openElement key root
    some ⟨root, key, true, []⟩
  | .assignment key value => do
    let entries ← Section.assign key value layout.entries
    some { layout with entries }

end Layout

/-- The table that a document describes, or `none` if it is malformed.  A byte order mark
before the document is skipped. -/
def parse (text : String) : Option Table := do
  let s :=
    match text.toList with
    | '\uFEFF' :: rest => rest
    | s => s
  let lines ← lines? (s.length + 1) s
  let layout ← lines.foldlM Layout.follow Layout.empty
  let root ← layout.close
  some (sectionValues root)

end Toml
end SiteSettings
