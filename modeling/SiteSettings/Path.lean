import SiteSettings.Text.Pieces

/-!
# Paths

A path is kept as the text it was given as: joining and taking parents change nothing but what they
must, so that messages show paths as the user wrote them.

The components of a path stand between its slashes.  Empty ones and single dots name nothing of
their own, except a dot at the very beginning of a relative path.
-/

namespace SiteSettings

/-- The text of a path. -/
structure Path where
  text : String
deriving DecidableEq, Repr

namespace Path

def isAbsolute (p : Path) : Bool :=
  p.text.toList.head? == some '/'

/-- The path `q` as seen from `p`: an absolute path is itself, to another one `p` is put in front,
with a slash between them unless `p` ends in one or is empty. -/
def join (p q : Path) : Path :=
  if q.isAbsolute then q
  else if p.text.isEmpty || p.text.toList.getLast? == some '/' then ⟨p.text ++ q.text⟩
  else ⟨p.text ++ "/" ++ q.text⟩

/-- The text of a path cut into what its components come after, a slash or a dot at the
beginning, and the rest. -/
def splitHead : List Char → List Char × List Char
  | '/' :: rest => (['/'], rest)
  | ['.'] => (['.'], [])
  | '.' :: '/' :: rest => (['.'], '/' :: rest)
  | s => ([], s)

/-- A component that names nothing. -/
def isIdle (component : List Char) : Bool :=
  component == [] || component == ['.']

/-- Components without the idle ones at the end. -/
def trimIdle (components : List (List Char)) : List (List Char) :=
  (components.reverse.dropWhile isIdle).reverse

/-- The path without its last component; the root and the empty path have none. -/
def parent? (p : Path) : Option Path :=
  let (head, rest) := splitHead p.text.toList
  match trimIdle (Text.splitAt '/' rest) with
  | [] => if head = ['.'] then some ⟨""⟩ else none
  | components =>
    some ⟨String.ofList (head ++ Text.joinWith '/' (trimIdle components.dropLast))⟩

/-- The last component, unless the path ends in two dots or names nothing. -/
def fileName? (p : Path) : Option (List Char) :=
  let (_, rest) := splitHead p.text.toList
  match (trimIdle (Text.splitAt '/' rest)).getLast? with
  | some ['.', '.'] => none
  | name => name

/-- What follows the last dot of the file name.  A dot at its beginning does not count. -/
def extension? (p : Path) : Option String :=
  match p.fileName? with
  | none => none
  | some name =>
    let pieces := Text.splitAt '.' name
    match pieces with
    | [_] => none
    | [[], _] => none
    | pieces => pieces.getLast?.map String.ofList

end Path
end SiteSettings
