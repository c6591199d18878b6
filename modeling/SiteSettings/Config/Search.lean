import SiteSettings.Error

/-!
# Where project files are found

A project file is looked for in a list of directories, the last one with the highest priority.  A
search path names one directory, or a directory with all those above it: then the walk goes up to
the nearest directory that holds a marker, or to the root if there is none, and the directories come
highest first, so that files near the project win.

Files that do not exist are passed over.  Any other problem ends the search.
-/

namespace SiteSettings

inductive SearchPath
  /-- The project's root. -/
  | root
  /-- A directory, as seen from the root. -/
  | directory (path : Path)
  /-- The root and the directories above it, up to one that holds the marker, if one is given. -/
  | ancestors (marker : Option String)
deriving DecidableEq, Repr

namespace Config

variable {m : Type → Type} [Monad m] [FileAccess m]

/-- The directories from `start` upwards, highest first.  Each parent is shorter than its child, so
`fuel` beyond the length of the path changes nothing. -/
def ancestorsFrom (marker : Option String) : Nat → Path → m (List Path)
  | 0, start => pure [start]
  | fuel + 1, start => do
    let stop ←
      match marker with
      | some name => FileAccess.pathExists (start.join ⟨name⟩)
      | none => pure false
    if stop then pure [start]
    else
      match start.parent? with
      | none => pure [start]
      | some parent => do
        let above ← ancestorsFrom marker fuel parent
        pure (above ++ [start])

/-- The directories of a search path. -/
def directoriesOf (root : Path) : SearchPath → m (List Path)
  | .root => pure [root]
  | .directory path => pure [root.join path]
  | .ancestors marker => ancestorsFrom marker (root.text.length + 1) root

/-- The directories of several search paths, in order. -/
def searchDirectories (root : Path) (paths : List SearchPath) : m (List Path) := do
  let found ← paths.mapM (directoriesOf root)
  pure found.flatten

/-- The files of a name in the directories, in order, with their contents. -/
def readAlong (fileName : String) :
    List Path → ExceptT ProjectError m (List (Path × String))
  | [] => pure []
  | dir :: rest => do
    let path := dir.join ⟨fileName⟩
    match ← FileAccess.read path with
    | .ok content => do
      FileAccess.log ⟨.debug, .projectFiles, "found project config", [("path", path.text)]⟩
      let more ← readAlong fileName rest
      pure ((path, content) :: more)
    | .error .notFound => readAlong fileName rest
    | .error problem => throw (.file path problem)

/-- The project files along the search paths. -/
def findFiles (root : Path) (paths : List SearchPath) (fileName : String) :
    ExceptT ProjectError m (List (Path × String)) := do
  let directories ← searchDirectories root paths
  readAlong fileName directories

/-- A project file that was named, and so must exist. -/
def readNamed (path : Path) : ExceptT ProjectError m (Path × String) := do
  match ← FileAccess.read path with
  | .ok content => do
    FileAccess.log ⟨.debug, .projectFiles, "loaded explicit project config", [("path", path.text)]⟩
    pure (path, content)
  | .error problem => throw (.file path problem)

end Config
end SiteSettings
