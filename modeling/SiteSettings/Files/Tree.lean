import SiteSettings.Files.Access

/-!
# A file system as a value

A `FileTree` lists the files and directories below the root by their components.  There are no links
and no permissions.  Paths are followed component by component: idle components stay where they are,
two dots go up, and only directories can be passed through.

A `Workspace` is a file tree with a working directory and the reports made so far; `FileAccess` on
it is a state monad.
-/

namespace SiteSettings

/-- What stands at a place of a file tree. -/
inductive FileNode
  | directory
  | text (content : String)
  /-- A file whose bytes are not text. -/
  | binary
deriving DecidableEq, Repr

/-- The components of a place, from the root on. -/
abbrev Place := List String

/-- The nodes by place; the root itself is not listed. -/
structure FileTree where
  nodes : List (Place × FileNode)

namespace FileTree

def empty : FileTree := ⟨[]⟩

/-- What stands at a place. -/
def node? (tree : FileTree) (place : Place) : Option FileNode :=
  if place.isEmpty then some .directory
  else (tree.nodes.find? (·.1 == place)).map Prod.snd

/-- Puts a node at a place, in place of what stood there. -/
def put (tree : FileTree) (place : Place) (node : FileNode) : FileTree :=
  ⟨replace tree.nodes⟩
where
  replace : List (Place × FileNode) → List (Place × FileNode)
    | [] => [(place, node)]
    | (p, n) :: rest => if p = place then (p, node) :: rest else (p, n) :: replace rest

/-! ## Following paths -/

/-- The components of a path, idle ones included. -/
def components (p : Path) : List String :=
  Text.pieces '/' p.text

/-- Where a path leads from a directory.  The last component need not exist: then the place it
would have is found as `missing`. -/
inductive Target
  | existing (place : Place) (node : FileNode)
  /-- Nothing there; whether the path goes on with idle components, and so asks for a directory. -/
  | missing (place : Place) (asDirectory : Bool)

/-- Follows components from the directory `here`. -/
def follow (tree : FileTree) (here : Place) : List String → Except FileProblem Target
  | [] => .ok (.existing here .directory)
  | c :: rest =>
    if c = "" ∨ c = "." then follow tree here rest
    else if c = ".." then follow tree here.dropLast rest
    else
      let place := here ++ [c]
      match tree.node? place with
      | some .directory => follow tree place rest
      | some node => if rest.isEmpty then .ok (.existing place node) else .error .notADirectory
      | none =>
        if rest.isEmpty then .ok (.missing place false)
        else if rest.all (· == "") then .ok (.missing place true)
        else .error .notFound

/-- Follows a path from a working directory; the empty path leads nowhere. -/
def locate (tree : FileTree) (workingDirectory : Place) (p : Path) : Except FileProblem Target :=
  if p.text.isEmpty then .error .notFound
  else follow tree (if p.isAbsolute then [] else workingDirectory) (components p)

/-! ## Operations -/

def read (tree : FileTree) (workingDirectory : Place) (p : Path) : Except FileProblem String := do
  match ← tree.locate workingDirectory p with
  | .existing _ (.text content) => .ok content
  | .existing _ .binary => .error .notText
  | .existing _ .directory => .error .isADirectory
  | .missing _ _ => .error .notFound

def pathExists (tree : FileTree) (workingDirectory : Place) (p : Path) : Bool :=
  match tree.locate workingDirectory p with
  | .ok (.existing _ _) => true
  | _ => false

def isDirectory (tree : FileTree) (workingDirectory : Place) (p : Path) : Bool :=
  match tree.locate workingDirectory p with
  | .ok (.existing _ .directory) => true
  | _ => false

def write (tree : FileTree) (workingDirectory : Place) (p : Path) (content : String) :
    Except FileProblem FileTree := do
  match ← tree.locate workingDirectory p with
  | .existing _ .directory => .error .isADirectory
  | .existing place _ => .ok (tree.put place (.text content))
  | .missing _ true => .error .isADirectory
  | .missing place false => .ok (tree.put place (.text content))

/-- Creates one directory, whose parent must exist. -/
def createDirectory (tree : FileTree) (workingDirectory : Place) (p : Path) :
    Except FileProblem FileTree := do
  match ← tree.locate workingDirectory p with
  | .existing _ _ => .error .alreadyExists
  | .missing place _ => .ok (tree.put place .directory)

/-- Creates a directory and, if its parent is missing, first the directories above it.  Directories
created on the way stay if a later step fails. `fuel` bounds the number of parents. -/
def createDirectories (workingDirectory : Place) :
    Nat → FileTree → Path → FileTree × Except FileProblem Unit
  | 0, tree, _ => (tree, .error .notFound)
  | fuel + 1, tree, p =>
    if p.text.isEmpty then (tree, .ok ())
    else
      let attempt (tree : FileTree) : FileTree × Except FileProblem Unit :=
        match tree.createDirectory workingDirectory p with
        | .ok tree => (tree, .ok ())
        | .error problem =>
          if tree.isDirectory workingDirectory p then (tree, .ok ()) else (tree, .error problem)
      match tree.createDirectory workingDirectory p with
      | .error .notFound =>
        match p.parent? with
        | none => (tree, .error .notFound)
        | some parent =>
          match createDirectories workingDirectory fuel tree parent with
          | (tree, .ok ()) => attempt tree
          | (tree, .error problem) => (tree, .error problem)
      | _ => attempt tree

end FileTree

/-- A file system, the directory that relative paths start from, and the reports made so far. -/
structure Workspace where
  tree : FileTree
  workingDirectory : Place
  reports : List Report

/-- The path of a place. -/
def Place.toPath (place : Place) : Path :=
  ⟨"/" ++ String.intercalate "/" place⟩

instance : FileAccess (StateM Workspace) where
  workingDirectory := fun w => (Place.toPath w.workingDirectory, w)
  read p := fun w => (w.tree.read w.workingDirectory p, w)
  pathExists p := fun w => (w.tree.pathExists w.workingDirectory p, w)
  createDirectories p := fun w =>
    let (tree, result) :=
      FileTree.createDirectories w.workingDirectory (p.text.length + 1) w.tree p
    (result, { w with tree })
  write p content := fun w =>
    match w.tree.write w.workingDirectory p content with
    | .ok tree => (.ok (), { w with tree })
    | .error problem => (.error problem, w)
  log report := fun w => ((), { w with reports := w.reports ++ [report] })

end SiteSettings
