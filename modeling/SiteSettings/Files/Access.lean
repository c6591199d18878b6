import SiteSettings.Path
import SiteSettings.Report

/-!
# Access to files

What the program does to its surroundings is little: it reads files, asks whether something exists,
creates directories, writes files, and reports what it is doing.  `FileAccess` collects these
operations for any monad.  The program proper is written against it, so that the same definitions
run on a real file system and on a value that stands for one.
-/

namespace SiteSettings

/-- Why an operation on files failed. -/
inductive FileProblem
  | notFound
  | notADirectory
  | isADirectory
  | alreadyExists
  /-- The file is not valid text. -/
  | notText
  /-- Any other problem, in the words of the system. -/
  | other (description : String)
deriving DecidableEq, Repr

def FileProblem.message : FileProblem → String
  | .notFound => "No such file or directory (os error 2)"
  | .notADirectory => "Not a directory (os error 20)"
  | .isADirectory => "Is a directory (os error 21)"
  | .alreadyExists => "File exists (os error 17)"
  | .notText => "stream did not contain valid UTF-8"
  | .other description => description

class FileAccess (m : Type → Type) where
  workingDirectory : m Path
  read : Path → m (Except FileProblem String)
  pathExists : Path → m Bool
  /-- Creates a directory with all directories above it; one that exists is left alone. -/
  createDirectories : Path → m (Except FileProblem Unit)
  /-- Replaces the contents of a file, or creates it. -/
  write : Path → String → m (Except FileProblem Unit)
  log : Report → m Unit

/-- Operations on files that may also fail for reasons of their own. -/
instance {m : Type → Type} {ε : Type} [Monad m] [FileAccess m] : FileAccess (ExceptT ε m) where
  workingDirectory := ExceptT.lift FileAccess.workingDirectory
  read p := ExceptT.lift (FileAccess.read p)
  pathExists p := ExceptT.lift (FileAccess.pathExists p)
  createDirectories p := ExceptT.lift (FileAccess.createDirectories p)
  write p content := ExceptT.lift (FileAccess.write p content)
  log report := ExceptT.lift (FileAccess.log report)

end SiteSettings
