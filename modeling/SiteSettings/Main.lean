import SiteSettings.CommandLine.Run

/-!
# The program

The outermost layer.  It hands the arguments and the environment of the process to
`CommandLine.run`, with the file operations of the system, and prints the response.  Nothing
is decided here.
-/

namespace SiteSettings

/-- What the process does, under the filter for its reports. -/
abbrev Process := ReaderT CommandLine.Filter IO

/-- The problem that an error of the system stands for. -/
def FileProblem.ofError (error : IO.Error) : FileProblem :=
  match error with
  | .noFileOrDirectory _ _ _ => .notFound
  | .alreadyExists _ _ _ => .alreadyExists
  | .inappropriateType _ code _ => if code = 21 then .isADirectory else .notADirectory
  | .permissionDenied _ _ _ => .other "Permission denied (os error 13)"
  | error => .other (toString error)

/-- Performs an operation of the system. -/
def Process.attempt {α : Type} (operation : IO α) : Process (Except FileProblem α) := do
  match ← operation.toBaseIO with
  | .ok value => pure (.ok value)
  | .error error => pure (.error (.ofError error))

/-- How a report is headed. -/
def LogLevel.title : LogLevel → String
  | .error => "ERROR"
  | .warn => "WARN"
  | .info => "INFO"
  | .debug => "DEBUG"

/-- A report as a line of text. -/
def Report.line (report : Report) : String :=
  report.level.title ++ " " ++ report.part.name ++ ": " ++ report.message ++
    String.join (report.details.map fun (name, value) => " " ++ name ++ "=" ++ value)

instance : FileAccess Process where
  workingDirectory := do
    let directory ← IO.currentDir
    pure ⟨directory.toString⟩
  read p := do
    match ← Process.attempt ( IO.FS.withFile p.text .read fun file => file.readBinToEnd) with
    | .error problem => pure (.error problem)
    | .ok bytes =>
      match String.fromUTF8? bytes with
      | some content => pure (.ok content)
      | none => pure (.error .notText)
  pathExists p := do
    let found ← Process.attempt ( IO.FS.realPath p.text)
    pure found.isOk
  createDirectories p := Process.attempt ( IO.FS.createDirAll p.text)
  write p content := Process.attempt ( IO.FS.writeFile p.text content)
  log report := do
    if (← read).shows report then IO.eprintln report.line

/-- The variables in the text that the system keeps of an environment: each ends in a null
character, and its name in an equals sign. -/
def environmentOfText (text : String) : List (String × String) :=
  (Text.pieces '\x00' text).filterMap fun entry =>
    match Text.pieces '=' entry with
    | name :: value@(_ :: _) => some (name, String.intercalate "=" value)
    | _ => none

/-- The environment of the process. -/
def processEnvironment : IO (List (String × String)) := do
  let bytes ← IO.FS.withFile "/proc/self/environ" .read fun file => file.readBinToEnd
  pure (environmentOfText ((String.fromUTF8? bytes).getD ""))

end SiteSettings

open SiteSettings in
/-- Runs the program. -/
def main (arguments : List String) : IO UInt32 := do
  let environment ← processEnvironment
  let run : Process CommandLine.Response := CommandLine.run arguments environment
  let response ← run.run (CommandLine.reportFilter arguments environment)
  IO.print response.output
  IO.eprint response.errors
  pure response.exitCode.toUInt32
