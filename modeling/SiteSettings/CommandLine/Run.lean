import SiteSettings.CommandLine.Reports

/-!
# Running the program

A run reads the command line, loads the project and performs the action.  Its outcome is printed; an
error is printed to the error stream, unknown keys one to a line below it.  The exit code is zero
exactly if a file was written, two if the command line was not understood, 101 if the program failed
itself, and one otherwise.
-/

namespace SiteSettings
namespace CommandLine

/-- What a run leaves behind, apart from files. -/
structure Response where
  exitCode : Nat
  output : String
  errors : String
deriving DecidableEq, Repr

/-- How the project of an invocation is loaded. -/
def Invocation.setup (environment : List (String × String)) (invocation : Invocation) :
    ProjectSetup :=
  { root := invocation.root
    configFiles := invocation.config.toList
    environment
    strict := !invocation.noStrict
    overrides := invocation.includeFile.toList.map fun file => ("include_file", .string file) }

def versionText : String := "drupal-env-settings 0.3.0\n"

def usageText : String := "Usage: drupal-env-settings [OPTIONS] <COMMAND>\n"

/-- The response to a command line that asks for no action. -/
def usageResponse : UsageError → Response
  | .displayHelp => ⟨0, usageText, ""⟩
  | .displayVersion => ⟨0, versionText, ""⟩
  | _ => ⟨2, "", usageText⟩

/-- The text of an error, with a line for each unknown key. -/
def errorText (error : ProjectError) : String :=
  let keys :=
    match error with
    | .unknownKeys keys => keys
    | _ => []
  "Error: " ++ error.message ++ "\n" ++
    String.join (keys.map fun key => "  " ++ key.message ++ "\n")

def response : Except ProjectError Outcome → Response
  | .ok outcome => ⟨if outcome.isSuccess then 0 else 1, outcome.message ++ "\n", ""⟩
  | .error .marginTooLong => ⟨101, "", ProjectError.marginTooLong.message ++ "\n"⟩
  | .error error => ⟨1, "", errorText error⟩

/-- Which reports of a run with these arguments are shown. -/
def reportFilter (arguments : List String) (environment : List (String × String)) : Filter :=
  match parse arguments with
  | .error _ => Filter.upTo 0
  | .ok invocation => Filter.of environment invocation

variable {m : Type → Type} [Monad m] [FileAccess m]

/-- Loads the project and performs the action. -/
def Invocation.perform (environment : List (String × String)) (invocation : Invocation) :
    ExceptT ProjectError m Outcome := do
  let project ← Project.load (invocation.setup environment)
  project.perform invocation.action

/-- Runs an invocation. -/
def Invocation.run (environment : List (String × String)) (invocation : Invocation) :
    m Response := do
  let result ← (invocation.perform environment).run
  pure (response result)

/-- Runs the program with its arguments. -/
def run (arguments : List String) (environment : List (String × String)) : m Response :=
  match parse arguments with
  | .error error => pure (usageResponse error)
  | .ok invocation => invocation.run environment

end CommandLine
end SiteSettings
