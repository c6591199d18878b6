/-!
# Reports

While it runs, the program reports what it is doing.  A report has a level and a message, and
comes from one of the program's parts; what it is about, such as a path, stands beside the
message under a name of its own.  Nothing depends on reports: they are only shown, and only if
someone asks for them.
-/

namespace SiteSettings

/-- How important a report is. -/
inductive LogLevel
  | error
  | warn
  | info
  | debug
deriving DecidableEq, Repr

/-- The parts of the program, as far as reports tell them apart. -/
inductive ProgramPart
  /-- Finding project files. -/
  | projectFiles
  /-- Loading a project and performing its actions. -/
  | project
  /-- Reading the settings mapping. -/
  | settings
  /-- Writing the settings file. -/
  | settingsFile
  /-- Writing the `.env` file. -/
  | dotenv
deriving DecidableEq, Repr

structure Report where
  level : LogLevel
  part : ProgramPart
  message : String
  /-- What the report is about: values by name. -/
  details : List (String × String)
deriving DecidableEq, Repr

end SiteSettings
