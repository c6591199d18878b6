import SiteSettings.Project.Action

/-!
# Command-line arguments

The command line is `[options] <command> [options]`.  There are two commands, `generate`
and `configure`; the general options may stand before or after the command, those of a
command only after it.

An option with a value takes it from the same argument (`--root=dir`, `-o=file`, `-ofile`) or from
the next one, unless that looks like an option itself.  A value from the next argument is stored
late: only the next option, or the end, shows that it is complete.  Single-letter options may share
one argument.  An option may be given once on either side of the command, except that `-v` is
counted; after the command it replaces what was given before.

`UsageError` names what is wrong with a command line, and also the requests for help and for the
version, which end the reading just like errors do.
-/

namespace SiteSettings
namespace CommandLine

inductive UsageError
  /-- A value is missing or empty. -/
  | invalidValue
  /-- An option is given twice. -/
  | argumentConflict
  /-- A value for an option that takes none. -/
  | tooManyValues
  | unknownArgument
  | invalidSubcommand
  | missingSubcommand
  | displayHelp
  | displayVersion
  /-- Nothing is given at all. -/
  | displayHelpOnMissing
deriving DecidableEq, Repr

/-- The command that the arguments are read for; none yet before the command. -/
inductive Command
  | none
  | generate
  | configure
deriving DecidableEq, Repr

inductive OptionName
  | root
  | config
  | noStrict
  | verbose
  | includeFile
  /-- The file that a command writes. -/
  | output
  | template
  | help
  | version
deriving DecidableEq, Repr

namespace OptionName

/-- Whether the option takes a value. -/
def takesValue : OptionName → Bool
  | .root | .config | .includeFile | .output | .template => true
  | .noStrict | .verbose | .help | .version => false

/-- Whether the value is a path, which must not be empty. -/
def takesPath : OptionName → Bool
  | .root | .config | .output | .template => true
  | _ => false

/-- The option with a long name. -/
def ofLong? (command : Command) (name : String) : Option OptionName :=
  match name, command with
  | "root", _ => some .root
  | "config", _ => some .config
  | "no-strict", _ => some .noStrict
  | "verbose", _ => some .verbose
  | "include-file", _ => some .includeFile
  | "help", _ => some .help
  | "version", .none => some .version
  | "output", .generate => some .output
  | "out-file", .configure => some .output
  | "template", .generate => some .template
  | "template", .configure => some .template
  | _, _ => none

/-- The option with a single letter. -/
def ofLetter? (command : Command) (letter : Char) : Option OptionName :=
  match letter, command with
  | 'v', _ => some .verbose
  | 'h', _ => some .help
  | 'V', .none => some .version
  | 'o', .generate => some .output
  | 'o', .configure => some .output
  | 't', .generate => some .template
  | 't', .configure => some .template
  | _, _ => none

end OptionName

/-! ## Options given -/

/-- The options on one side of the command. -/
structure Given where
  values : List (OptionName × String) := []
  noStrict : Bool := false
  /-- How often `-v` was given; `none` for not at all. -/
  verbosity : Option Nat := none
  /-- The option read last, with its value if that has been read: not stored yet. -/
  pending : Option (OptionName × Option String) := none

namespace Given

def value? (given : Given) (option : OptionName) : Option String :=
  (given.values.find? (·.1 == option)).map Prod.snd

/-- Whether no option is given. -/
def isEmpty (given : Given) : Bool :=
  given.values.isEmpty && !given.noStrict && given.verbosity.isNone

/-- Stores the value of an option; nothing is pending then. -/
def store (given : Given) (option : OptionName) (text : String) : Except UsageError Given :=
  if (given.value? option).isSome then .error .argumentConflict
  else if option.takesPath && text.isEmpty then .error .invalidValue
  else .ok { given with values := given.values ++ [(option, text)], pending := none }

/-- Stores the value that is pending. -/
def settle (given : Given) : Except UsageError Given :=
  match given.pending with
  | none => .ok given
  | some (_, none) => .error .invalidValue
  | some (option, some text) => given.store option text

/-- Whether an option waits for its value. -/
def isWaiting (given : Given) : Bool :=
  match given.pending with
  | some (_, none) => true
  | _ => false

/-- Takes an option that has no value. -/
def takeSwitch (given : Given) (option : OptionName) : Except UsageError Given := do
  let given ← given.settle
  match option with
  | .noStrict =>
    if given.noStrict then .error .argumentConflict else .ok { given with noStrict := true }
  | .verbose => .ok { given with verbosity := some (min 255 (given.verbosity.getD 0 + 1)) }
  | .help => .error .displayHelp
  | .version => .error .displayVersion
  | _ => .ok given

/-- Takes an option with a value, which may be still to come. -/
def takeValued (given : Given) (option : OptionName) (attached : Option String) :
    Except UsageError Given := do
  let given ← given.settle
  match attached with
  | some text => given.store option text
  | none => .ok { given with pending := some (option, none) }

/-- Takes an option by its long name, with the value attached to it, if there is one. -/
def takeLong (command : Command) (given : Given) (name : String) (attached : Option String) :
    Except UsageError Given :=
  match OptionName.ofLong? command name with
  | none => .error .unknownArgument
  | some option =>
    if option.takesValue then given.takeValued option attached
    else if attached.isSome then .error .tooManyValues
    else given.takeSwitch option

/-- Takes the options of the letters in one argument.  The first one that takes a value has the rest
for it, an equals sign between them left out. -/
def takeLetters (command : Command) (given : Given) : List Char → Except UsageError Given
  | [] => .ok given
  | letter :: rest =>
    match OptionName.ofLetter? command letter with
    | none => .error .unknownArgument
    | some option =>
      if option.takesValue then
        given.takeValued option <|
          match rest with
          | [] => none
          | '=' :: text => some (String.ofList text)
          | text => some (String.ofList text)
      else do
        let given ← given.takeSwitch option
        given.takeLetters command rest

end Given

/-! ## Reading arguments -/

/-- What an argument looks like. -/
inductive Shape
  /-- Two dashes: no options from here on. -/
  | separator
  | long (name : String) (attached : Option String)
  | letters (letters : List Char)
  | plain
deriving DecidableEq, Repr

def Shape.of (argument : String) : Shape :=
  match argument.toList with
  | ['-', '-'] => .separator
  | '-' :: '-' :: rest =>
    let name := rest.takeWhile (· != '=')
    match rest.drop name.length with
    | [] => .long (String.ofList name) none
    | _ :: value => .long (String.ofList name) (some (String.ofList value))
  | '-' :: c :: rest => .letters (c :: rest)
  | _ => .plain

/-- The names that stand for commands. -/
def commandNames : List String := ["generate", "configure", "help"]

/-- The error for an argument that nothing takes.  Before the command it would have to be one,
unless it is one that two dashes keep from being read as such. -/
def strayError (command : Command) (afterSeparator : Bool) (argument : String) : UsageError :=
  if command ≠ .none then .unknownArgument
  else if afterSeparator && commandNames.contains argument then .unknownArgument
  else .invalidSubcommand

/-- The answer to `help` with the names after it: help, if they lead to a command. -/
def helpRequest : List String → UsageError
  | [] => .displayHelp
  | [name] => if commandNames.contains name then .displayHelp else .invalidSubcommand
  | _ => .invalidSubcommand

/-- Reads arguments up to the end or to a command: the options given, and the command with the
arguments after it. -/
def readOptions (command : Command) :
    Given → Bool → List String → Except UsageError (Given × Option (Command × List String))
  | given, _, [] => .ok (given, none)
  | given, afterSeparator, argument :: rest =>
    if afterSeparator then .error (strayError command true argument)
    else if command = .none ∧ ¬ given.isWaiting ∧ commandNames.contains argument then
      match argument with
      | "generate" => .ok (given, some (.generate, rest))
      | "configure" => .ok (given, some (.configure, rest))
      | _ => .error (helpRequest rest)
    else
      match Shape.of argument with
      | .separator => readOptions command given true rest
      | .long name attached => do
        let given ← given.takeLong command name attached
        readOptions command given false rest
      | .letters letters => do
        let given ← given.takeLetters command letters
        readOptions command given false rest
      | .plain =>
        match given.pending with
        | some (option, none) =>
          readOptions command { given with pending := some (option, some argument) } false rest
        | _ => .error (strayError command false argument)

/-! ## Invocations -/

/-- What a command line asks for. -/
structure Invocation where
  root : Option Path
  config : Option Path
  noStrict : Bool
  verbosity : Nat
  includeFile : Option String
  action : Action

/-- The invocation of a command with the options before and after it. -/
def Invocation.of (command : Command) (before after : Given) : Invocation :=
  let value (option : OptionName) := after.value? option <|> before.value? option
  let path (option : OptionName) := (value option).map Path.mk
  { root := path .root
    config := path .config
    noStrict := before.noStrict || after.noStrict
    verbosity := (after.verbosity <|> before.verbosity).getD 0
    includeFile := value .includeFile
    action :=
      match command with
      | .configure => .configure (path .output) (path .template)
      | _ => .generate (path .output) (path .template) }

/-- Reads the arguments of a command line. -/
def parse (arguments : List String) : Except UsageError Invocation := do
  let (before, found) ← readOptions .none {} false arguments
  match found with
  | none => do
    let before ← before.settle
    .error (if before.isEmpty then .displayHelpOnMissing else .missingSubcommand)
  | some (command, rest) => do
    let (after, _) ← readOptions command {} false rest
    let after ← after.settle
    let before ← before.settle
    .ok (Invocation.of command before after)

end CommandLine
end SiteSettings
