import SiteSettings.CommandLine.Arguments
import SiteSettings.Report
import SiteSettings.Text.Alphanumeric
import SiteSettings.Text.Blank

/-!
# Which reports are shown

The reports of a run have levels.  `-v` lowers the level from which on they are shown.  The variable
`RUST_LOG`, if it holds a valid filter, decides instead.

A filter is a list of directives with commas between them, such as
`warn,drupal_env_settings::file=debug`.  A directive sets a level for the parts of a program whose
names begin with its name.  In brackets it may ask for more: that a report has details of certain
names, or that it is made during a named activity.  This program has no such activities, so
directives of the latter kind never apply here.  Of several directives that apply to a report, the
most specific one decides.
-/

namespace SiteSettings

/-- The name of a part, under which filters know it. -/
def ProgramPart.name : ProgramPart → String
  | .projectFiles => "drupal_env_settings::file"
  | .project => "drupal_env_settings::builder"
  | .settings => "drupal_env_settings::config"
  | .settingsFile => "drupal_env_settings::generate"
  | .dotenv => "drupal_env_settings::dotenv"

/-- The names under which a report has something to say. -/
def Report.fieldNames (report : Report) : List String :=
  "message" :: report.details.map Prod.fst

namespace CommandLine

/-- How much a report matters, the most important ones first. -/
def rank : LogLevel → Nat
  | .error => 1
  | .warn => 2
  | .info => 3
  | .debug => 4

/-- The level that the number of `-v` options asks for. -/
def Invocation.logLevel (invocation : Invocation) : LogLevel :=
  match invocation.verbosity with
  | 0 => .warn
  | 1 => .info
  | _ => .debug

/-! ## Directives -/

/-- One entry of a filter. -/
structure Directive where
  /-- What the name of a part must begin with. -/
  name : String
  /-- The name of a detail that a report must have. -/
  field : Option String
  /-- Whether the directive is about named activities. -/
  activity : Bool
  /-- The rank up to which reports are shown. -/
  rank : Nat
deriving DecidableEq, Repr

/-- The rank that shows everything. -/
def lowestRank : Nat := 5

/-- A whole number in digits, perhaps after a plus sign. -/
def number? (digits : List Char) : Option Nat :=
  let digits :=
    match digits with
    | '+' :: rest => rest
    | _ => digits
  if digits.isEmpty || !digits.all Char.isDigit then none
  else some (digits.foldl (fun n c => 10 * n + (c.toNat - 48)) 0)

/-- The rank that a word names, or a number stands for. -/
def rankOfWord? (word : String) : Option Nat :=
  match number? word.toList with
  | some n => if n ≤ lowestRank then some n else none
  | none =>
    match String.ofList (word.toList.map Char.toLower) with
    | "off" => some 0
    | "error" => some 1
    | "warn" => some 2
    | "info" => some 3
    | "debug" => some 4
    | "trace" => some 5
    | _ => none

/-- A character that a directive may begin with, a bracket apart. -/
def isDirectiveStart (c : Char) : Bool :=
  c == '-' || c == ':' || c == '_' || Text.isAlphanumeric c

/-- The level at the end of a directive, after its equals sign if there is one; without a word it
shows everything. -/
def levelPart? : List Char → Option Nat
  | [] => some lowestRank
  | '=' :: [] => some lowestRank
  | '=' :: word => rankOfWord? (String.ofList word)
  | _ => none

/-- The brackets of a directive, after the first one, and what follows them: whether an activity is
named, the name of a field, and the level.  The field may be followed by a value that it must have,
which only the fields of activities can. -/
def bracketPart? (s : List Char) : Option (Bool × Option String × Nat) :=
  let activity := s.takeWhile fun c => c != ']' && c != '\x7b'
  match s.drop activity.length with
  | ']' :: level => (levelPart? level).map (true, none, ·)
  | '\x7b' :: rest =>
    let field := rest.takeWhile (· != '\x7d')
    match rest.drop field.length with
    | '\x7d' :: ']' :: level =>
      if field.isEmpty then none
      else
        (levelPart? level).map
          (!activity.isEmpty || field.contains '=', some (String.ofList field), ·)
    | _ => none
  | _ => none

/-- The directive that a text without blanks around it spells. -/
def directive? (s : List Char) : Option Directive := do
  let first ← s.head?
  if first != '[' && !isDirectiveStart first then none
  let name := s.takeWhile fun c => c != '[' && c != '='
  match s.drop name.length with
  | [] =>
    match rankOfWord? (String.ofList name) with
    | some rank => some ⟨"", none, false, rank⟩
    | none => some ⟨String.ofList name, none, false, lowestRank⟩
  | '[' :: rest =>
    let (activity, field, rank) ← bracketPart? rest
    some ⟨String.ofList name, field, activity, rank⟩
  | level =>
    let rank ← levelPart? level
    some ⟨String.ofList name, none, false, rank⟩

/-- One entry of a filter.  Blanks around it belong to it: with them it is the name of a part, which
none has, and no level can be read. -/
def entry? (text : String) : Option Directive := do
  let inner := Text.trim text.toList
  let directive ← directive? inner
  if inner.length = text.length then some directive
  else if inner.contains '=' then none
  else some { directive with name := text, rank := lowestRank }

/-- Whether the directive is for a report. -/
def Directive.appliesTo (directive : Directive) (report : Report) : Bool :=
  !directive.activity && directive.name.toList.isPrefixOf report.part.name.toList &&
    directive.field.all report.fieldNames.contains

/-- Whether a text is no later than another one in the order of their characters. -/
def isNoLater : List Char → List Char → Bool
  | [], _ => true
  | _ :: _, [] => false
  | c :: s, d :: t => c.toNat < d.toNat || (c.toNat == d.toNat && isNoLater s t)

/-- Whether a directive goes before another one, or level with it: first comes the one with the
longer name, of equal ones the one that asks for a detail, then the one with the later detail in
the alphabet. -/
def Directive.isAsSpecific (directive other : Directive) : Bool :=
  let (n, m) := (directive.name.length, other.name.length)
  m < n || (m == n &&
    match other.field, directive.field with
    | none, _ => true
    | some _, none => false
    | some s, some t => isNoLater s.toList t.toList)

/-! ## Filters -/

/-- The directives that say which reports are shown. -/
structure Filter where
  directives : List Directive
deriving DecidableEq, Repr

namespace Filter

/-- Shows all reports up to a rank. -/
def upTo (rank : Nat) : Filter :=
  ⟨[⟨"", none, false, rank⟩]⟩

/-- The filter that a text spells, if it is valid.  One without any directives shows
errors alone. -/
def ofText? (text : String) : Option Filter := do
  let directives ← ((Text.pieces ',' text).filter (· ≠ "")).mapM entry?
  if directives.isEmpty then some (upTo 1) else some ⟨directives⟩

/-- The filter of a run. -/
def of (environment : List (String × String)) (invocation : Invocation) : Filter :=
  match (Entries.find? "RUST_LOG" environment).bind ofText? with
  | some filter => filter
  | none => upTo (CommandLine.rank invocation.logLevel)

/-- The directive that decides about a report: the most specific one, of equal ones the last. -/
def deciding? (filter : Filter) (report : Report) : Option Directive :=
  (filter.directives.filter (·.appliesTo report)).foldl
    (fun best directive =>
      match best with
      | some other => if directive.isAsSpecific other then some directive else best
      | none => some directive)
    none

/-- Whether a report is shown; one that no directive is for is not. -/
def shows (filter : Filter) (report : Report) : Bool :=
  (filter.deciding? report).any fun directive => CommandLine.rank report.level ≤ directive.rank

end Filter
end CommandLine
end SiteSettings
