import SiteSettings.Php.Syntax
import SiteSettings.Settings.Map

/-!
# Generated statements

A settings mapping becomes PHP statements: first an include guard, which loads a file outside
the site if it exists, then one assignment for each setting.

The target of an assignment starts as the setting's variable.  While the specification is a
composite with a single entry, the entry's key moves onto the target as an index.  What is left is a
leaf, and the value is a call that looks its environment variable up, or a composite with several
entries, and the value is an array literal.  Inside the literal nothing is moved: every composite
there is a literal of its own.

An empty composite has no code. Its path, and no statement at all, is the answer then.
-/

namespace SiteSettings

/-- The fixed texts and names in generated code. -/
structure GeneratorOptions where
  /-- The file that the include guard looks for. -/
  includeFile : String := "../config.php"
  generatedComment : String :=
    "/**\n * Content after this line was autogenerated by drupal-env-settings.\n */"
  includeComment : String :=
    "/**\n * Load dynamic configuration from file outside of Drupal root.\n */"
  environmentComment : String := "/**\n * Load settings from the environment.\n */"
  /-- The function that reads an environment variable when the code runs. -/
  lookupFunction : String := "getenv"
  /-- Spaces for each level of nesting. -/
  indent : UInt64 := 2

namespace Generator

open Php

/-- A key as a literal; booleans are the integers zero and one. -/
def keyLiteral : Key → Expr
  | .string s => .scalar (.string s)
  | .integer n => .scalar (.integer n)
  | .boolean b => .scalar (.integer (if b then 1 else 0))
  | .float x => .scalar (.float x)

/-- The call that reads an environment variable. -/
def lookup (options : GeneratorOptions) (variableName : String) : Expr :=
  .call options.lookupFunction [.string variableName]

/-! ## Array literals -/

/-- A dotted path from its parts. -/
def dotted (path : List String) : String :=
  String.intercalate "." path

mutual

/-- The value of an entry inside an array literal.  The path of the entry is an argument, and the
entries in it get that path with a key more.  So it takes the place of a stack that all entries
share, on which the key of a composite is put before its entries and taken off behind them: what is
on the stack at an entry is this path, and an empty composite ends everything at once. -/
def entryValue (options : GeneratorOptions) (path : List String) :
    ValueSpec → Except SettingError Expr
  | .leaf variableName => .ok (lookup options variableName)
  | .composite [] => .error (.emptyComposite (dotted path))
  | .composite (entry :: entries) => do
    let item ← arrayItem options path entry
    let items ← arrayItems options path entries
    .ok (.array (item :: items))
termination_by structural spec => spec

def arrayItem (options : GeneratorOptions) (path : List String) :
    Key × ValueSpec → Except SettingError ArrayItem
  | (key, spec) => do
    let value ← entryValue options (path ++ [key.text]) spec
    .ok (.keyed (keyLiteral key) value)
termination_by structural entry => entry

/-- The items of the entries below `path`, in order. -/
def arrayItems (options : GeneratorOptions) (path : List String) :
    List (Key × ValueSpec) → Except SettingError (List ArrayItem)
  | [] => .ok []
  | entry :: entries => do
    let item ← arrayItem options path entry
    let items ← arrayItems options path entries
    .ok (item :: items)
termination_by structural entries => entries

end

/-- The array literal of a composite's entries. -/
def arrayLiteral (options : GeneratorOptions) (entries : List (Key × ValueSpec)) :
    Except SettingError Expr :=
  entryValue options [] (.composite entries)

/-! ## Assignments -/

/-- Assigns a specification to a target, moving the keys of single entries onto the target.  Those
keys also go to the end of the path, in place of being put on the stack of `entryValue`, from which
they are never taken. -/
def assignTo (options : GeneratorOptions) (target : Expr) (path : List String) :
    ValueSpec → Except SettingError Expr
  | .composite [(key, spec)] =>
    assignTo options (.element target (keyLiteral key)) (path ++ [key.text]) spec
  | spec => do
    let value ← entryValue options path spec
    .ok (.assign target value)
termination_by structural spec => spec

/-- The assignment of one setting. -/
def assignment (options : GeneratorOptions) (name : String) (spec : ValueSpec) :
    Except SettingError Expr :=
  assignTo options (.variable name) [name] spec

/-- One assignment for each setting, in order, the first one below the environment comment. -/
def assignments (options : GeneratorOptions) (settings : SettingsMap) :
    Except SettingError (List Stmt) := do
  let exprs ← settings.entries.mapM fun (name, spec) => assignment options name spec
  match exprs with
  | [] => .ok []
  | first :: rest =>
    .ok (.expression first [options.environmentComment] ::
      rest.map fun expr => .expression expr [])

/-! ## Statements added to a document -/

/-- The include guard. -/
def includeGuard (options : GeneratorOptions) : Stmt :=
  let path := Expr.string options.includeFile
  .ifThen (.call "file_exists" [path])
    [.expression (.inclusion .includeOnce path) []]
    [options.generatedComment, options.includeComment]

/-- The document with the include guard at its end. -/
def addIncludeGuard (options : GeneratorOptions) (doc : Document) : Document :=
  doc.push (includeGuard options)

/-- The document with the assignments at its end, and how many there are. -/
def addSettings (options : GeneratorOptions) (settings : SettingsMap) (doc : Document) :
    Except SettingError (Document × Nat) := do
  let stmts ← assignments options settings
  .ok (doc.append stmts, stmts.length)

end Generator
end SiteSettings
