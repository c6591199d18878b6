import SiteSettings.Php.Printer
import SiteSettings.Proofs.Assignments
import SiteSettings.Proofs.DotEnv
import SiteSettings.Proofs.Entries
import SiteSettings.Proofs.Project.Effects

/-!
# The variables of a mapping

The generated code looks environment variables up, and a `.env` file lists them.  Both go over the
same specifications, the one by writing nested array literals below targets with indices, the other
by collecting names.  They meet in the leaves of a specification in order (`ValueSpec.leaves`):
these are the arguments of the lookup calls as they are printed, and the collected names are the
same without repeats.
-/

namespace SiteSettings

/-! ## Names in order -/

mutual

/-- The names at the leaves of a specification, in order. -/
def ValueSpec.leaves : ValueSpec → List String
  | .leaf name => [name]
  | .composite entries => entryLeaves entries
termination_by structural spec => spec

def entryLeaves : List (Key × ValueSpec) → List String
  | [] => []
  | (_, spec) :: rest => spec.leaves ++ entryLeaves rest
termination_by structural entries => entries

end

/-- The names at the leaves of a mapping, in order. -/
def SettingsMap.leaves (settings : SettingsMap) : List String :=
  settings.entries.flatMap fun (_, spec) => spec.leaves

mutual

/-- Collecting variables is adding the leaves one by one. -/
theorem ValueSpec.collectVariables_eq : ∀ (spec : ValueSpec) (names : List String),
    spec.collectVariables names = spec.leaves.foldl addName names
  | .leaf _, _ => rfl
  | .composite entries, names => collectEntryVariables_eq entries names

theorem collectEntryVariables_eq : ∀ (entries : List (Key × ValueSpec)) (names : List String),
    collectEntryVariables names entries = (entryLeaves entries).foldl addName names
  | [], _ => rfl
  | (_, spec) :: rest, names => by
    rw [collectEntryVariables, entryLeaves, List.foldl_append, ← spec.collectVariables_eq]
    exact collectEntryVariables_eq rest _

end

/-- Adding names one by one leaves out the repeats. -/
theorem foldl_addName (names : List String) : names.foldl addName [] = names.eraseDups := by
  induction names using List.reverseRecOn with
  | nil => rfl
  | append_singleton names name ih =>
    rw [List.foldl_append, ih, List.eraseDups_append]
    by_cases h : name ∈ names
    · simp [addName, h, List.removeAll]
    · simp [addName, h, List.removeAll, List.eraseDups_cons]

theorem nodup_foldl_addName {seen : List String} (h : seen.Nodup) (names : List String) :
    (names.foldl addName seen).Nodup := by
  induction names generalizing seen with
  | nil => exact h
  | cons name rest ih =>
    refine ih ?_
    by_cases hname : name ∈ seen
    · rwa [addName, if_pos hname]
    · rw [addName, if_neg hname, List.nodup_append]
      refine ⟨h, by simp, ?_⟩
      rintro a ha b hb rfl
      exact hname (List.mem_singleton.mp hb ▸ ha)

theorem SettingsMap.variableNames_eq (settings : SettingsMap) :
    settings.variableNames = settings.leaves.eraseDups := by
  rw [← foldl_addName, variableNames, leaves, List.foldl_flatMap]
  congr 1
  funext names entry
  exact entry.2.collectVariables_eq names

theorem SettingsMap.nodup_variableNames (settings : SettingsMap) :
    settings.variableNames.Nodup := by
  rw [variableNames_eq, ← foldl_addName]
  exact nodup_foldl_addName .nil _

/-! ## Arguments of calls -/

namespace Php

mutual

/-- The texts that an expression hands to a function, in the order in which they are printed.
Whether the expression is itself an argument of such a call is told by `isArgument`. -/
def Expr.argumentsOf (function : String) (isArgument : Bool) : Expr → List String
  | .variable _ => []
  | .element base index => base.argumentsOf function false ++ index.argumentsOf function false
  | .assign target value => target.argumentsOf function false ++ value.argumentsOf function false
  | .call name arguments => allArgumentsOf function (name = function) arguments
  | .inclusion _ path => path.argumentsOf function false
  | .array items => itemArgumentsOf function items
  | .scalar (.string text) => if isArgument then [text] else []
  | .scalar _ => []
termination_by structural expr => expr

def allArgumentsOf (function : String) (isArgument : Bool) : List Expr → List String
  | [] => []
  | expr :: rest => expr.argumentsOf function isArgument ++ allArgumentsOf function isArgument rest
termination_by structural exprs => exprs

def itemArgumentsOf (function : String) : List ArrayItem → List String
  | [] => []
  | item :: rest => item.argumentsOf function ++ itemArgumentsOf function rest
termination_by structural items => items

def ArrayItem.argumentsOf (function : String) : ArrayItem → List String
  | .plain value => value.argumentsOf function false
  | .keyed key value => key.argumentsOf function false ++ value.argumentsOf function false
termination_by structural item => item

end

mutual

/-- The same for a statement. -/
def Stmt.argumentsOf (function : String) : Stmt → List String
  | .verbatim _ => []
  | .ifThen condition body _ =>
    condition.argumentsOf function false ++ bodyArgumentsOf function body
  | .expression value _ => value.argumentsOf function false
termination_by structural stmt => stmt

def bodyArgumentsOf (function : String) : List Stmt → List String
  | [] => []
  | stmt :: rest => stmt.argumentsOf function ++ bodyArgumentsOf function rest
termination_by structural stmts => stmts

end

end Php

/-! ## As they are printed -/

/-- Whether pieces occur in a text one after another. -/
def OccurInOrder : List String → String → Prop
  | [], _ => True
  | piece :: rest, text => ∃ before after, text = before ++ piece ++ after ∧ OccurInOrder rest after

namespace OccurInOrder

variable {pieces more : List String} {text behind : String}

theorem prepend (h : OccurInOrder pieces text) (before : String) :
    OccurInOrder pieces (before ++ text) := by
  cases pieces with
  | nil => trivial
  | cons piece rest =>
    obtain ⟨front, after, rfl, hrest⟩ := h
    exact ⟨before ++ front, after, by simp only [String.append_assoc], hrest⟩

theorem append (h : OccurInOrder pieces text) (h' : OccurInOrder more behind) :
    OccurInOrder (pieces ++ more) (text ++ behind) := by
  induction pieces generalizing text with
  | nil => exact h'.prepend text
  | cons piece rest ih =>
    obtain ⟨before, after, rfl, hrest⟩ := h
    exact ⟨before, after ++ behind, by simp only [String.append_assoc], ih hrest⟩

theorem extend (h : OccurInOrder pieces text) (behind : String) :
    OccurInOrder pieces (text ++ behind) := by
  have hnone : OccurInOrder [] behind := trivial
  rw [← List.append_nil pieces]
  exact h.append hnone

theorem singleton (piece : String) : OccurInOrder [piece] piece :=
  ⟨"", "", by simp, trivial⟩

end OccurInOrder

namespace Php

variable (function : String) (indent : Nat)

/-- Pieces of texts that are joined are where the texts are. -/
theorem occurInOrder_joinText {first : String} {rest : List String} {pieces more : List String}
    (hfirst : OccurInOrder pieces first) (hrest : OccurInOrder more (joinText ", " rest)) :
    OccurInOrder (pieces ++ more) (joinText ", " (first :: rest)) := by
  cases rest with
  | nil =>
    have hjoin : joinText ", " [first] = first ++ "" := by simp [joinText]
    rw [hjoin]
    exact hfirst.append hrest
  | cons next rest => exact (hfirst.extend ", ").append hrest

mutual

/-- The arguments of calls are printed in their order. -/
theorem Expr.occurInOrder (isArgument : Bool) (depth : Nat) : ∀ (expr : Expr),
    OccurInOrder ((expr.argumentsOf function isArgument).map quoted) (expr.text indent depth)
  | .variable _ => trivial
  | .element base index => by
    have hbase := base.occurInOrder false depth
    have hindex := index.occurInOrder false depth
    rw [Expr.argumentsOf, Expr.text, List.map_append]
    exact ((hbase.extend "[").append hindex).extend "]"
  | .assign target value => by
    have htarget := target.occurInOrder false depth
    have hvalue := value.occurInOrder false depth
    rw [Expr.argumentsOf, Expr.text, List.map_append]
    exact (htarget.extend " = ").append hvalue
  | .call name arguments => by
    have harguments := occurInOrder_arguments (name = function) depth arguments
    rw [Expr.argumentsOf, Expr.text]
    exact (harguments.prepend (name ++ "(")).extend ")"
  | .inclusion kind path => by
    have hpath := path.occurInOrder false depth
    rw [Expr.argumentsOf, Expr.text]
    exact hpath.prepend (kind.keyword ++ " ")
  | .array [] => trivial
  | .array (item :: items) => by
    have hitem := item.occurInOrder (depth + 1)
    have hitems := occurInOrder_items (depth + 1) items
    rw [Expr.argumentsOf, itemArgumentsOf, Expr.text, List.map_append]
    exact (((hitem.prepend "[\n").append hitems).extend _).extend "]"
  | .scalar (.string text) => by
    cases isArgument with
    | true => exact .singleton (quoted text)
    | false => trivial
  | .scalar (.integer _) => trivial
  | .scalar (.float _) => trivial

theorem occurInOrder_arguments (isArgument : Bool) (depth : Nat) : ∀ (arguments : List Expr),
    OccurInOrder ((allArgumentsOf function isArgument arguments).map quoted)
      (joinText ", " (argumentTexts indent depth arguments))
  | [] => trivial
  | argument :: rest => by
    have hargument := argument.occurInOrder isArgument depth
    have hrest := occurInOrder_arguments isArgument depth rest
    rw [allArgumentsOf, argumentTexts, List.map_append]
    exact occurInOrder_joinText hargument hrest

theorem occurInOrder_items (depth : Nat) : ∀ (items : List ArrayItem),
    OccurInOrder ((itemArgumentsOf function items).map quoted) (itemLines indent depth items)
  | [] => trivial
  | item :: rest => by
    have hitem := item.occurInOrder depth
    have hrest := occurInOrder_items depth rest
    rw [itemArgumentsOf, itemLines, List.map_append]
    exact hitem.append hrest

theorem ArrayItem.occurInOrder (depth : Nat) : ∀ (item : ArrayItem),
    OccurInOrder ((item.argumentsOf function).map quoted) (itemLine indent depth item)
  | .plain value => by
    have hvalue := value.occurInOrder false depth
    rw [ArrayItem.argumentsOf, itemLine]
    exact (hvalue.prepend _).extend ",\n"
  | .keyed key value => by
    have hkey := key.occurInOrder false depth
    have hvalue := value.occurInOrder false depth
    rw [ArrayItem.argumentsOf, itemLine, List.map_append]
    exact (((hkey.prepend _).extend " => ").append hvalue).extend ",\n"

end

mutual

theorem Stmt.occurInOrder (depth : Nat) : ∀ (stmt : Stmt),
    OccurInOrder ((stmt.argumentsOf function).map quoted) (stmt.text indent depth)
  | .verbatim _ => trivial
  | .expression value _ => by
    have hvalue := value.occurInOrder function indent false depth
    rw [Stmt.argumentsOf, Stmt.text]
    exact hvalue.extend ";"
  | .ifThen condition body _ => by
    have hcondition := condition.occurInOrder function indent false depth
    have hbody := occurInOrder_body (depth + 1) body
    rw [Stmt.argumentsOf, Stmt.text, List.map_append]
    exact ((((hcondition.prepend "if (").extend ") \x7b\n").append hbody).extend _).extend "\x7d"

theorem occurInOrder_body (depth : Nat) : ∀ (body : List Stmt),
    OccurInOrder ((bodyArgumentsOf function body).map quoted) (bodyLines indent depth body)
  | [] => trivial
  | stmt :: rest => by
    have hstmt := stmt.occurInOrder depth
    have hrest := occurInOrder_body depth rest
    rw [bodyArgumentsOf, bodyLines, List.map_append]
    exact ((hstmt.prepend _).extend "\n").append hrest

end

/-- The same for statements one after another. -/
theorem occurInOrder_join (stmts : List Stmt) :
    OccurInOrder ((stmts.flatMap (·.argumentsOf function)).map quoted)
      (String.join (stmts.map (·.text indent 0))) := by
  induction stmts with
  | nil => trivial
  | cons stmt rest ih =>
    rw [List.flatMap_cons, List.map_append, List.map_cons, String.join_cons]
    exact (stmt.occurInOrder function indent 0).append ih

end Php

namespace Generator

open Php

variable {options : GeneratorOptions}

theorem argumentsOf_keyLiteral (function : String) (key : Key) :
    (keyLiteral key).argumentsOf function false = [] := by
  cases key <;> rfl

theorem argumentsOf_lookup (isArgument : Bool) (name : String) :
    (lookup options name).argumentsOf options.lookupFunction isArgument = [name] := by
  simp [lookup, Expr.string, Expr.argumentsOf, allArgumentsOf]

mutual

/-- The code of a specification looks its leaves up. -/
theorem argumentsOf_code : ∀ (spec : ValueSpec),
    (spec.code options).argumentsOf options.lookupFunction false = spec.leaves
  | .leaf name => argumentsOf_lookup false name
  | .composite entries => argumentsOf_entriesCode entries

theorem argumentsOf_entriesCode : ∀ (entries : List (Key × ValueSpec)),
    itemArgumentsOf options.lookupFunction (entriesCode options entries) = entryLeaves entries
  | [] => rfl
  | (key, spec) :: rest => by
    rw [entriesCode, itemArgumentsOf, ArrayItem.argumentsOf, argumentsOf_keyLiteral,
      List.nil_append, argumentsOf_code spec, argumentsOf_entriesCode rest, entryLeaves]

end

/-- So does an assignment, whatever keys have moved onto the target. -/
theorem argumentsOf_assignedTo (spec : ValueSpec) {target : Expr}
    (htarget : target.argumentsOf options.lookupFunction false = []) :
    (spec.assignedTo options target).argumentsOf options.lookupFunction false = spec.leaves := by
  fun_induction ValueSpec.assignedTo options target spec with
  | case1 target key spec ih =>
    have helement :
        (Expr.element target (keyLiteral key)).argumentsOf options.lookupFunction false = [] := by
      rw [Expr.argumentsOf, htarget, argumentsOf_keyLiteral]
      rfl
    rw [ih helement]
    simp [ValueSpec.leaves, entryLeaves]
  | case2 target spec hne =>
    rw [Expr.argumentsOf, htarget, argumentsOf_code]
    rfl

/-- The assignments of a mapping look all its leaves up, in order. -/
theorem argumentsOf_assignmentStatements (settings : SettingsMap) :
    (settings.assignmentStatements options).flatMap (·.argumentsOf options.lookupFunction) =
      settings.leaves := by
  have hcode :
      (settings.assignmentCode options).flatMap (·.argumentsOf options.lookupFunction false) =
      settings.leaves := by
    rw [SettingsMap.assignmentCode, List.flatMap_map, SettingsMap.leaves]
    congr 1
    funext entry
    exact argumentsOf_assignedTo entry.2 rfl
  rw [← hcode, SettingsMap.assignmentStatements]
  cases settings.assignmentCode options with
  | nil => rfl
  | cons first rest =>
    rw [List.flatMap_cons, List.flatMap_cons, List.flatMap_map]
    rfl

end Generator

/-! ## The `.env` file -/

/-- Whether a variable has a value by the rule of an environment: the first one of its name, or
the empty text. -/
def IsFirstValue (environment : List (String × String)) (name value : String) : Prop :=
  (∃ before after, environment = before ++ (name, value) :: after ∧ ∀ e ∈ before, e.1 ≠ name) ∨
    ((∀ e ∈ environment, e.1 ≠ name) ∧ value = "")

theorem isFirstValue_find? (environment : List (String × String)) (name : String) :
    IsFirstValue environment name ((Entries.find? name environment).getD "") := by
  induction environment with
  | nil => exact .inr ⟨fun _ h => (nomatch h), rfl⟩
  | cons entry rest ih =>
    obtain ⟨n, v⟩ := entry
    by_cases hn : n = name
    · subst hn
      rw [Entries.find?, if_pos rfl]
      exact .inl ⟨[], rest, rfl, fun _ h => nomatch h⟩
    · rw [Entries.find?, if_neg hn]
      rcases ih with ⟨before, after, hrest, hbefore⟩ | ⟨hnone, hvalue⟩
      · refine .inl ⟨(n, v) :: before, after, congrArg _ hrest, ?_⟩
        exact List.forall_mem_cons.mpr ⟨hn, hbefore⟩
      · exact .inr ⟨List.forall_mem_cons.mpr ⟨hn, hnone⟩, hvalue⟩

/-- The rule leaves no choice. -/
theorem IsFirstValue.eq_find? {environment : List (String × String)} {name value : String}
    (h : IsFirstValue environment name value) :
    value = (Entries.find? name environment).getD "" := by
  rcases h with ⟨before, after, rfl, hbefore⟩ | ⟨hnone, rfl⟩
  · induction before with
    | nil => simp [Entries.find?]
    | cons entry rest ih =>
      obtain ⟨hentry, hrest⟩ := List.forall_mem_cons.mp hbefore
      rw [List.cons_append, Entries.find?, if_neg hentry]
      exact ih hrest
  · have hnone' : Entries.find? name environment = none := by
      rw [Entries.find?_eq_none_iff]
      rintro hmem
      obtain ⟨entry, hentry, heq⟩ := List.mem_map.mp hmem
      exact hnone entry hentry heq
    rw [hnone']
    rfl

/-- The lines of a `.env` file are those of the variables of the mapping. -/
theorem body_dotenvBindings (project : Project) (settings : SettingsMap) :
    DotEnv.body (project.dotenvBindings settings) =
      String.intercalate "\n" (settings.variableNames.map fun name =>
        name ++ "=" ++ (Entries.find? name project.environment).getD "") ++ "\n" := by
  rw [DotEnv.body, Project.dotenvBindings, List.map_map]
  rfl

/-! ## Both together -/

/-- **The code and the `.env` file agree.**  What the generated assignments look up, in the order
in which it is printed and without repeats, are the variables of the mapping.  And a `.env` file
that is written is the text of its template, or the default header if there is no text, and below
it one line for each of these variables, in this order, with its first value in the environment or
the empty text. -/
theorem lookups_eq_variableNames :
    (∀ (options : GeneratorOptions) (settings : SettingsMap) (doc doc' : Php.Document)
      (count : Nat),
      Generator.addSettings options settings doc = .ok (doc', count) →
        ∃ stmts, doc'.statements = doc.statements ++ stmts ∧ count = stmts.length ∧
          (stmts.flatMap (·.argumentsOf options.lookupFunction)).eraseDups =
            settings.variableNames ∧
          ∀ indent, OccurInOrder
            ((stmts.flatMap (·.argumentsOf options.lookupFunction)).map Php.quoted)
            (String.join (stmts.map (·.text indent 0)))) ∧
      ∀ (project : Project) (outFile template : Option Path) (w w' : Workspace) (outcome : Outcome),
        w.run (project.perform (.configure outFile template)) = (.ok outcome, w') →
          ∃ (settings : SettingsMap) (templateText : Option String) (value : String → String),
            (w.run project.readSettings).1 = .ok settings ∧
            project.TemplateIs w (template <|> project.config.dotenv.template) templateText ∧
            FileTree.IsWritten w.workingDirectory
              ((Action.configure outFile template).target project)
              ((if templateText.getD "" = "" then "# Drupal environmental configuration."
                else templateText.getD "") ++ "\n" ++
                String.intercalate "\n"
                  (settings.variableNames.map fun name => name ++ "=" ++ value name) ++ "\n")
              w.tree w'.tree ∧
            settings.variableNames.Nodup ∧
            ∀ name ∈ settings.variableNames,
              IsFirstValue project.environment name (value name) := by
  constructor
  · intro options settings doc doc' count h
    obtain ⟨stmts, hstmts, h⟩ := bind_eq_ok.mp h
    obtain ⟨rfl, rfl⟩ := Prod.mk.inj (Except.ok.inj h)
    obtain ⟨-, rfl⟩ := Generator.assignments_eq_ok_iff.mp hstmts
    refine ⟨_, rfl, rfl, ?_, fun indent => ?_⟩
    · rw [Generator.argumentsOf_assignmentStatements, SettingsMap.variableNames_eq]
    · exact Php.occurInOrder_join _ indent _
  · intro project outFile template w w' outcome h
    have hsuccess := Project.isSuccess_of_configure h
    obtain ⟨text, hplans, hwritten⟩ := Project.isWritten_of_success h hsuccess
    cases hplans with
    | @configure _ _ templateText settings htemplate hsettings =>
      rw [DotEnv.render_eq, DotEnv.header_eq, body_dotenvBindings,
        ← String.append_assoc] at hwritten
      refine ⟨settings, templateText, _, hsettings, htemplate, hwritten,
        settings.nodup_variableNames, ?_⟩
      exact fun name _ => isFirstValue_find? project.environment name

/-- A variable that is looked up twice is one variable, in the code and in the `.env` file. -/
theorem lookups_eq_variableNames_repeated :
    let settings : SettingsMap :=
      ⟨[("db", .composite [(.string "host", .leaf "HOST"), (.string "replica", .leaf "HOST"),
        (.string "port", .leaf "PORT")])]⟩
    let project : Project :=
      { config :=
          { settings := some [("host", .string "HOST"), ("replica", .string "HOST"),
              ("port", .string "PORT")]
            dotenv := { template := some ⟨"dist.env"⟩ } }
        root := ⟨"/p"⟩
        environment := [("HOST", "a"), ("HOST", "b")] }
    let w : Workspace :=
      ⟨⟨[(["p"], .directory), (["p", "dist.env"], .text "# site")]⟩, ["p"], []⟩
    (∃ doc count, Generator.addSettings {} settings .empty = .ok (doc, count) ∧
      (doc.statements.flatMap (·.argumentsOf "getenv")).eraseDups = ["HOST", "PORT"]) ∧
    ∃ outcome w', w.run (project.perform (.configure none none)) = (.ok outcome, w') ∧
      FileTree.IsWritten ["p"] ⟨"/p/.env"⟩ "# site\nHOST=a\nPORT=\n" w.tree w'.tree := by
  intro settings project w
  constructor
  · obtain ⟨doc, count, h⟩ : ∃ doc count,
        Generator.addSettings {} settings .empty = .ok (doc, count) := ⟨_, _, rfl⟩
    obtain ⟨stmts, hstmts, -, hnames, -⟩ :=
      lookups_eq_variableNames.1 {} settings .empty doc count h
    have hempty : Php.Document.empty.statements = [] := rfl
    rw [hempty, List.nil_append] at hstmts
    refine ⟨doc, count, h, ?_⟩
    rw [hstmts]
    exact hnames
  · have hok : (w.run (project.perform (.configure none none))).1.isOk := by
      dsimp only [project, w]
      decide +kernel
    obtain ⟨outcome, w', hrun⟩ := Workspace.exists_run_eq_ok hok
    have htarget : (Action.configure none none).target project = ⟨"/p/.env"⟩ := by
      dsimp only [project]
      decide +kernel
    have hread : ((w.run project.readSettings).1.toOption.map SettingsMap.variableNames) =
        some ["HOST", "PORT"] := by
      dsimp only [project, w]
      decide +kernel
    have hcontent : w.contentAt? (project.resolvePath ⟨"dist.env"⟩) = some "# site" := by
      dsimp only [project, w]
      decide +kernel
    obtain ⟨settings, templateText, value, hsettings, ⟨content, rfl, htemplate⟩, hwritten,
        -, hvalues⟩ :=
      lookups_eq_variableNames.2 project none none w w' outcome hrun
    rw [hsettings] at hread
    have hnames : settings.variableNames = ["HOST", "PORT"] := Option.some.inj hread
    have hheader : content = "# site" := Option.some.inj (htemplate.symm.trans hcontent)
    have hhost : value "HOST" = "a" := (hvalues "HOST" (by simp [hnames])).eq_find?
    have hport : value "PORT" = "" := (hvalues "PORT" (by simp [hnames])).eq_find?
    have htext : "# site" ++ "\n" ++
        String.intercalate "\n" ["HOST" ++ "=" ++ "a", "PORT" ++ "=" ++ ""] ++
        "\n" = "# site\nHOST=a\nPORT=\n" := by decide +kernel
    rw [htarget, hnames, hheader] at hwritten
    simp only [Option.getD_some, List.map_cons, List.map_nil, hhost, hport] at hwritten
    rw [if_neg (by decide), htext] at hwritten
    exact ⟨outcome, w', hrun, hwritten⟩

end SiteSettings
