import SiteSettings.DotEnv
import SiteSettings.Proofs.Text.Pieces

/-!
# Reading the variables of a `.env` file back

Below its header a `.env` file has one line for each variable.  A plain reader passes over empty
lines and cuts each other line at its first equals sign (`readLines`).  Names have no equals sign
and no line feed, so every line begins with its variable, and what the reader makes of one variable
does not depend on the others.

Values are written as they are.  One with a line feed in it goes on in further lines, and those are
read as variables of their own; so the reader finds the variables again exactly if no value has a
line feed (`readLines_iff_no_lineFeed`).
-/

namespace SiteSettings
namespace DotEnv

/-! ## The parts of a file -/

/-- The header that comes of a template. -/
def header (template : Option String) : String :=
  match template with
  | some text => if text.isEmpty then defaultHeader else text
  | none => defaultHeader

theorem header_eq (template : Option String) :
    header template =
      if template.getD "" = "" then "# Drupal environmental configuration."
      else template.getD "" := by
  cases template with
  | none => rfl
  | some text => simp [header, defaultHeader]

/-- What stands below the header. -/
def body (bindings : List (String × String)) : String :=
  String.intercalate "\n" (bindings.map line) ++ "\n"

theorem render_eq (bindings : List (String × String)) (template : Option String) :
    render bindings template = header template ++ "\n" ++ body bindings := by
  rw [body, ← String.append_assoc]
  rfl

theorem body_cons_cons (first second : String × String) (rest : List (String × String)) :
    body (first :: second :: rest) = line first ++ "\n" ++ body (second :: rest) := by
  simp [body, String.append_assoc, String.intercalate_cons_cons]

/-! ## A reader -/

/-- A line cut at its first equals sign. -/
def cutAtEquals (line : String) : String × String :=
  (String.ofList (line.toList.takeWhile (· != '=')),
    String.ofList ((line.toList.dropWhile (· != '=')).drop 1))

/-- The variables in these lines; empty lines are passed over. -/
def variablesOf (lines : List String) : List (String × String) :=
  (lines.filter (· ≠ "")).map cutAtEquals

theorem variablesOf_cons {line : String} (h : line ≠ "") (more : List String) :
    variablesOf (line :: more) = cutAtEquals line :: variablesOf more := by
  simp [variablesOf, h]

/-- The variables in the lines of a text. -/
def readLines (text : String) : List (String × String) :=
  variablesOf (Text.pieces '\n' text)

/-- Whether a name is made of letters, digits and underscores, and begins with no digit. -/
def IsVariableName (name : String) : Prop :=
  ∃ first rest, name.toList = first :: rest ∧ (first.isAlpha ∨ first = '_') ∧
    ∀ c ∈ rest, c.isAlphanum ∨ c = '_'

theorem isVariableName_of_all {name : String} {first : Char} {rest : List Char}
    (hname : name.toList = first :: rest) (hfirst : first.isAlpha ∨ first = '_')
    (hrest : rest.all fun c => c.isAlphanum || c == '_') : IsVariableName name :=
  ⟨first, rest, hname, hfirst, by simpa using hrest⟩

theorem IsVariableName.notMem {name : String} (h : IsVariableName name) {c : Char}
    (hletter : ¬ c.isAlphanum) (hunderscore : c ≠ '_') : c ∉ name.toList := by
  obtain ⟨first, rest, hname, hfirst, hrest⟩ := h
  rw [hname]
  intro hmem
  rcases List.mem_cons.mp hmem with rfl | hmem
  · rcases hfirst with halpha | heq
    · exact hletter (by simp [Char.isAlphanum, halpha])
    · exact hunderscore heq
  · rcases hrest c hmem with halphanum | heq
    · exact hletter halphanum
    · exact hunderscore heq

theorem cutAtEquals_line {name : String} (h : '=' ∉ name.toList) (value : String) :
    cutAtEquals (name ++ "=" ++ value) = (name, value) := by
  have hname : ∀ c ∈ name.toList, (c != '=') = true := by
    intro c hc
    simpa using fun heq : c = '=' => h (heq ▸ hc)
  have hlist : (name ++ "=" ++ value).toList = name.toList ++ '=' :: value.toList := by simp
  rw [cutAtEquals, hlist, List.takeWhile_append_of_pos hname, List.dropWhile_append_of_pos hname]
  simp

/-! ## Line by line -/

theorem readLines_append (text rest : String) :
    readLines (text ++ "\n" ++ rest) = readLines text ++ readLines rest := by
  have hpieces : Text.pieces '\n' (text ++ "\n" ++ rest) =
      Text.pieces '\n' text ++ Text.pieces '\n' rest := Text.pieces_append '\n' text rest
  rw [readLines, hpieces, variablesOf, List.filter_append, List.map_append]
  rfl

/-- Every variable is read from its own lines. -/
theorem readLines_body (bindings : List (String × String)) :
    readLines (body bindings) = bindings.flatMap fun binding => readLines (line binding) := by
  have hempty : readLines "" = [] := by decide
  induction bindings with
  | nil => decide
  | cons first rest ih =>
    cases rest with
    | nil =>
      have hbody : body [first] = line first ++ "\n" ++ "" := by simp [body]
      rw [hbody, readLines_append, hempty]
      simp
    | cons second rest =>
      rw [body_cons_cons, readLines_append, ih]
      rfl

/-- The first line of a variable has its name and the first line of its value; further lines of the
value are read as if they were variables. -/
theorem readLines_line {name : String} (h : IsVariableName name) (value : String) :
    ∃ first more, Text.pieces '\n' value = first :: more ∧
      readLines (line (name, value)) = (name, first) :: variablesOf more := by
  have hequals : '=' ∉ name.toList := h.notMem (by decide) (by decide)
  have hfeed : '\n' ∉ (name ++ "=").toList := by
    simpa using h.notMem (c := '\n') (by decide) (by decide)
  obtain ⟨first, more, hvalue⟩ := List.exists_cons_of_ne_nil (Text.pieces_ne_nil '\n' value)
  have hline : Text.pieces '\n' (name ++ "=" ++ value) = (name ++ "=" ++ first) :: more :=
    Text.pieces_append_of_notMem '\n' hfeed hvalue
  have hne : name ++ "=" ++ first ≠ "" := by simp
  refine ⟨first, more, hvalue, ?_⟩
  rw [line, readLines, hline, variablesOf_cons hne, cutAtEquals_line hequals]

/-- A variable is read back from its line if its value has no line feed. -/
theorem readLines_line_of_notMem {name value : String} (h : IsVariableName name)
    (hvalue : '\n' ∉ value.toList) : readLines (line (name, value)) = [(name, value)] := by
  obtain ⟨first, more, hpieces, hread⟩ := readLines_line h value
  have hone : Text.pieces '\n' value = [value] := Text.pieces_of_notMem '\n' hvalue
  obtain ⟨rfl, rfl⟩ := List.cons.inj (hpieces.symm.trans hone)
  exact hread

/-- No value that is read has a line feed. -/
theorem notMem_of_mem_readLines {text : String} {binding : String × String}
    (h : binding ∈ readLines text) : '\n' ∉ binding.2.toList := by
  obtain ⟨line, hline, rfl⟩ := List.mem_map.mp h
  have hfeed := Text.notMem_of_mem_pieces '\n' (List.mem_filter.mp hline).1
  intro hmem
  rw [cutAtEquals, String.toList_ofList] at hmem
  exact hfeed (List.dropWhile_sublist _ |>.subset (List.mem_of_mem_drop hmem))

/-- **The variables are found again if, and only if, no value has a line feed.**  Below the header,
each variable is read from lines of its own: first its name with the first line of its value, then,
for every further line of the value, what that line would be as a variable. -/
theorem readLines_iff_no_lineFeed {bindings : List (String × String)}
    (hnames : ∀ binding ∈ bindings, IsVariableName binding.1) (template : Option String) :
    ∃ below, render bindings template = header template ++ "\n" ++ below ∧
      readLines below = bindings.flatMap (fun binding => readLines (line binding)) ∧
      (∀ binding ∈ bindings, ∃ first more, Text.pieces '\n' binding.2 = first :: more ∧
        readLines (line binding) = (binding.1, first) :: variablesOf more) ∧
      (readLines below = bindings ↔ ∀ binding ∈ bindings, '\n' ∉ binding.2.toList) := by
  refine ⟨body bindings, render_eq bindings template, readLines_body bindings, ?_, ?_, ?_⟩
  · intro binding hmem
    exact readLines_line (hnames binding hmem) binding.2
  · intro hread binding hmem
    rw [← hread] at hmem
    exact notMem_of_mem_readLines hmem
  · intro hvalues
    have hself : ∀ binding ∈ bindings, readLines (line binding) = [binding] := fun binding hmem =>
      readLines_line_of_notMem (hnames binding hmem) (hvalues binding hmem)
    rw [readLines_body, List.flatMap_def, List.map_congr_left hself, ← List.flatMap_def,
      List.flatMap_singleton']

/-- A value with equals signs and a carriage return, and an empty one. -/
theorem readLines_iff_no_lineFeed_plain :
    let bindings := [("DB_URL", "mysql://u:p=1@h\r"), ("_X2", "")]
    (∀ binding ∈ bindings, IsVariableName binding.1) ∧
      (∀ binding ∈ bindings, '\n' ∉ binding.2.toList) ∧
      ∃ below, render bindings (some "# site") = header (some "# site") ++ "\n" ++ below ∧
        readLines below = bindings := by
  intro bindings
  have hnames : ∀ binding ∈ bindings, IsVariableName binding.1 := by
    refine List.forall_mem_cons.mpr ⟨isVariableName_of_all rfl (by decide) (by decide), ?_⟩
    exact List.forall_mem_singleton.mpr (isVariableName_of_all rfl (by decide) (by decide))
  have hvalues : ∀ binding ∈ bindings, '\n' ∉ binding.2.toList := by decide +kernel
  obtain ⟨below, hbelow, -, -, hiff⟩ := readLines_iff_no_lineFeed hnames (some "# site")
  exact ⟨hnames, hvalues, below, hbelow, hiff.mpr hvalues⟩

/-- A value with a line feed adds a variable that was not asked for and loses a part of its own. -/
theorem lineFeed_adds_variable :
    render [("KEY", "1\nOTHER=2")] none = header none ++ "\n" ++ "KEY=1\nOTHER=2\n" ∧
      readLines "KEY=1\nOTHER=2\n" = [("KEY", "1"), ("OTHER", "2")] ∧
      ¬ ∀ (bindings : List (String × String)) (template : Option String) (below : String),
        (∀ binding ∈ bindings, IsVariableName binding.1) → (bindings.map Prod.fst).Nodup →
        render bindings template = header template ++ "\n" ++ below →
          readLines below = bindings := by
  have hrender : render [("KEY", "1\nOTHER=2")] none = header none ++ "\n" ++
      "KEY=1\nOTHER=2\n" := by
    decide +kernel
  have hread : readLines "KEY=1\nOTHER=2\n" = [("KEY", "1"), ("OTHER", "2")] := by decide +kernel
  have hname : IsVariableName "KEY" := isVariableName_of_all rfl (by decide) (by decide)
  refine ⟨hrender, hread, fun hall => ?_⟩
  have hsame := hall _ none _ (List.forall_mem_singleton.mpr hname) (by simp) hrender
  rw [hread] at hsame
  exact absurd hsame (by decide)

end DotEnv
end SiteSettings
