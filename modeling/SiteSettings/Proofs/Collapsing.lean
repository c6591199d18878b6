import SiteSettings.Proofs.Meaning

/-!
# The shape of an assignment, and the way back

The keys of single entries at the top of a specification become indices of the target, as many as
there are; below them everything is written out, single entries included (`ValueSpec.WrittenAs`).  A
reader can tell the two parts apart, because what is left for the value is a leaf or has several
entries (`assignment_collapses`): so the setting is found again in its assignment (`Expr.setting?`).

One thing is lost.  Booleans are written as the integers zero and one, and come back as those.
-/

namespace SiteSettings

open Php Generator

/-! ## What is lost -/

/-- A key with a boolean as the integer that it is written as. -/
def Key.withoutBoolean : Key → Key
  | .boolean b => .integer (if b then 1 else 0)
  | .string text => .string text
  | .integer n => .integer n
  | .float x => .float x

mutual

/-- A specification with the booleans among its keys as integers. -/
def ValueSpec.withoutBooleans : ValueSpec → ValueSpec
  | .leaf variableName => .leaf variableName
  | .composite entries => .composite (entriesWithoutBooleans entries)
termination_by structural spec => spec

def entriesWithoutBooleans : List (Key × ValueSpec) → List (Key × ValueSpec)
  | [] => []
  | (key, spec) :: rest => (key.withoutBoolean, spec.withoutBooleans) :: entriesWithoutBooleans rest
termination_by structural entries => entries

end

/-! ## The two parts of a specification -/

/-- A specification below single entries with these keys. -/
def ValueSpec.nestedIn (core : ValueSpec) (keys : List Key) : ValueSpec :=
  keys.foldr (fun key spec => .composite [(key, spec)]) core

theorem ValueSpec.nestedIn_chain (spec : ValueSpec) : spec.core.nestedIn spec.chain = spec := by
  fun_induction ValueSpec.chain spec with
  | case1 key spec ih => rw [core, nestedIn, List.foldr_cons, ← nestedIn, ih]
  | case2 spec hne =>
    rw [core]
    · rfl
    · exact hne

/-- The run of single entries ends where no further one follows. -/
theorem ValueSpec.core_ne_single (spec : ValueSpec) (key : Key) (inner : ValueSpec) :
    spec.core ≠ .composite [(key, inner)] := by
  fun_induction ValueSpec.core spec with
  | case1 _ spec ih => exact ih
  | case2 spec hne => exact hne key inner

theorem ValueSpec.isFilled_core {spec : ValueSpec} (h : spec.isFilled) : spec.core.isFilled := by
  fun_induction ValueSpec.core spec with
  | case1 key spec ih => exact ih ((ValueSpec.isFilled_composite.mp h).2 (key, spec) (by simp))
  | case2 spec hne => exact h

theorem ValueSpec.withoutBooleans_nestedIn (core : ValueSpec) (keys : List Key) :
    (core.nestedIn keys).withoutBooleans =
      core.withoutBooleans.nestedIn (keys.map Key.withoutBoolean) := by
  induction keys with
  | nil => rfl
  | cons key rest ih =>
    have hsingle : (core.nestedIn (key :: rest)).withoutBooleans =
        .composite [(key.withoutBoolean, (core.nestedIn rest).withoutBooleans)] := rfl
    rw [hsingle, ih]
    rfl

/-! ## Specifications written out -/

mutual

/-- Whether an expression writes a specification out in full: a leaf is the call that looks its
variable up, and every composite is an array literal. -/
inductive ValueSpec.WrittenAs (options : GeneratorOptions) : ValueSpec → Expr → Prop
  | leaf (variableName : String) :
    ValueSpec.WrittenAs options (.leaf variableName) (lookup options variableName)
  | composite {entries : List (Key × ValueSpec)} {items : List ArrayItem}
    (h : EntriesWrittenAs options entries items) :
    ValueSpec.WrittenAs options (.composite entries) (.array items)

/-- Whether there is one keyed item for each entry, in order. -/
inductive EntriesWrittenAs (options : GeneratorOptions) :
    List (Key × ValueSpec) → List ArrayItem → Prop
  | nil : EntriesWrittenAs options [] []
  | cons {key : Key} {spec : ValueSpec} {value : Expr} {rest : List (Key × ValueSpec)}
    {items : List ArrayItem} (hvalue : ValueSpec.WrittenAs options spec value)
    (hrest : EntriesWrittenAs options rest items) :
    EntriesWrittenAs options ((key, spec) :: rest) (.keyed (keyLiteral key) value :: items)

end

variable {options : GeneratorOptions}

mutual

theorem ValueSpec.writtenAs_code (options : GeneratorOptions) :
    ∀ spec : ValueSpec, spec.WrittenAs options (spec.code options)
  | .leaf variableName => .leaf variableName
  | .composite entries => .composite (entriesWrittenAs_entriesCode options entries)

theorem entriesWrittenAs_entriesCode (options : GeneratorOptions) :
    ∀ entries : List (Key × ValueSpec),
      EntriesWrittenAs options entries (entriesCode options entries)
  | [] => .nil
  | (_, spec) :: rest =>
    .cons (ValueSpec.writtenAs_code options spec) (entriesWrittenAs_entriesCode options rest)

end

theorem EntriesWrittenAs.length_eq {entries : List (Key × ValueSpec)} {items : List ArrayItem}
    (h : EntriesWrittenAs options entries items) : items.length = entries.length := by
  induction entries generalizing items with
  | nil =>
    cases h
    rfl
  | cons entry rest ih =>
    cases h with
    | cons _ hrest => rw [List.length_cons, List.length_cons, ih hrest]

/-- What is no single entry, and not empty, has several. -/
theorem ValueSpec.two_le_length {entries : List (Key × ValueSpec)}
    (hfilled : (ValueSpec.composite entries).isFilled)
    (hsingle : ∀ key inner, ValueSpec.composite entries ≠ .composite [(key, inner)]) :
    2 ≤ entries.length := by
  match entries with
  | [] => simp [ValueSpec.isFilled] at hfilled
  | [(key, inner)] => exact absurd rfl (hsingle key inner)
  | _ :: _ :: rest => simp

/-! ## The way back -/

/-- The key that a literal stands for. -/
def Key.ofLiteral? : Expr → Option Key
  | .scalar (.string text) => some (.string text)
  | .scalar (.integer n) => some (.integer n)
  | .scalar (.float x) => some (.float x)
  | _ => none

mutual

/-- The specification that an expression writes out.  A call with one text names a variable,
whatever is called. -/
def Php.Expr.spec? : Expr → Option ValueSpec
  | .call _ [.scalar (.string variableName)] => some (.leaf variableName)
  | .array items => (itemEntries? items).map .composite
  | _ => none
termination_by structural expr => expr

def Php.ArrayItem.entry? : ArrayItem → Option (Key × ValueSpec)
  | .keyed key value => do
    let key ← Key.ofLiteral? key
    let spec ← value.spec?
    some (key, spec)
  | .plain _ => none
termination_by structural item => item

/-- The entries that the items of an array literal write out. -/
def Php.itemEntries? : List ArrayItem → Option (List (Key × ValueSpec))
  | [] => some []
  | item :: rest => do
    let entry ← item.entry?
    let entries ← itemEntries? rest
    some (entry :: entries)
termination_by structural items => items

end

/-- The variable of a target, and the keys of its indices in order. -/
def Php.Expr.indexed? : Expr → Option (String × List Key)
  | .variable name => some (name, [])
  | .element base index => do
    let (name, keys) ← base.indexed?
    let key ← Key.ofLiteral? index
    some (name, keys ++ [key])
  | _ => none
termination_by structural expr => expr

/-- The setting that an assignment was made from, as far as it can be told. -/
def Php.Expr.setting? : Expr → Option (String × ValueSpec)
  | .assign target value => do
    let (name, keys) ← target.indexed?
    let core ← value.spec?
    some (name, core.nestedIn keys)
  | _ => none

theorem Key.ofLiteral?_keyLiteral (key : Key) :
    Key.ofLiteral? (keyLiteral key) = some key.withoutBoolean := by
  cases key <;> rfl

mutual

theorem ValueSpec.spec?_code :
    ∀ spec : ValueSpec, (spec.code options).spec? = some spec.withoutBooleans
  | .leaf _ => rfl
  | .composite entries => by
    rw [ValueSpec.code, Expr.spec?, itemEntries?_entriesCode entries]
    rfl

theorem itemEntries?_entriesCode : ∀ entries : List (Key × ValueSpec),
    itemEntries? (entriesCode options entries) = some (entriesWithoutBooleans entries)
  | [] => rfl
  | (key, spec) :: rest => by
    rw [entriesCode, itemEntries?, ArrayItem.entry?, Key.ofLiteral?_keyLiteral,
      ValueSpec.spec?_code spec, itemEntries?_entriesCode rest]
    rfl

end

theorem indexed?_chain {base : Expr} {name : String} {front : List Key}
    (hbase : base.indexed? = some (name, front)) (keys : List Key) :
    (keys.foldl (fun base key => .element base (keyLiteral key)) base).indexed? =
      some (name, front ++ keys.map Key.withoutBoolean) := by
  induction keys generalizing base front with
  | nil => simpa using hbase
  | cons key rest ih =>
    have helement : (Expr.element base (keyLiteral key)).indexed? =
        some (name, front ++ [key.withoutBoolean]) := by
      rw [Expr.indexed?, hbase, Key.ofLiteral?_keyLiteral]
      rfl
    rw [List.foldl_cons, ih helement]
    simp

/-- A setting is found again in its assignment, booleans aside. -/
theorem setting?_assignedTo (options : GeneratorOptions) (name : String) (spec : ValueSpec) :
    (spec.assignedTo options (.variable name)).setting? = some (name, spec.withoutBooleans) := by
  have hvariable : (Expr.variable name).indexed? = some (name, []) := rfl
  have htarget := indexed?_chain hvariable spec.chain
  have hspec : spec.withoutBooleans =
      spec.core.withoutBooleans.nestedIn (spec.chain.map Key.withoutBoolean) := by
    rw [← ValueSpec.withoutBooleans_nestedIn, ValueSpec.nestedIn_chain]
  rw [ValueSpec.assignedTo_eq, Expr.setting?, htarget, ValueSpec.spec?_code, hspec]
  rfl

namespace Generator

/-- **Assignments follow the collapsing rule, and nothing but the type of booleans is lost in
them.**  A specification is a core below the longest run of single entries at its top.  The keys of
the run are the indices of the target; the core is the value, written out: a call if it is a leaf,
an array literal with several items if not.  The setting can be read back from its assignment, so
two assignments are the same only for the same name and, booleans taken for integers, the same
specification. -/
theorem assignment_collapses {spec : ValueSpec} (h : spec.isFilled) (options : GeneratorOptions)
    (name : String) :
    (∃ (keys : List Key) (core : ValueSpec) (value : Expr), spec = core.nestedIn keys ∧
      (∀ key inner, core ≠ .composite [(key, inner)]) ∧
      assignment options name spec =
        .ok (.assign
          (keys.foldl (fun base key => .element base (keyLiteral key)) (.variable name)) value) ∧
      core.WrittenAs options value ∧
      ((∃ variableName, value = lookup options variableName) ↔
        ∃ variableName, core = .leaf variableName) ∧
      ((∀ variableName, core ≠ .leaf variableName) →
        ∃ items, value = .array items ∧ 2 ≤ items.length)) ∧
    (∀ expr, assignment options name spec = .ok expr →
      expr.setting? = some (name, spec.withoutBooleans)) ∧
    ∀ (options' : GeneratorOptions) (name' : String) (spec' : ValueSpec), spec'.isFilled →
      assignment options name spec = assignment options' name' spec' →
      name = name' ∧ spec.withoutBooleans = spec'.withoutBooleans := by
  have hassignment : assignment options name spec =
      .ok (spec.assignedTo options (.variable name)) :=
    assignment_eq h name
  have hsetting (expr : Expr) (hexpr : assignment options name spec = .ok expr) :
      expr.setting? = some (name, spec.withoutBooleans) := by
    rw [hassignment] at hexpr
    exact Except.ok.inj hexpr ▸ setting?_assignedTo options name spec
  refine ⟨⟨spec.chain, spec.core, spec.core.code options, spec.nestedIn_chain.symm,
    spec.core_ne_single,
    ?_, ValueSpec.writtenAs_code options _, ?_, ?_⟩, hsetting, ?_⟩
  · rw [hassignment, ValueSpec.assignedTo_eq]
  · constructor
    · rintro ⟨variableName, hvalue⟩
      cases hcore : spec.core with
      | leaf variableName => exact ⟨variableName, rfl⟩
      | composite entries =>
        rw [hcore, ValueSpec.code, lookup] at hvalue
        cases hvalue
    · rintro ⟨variableName, hcore⟩
      exact ⟨variableName, by rw [hcore, ValueSpec.code]⟩
  · intro hleaf
    cases hcore : spec.core with
    | leaf variableName => exact absurd hcore (hleaf variableName)
    | composite entries =>
      have hfilled := hcore ▸ ValueSpec.isFilled_core h
      have hlength := (entriesWrittenAs_entriesCode options entries).length_eq
      have hseveral := ValueSpec.two_le_length hfilled (hcore ▸ spec.core_ne_single)
      exact ⟨entriesCode options entries, rfl, hlength ▸ hseveral⟩
  · intro options' name' spec' h' hsame
    rw [assignment_eq h'] at hsame
    have hfound := hsetting _ hsame
    rw [setting?_assignedTo] at hfound
    obtain ⟨hname, hspec⟩ := Prod.mk.inj (Option.some.inj hfound)
    exact ⟨hname.symm, hspec.symm⟩

/-- Two single entries above a composite of two, one of which has a single entry of its own. -/
theorem assignment_collapses_nested :
    let below :=
      [(Key.integer 0, ValueSpec.leaf "A"), (.string "k", .composite [(.float ⟨0⟩, .leaf "B")])]
    let spec :=
      ValueSpec.composite [(.string "default", .composite [(.boolean true, .composite below)])]
    spec.isFilled ∧ ∃ expr, assignment {} "databases" spec = .ok expr ∧
      expr.setting? = some ("databases",
        .composite [(.string "default", .composite [(.integer 1, .composite below)])]) := by
  intro below spec
  have hfilled : spec.isFilled := rfl
  obtain ⟨⟨_, _, _, -, -, hassignment, -⟩, hsetting, -⟩ :=
    assignment_collapses hfilled {} "databases"
  exact ⟨hfilled, _, hassignment, hsetting _ hassignment⟩

end Generator
end SiteSettings
