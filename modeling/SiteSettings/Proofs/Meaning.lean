import SiteSettings.Proofs.Assignments
import SiteSettings.Proofs.Php.Execution

/-!
# What a setting means

A specification describes a value once every leaf has its environment variable's value: a composite
is the array with its keys, in its order (`ValueSpec.meaning`).  The generator has two ways to write
that value.  The keys of single entries become indices of the target (`chain`), and an assignment
there makes an array for each; what is left (`core`) is an array literal, and that makes an array
for each of its composites.  Both agree with the description for a `Proper` specification: no two
keys of a composite are the same key at run time, and no string key turns into an integer there.
-/

namespace SiteSettings

open Php Generator

/-! ## The described value -/

/-- The key of the described array. -/
def Key.index : Key → ArrayKey
  | .string text => .string text
  | .integer n => .integer n
  | .boolean b => .integer (if b then 1 else 0)
  | .float x => .integer (ArrayKey.wholePart x)

mutual

/-- The value that a specification describes. -/
def ValueSpec.meaning (environment : String → Value) : ValueSpec → Value
  | .leaf variableName => environment variableName
  | .composite entries => .array (entriesMeaning environment entries)
termination_by structural spec => spec

/-- The elements that entries describe, in order. -/
def entriesMeaning (environment : String → Value) : List (Key × ValueSpec) → List (ArrayKey × Value)
  | [] => []
  | (key, spec) :: rest => (key.index, spec.meaning environment) :: entriesMeaning environment rest
termination_by structural entries => entries

end

/-! ## The two parts of an assignment -/

/-- The keys of single entries, which become indices of the target. -/
def ValueSpec.chain : ValueSpec → List Key
  | .composite [(key, spec)] => key :: spec.chain
  | _ => []
termination_by structural spec => spec

/-- The specification below the keys of single entries. -/
def ValueSpec.core : ValueSpec → ValueSpec
  | .composite [(_, spec)] => spec.core
  | spec => spec
termination_by structural spec => spec

/-- The path of keys at which the assignment of a specification writes. -/
def ValueSpec.path (spec : ValueSpec) : List ArrayKey :=
  spec.chain.map Key.index

theorem ValueSpec.assignedTo_eq (options : GeneratorOptions) (target : Expr) (spec : ValueSpec) :
    spec.assignedTo options target =
      .assign (spec.chain.foldl (fun base key => .element base (keyLiteral key)) target)
        (spec.core.code options) := by
  fun_induction ValueSpec.assignedTo options target spec with
  | case1 target key spec ih => rw [ih, chain, core, List.foldl_cons]
  | case2 target spec hne =>
    rw [chain, core]
    · rfl
    · exact hne
    · exact hne

/-- The described value is that of the core below one array for each key of the chain. -/
theorem ValueSpec.meaning_eq (environment : String → Value) (spec : ValueSpec) :
    spec.meaning environment =
      spec.path.foldr (fun key value => .array [(key, value)]) (spec.core.meaning environment) := by
  unfold path
  fun_induction ValueSpec.chain spec with
  | case1 key spec ih => rw [meaning, entriesMeaning, entriesMeaning, ih]; rfl
  | case2 spec hne =>
    rw [core]
    · rfl
    · exact hne

/-! ## Proper specifications -/

/-- Whether a key stays what it is at run time. -/
def Key.IsProper : Key → Prop
  | .string text => ArrayKey.ofString text = .string text
  | _ => True

mutual

/-- Whether the keys of every composite are proper and differ from each other. -/
def ValueSpec.IsProper : ValueSpec → Prop
  | .leaf _ => True
  | .composite entries => (entries.map fun e => e.1.index).Nodup ∧ EntriesProper entries
termination_by structural spec => spec

/-- The same below entries. -/
def EntriesProper : List (Key × ValueSpec) → Prop
  | [] => True
  | (key, spec) :: rest => key.IsProper ∧ spec.IsProper ∧ EntriesProper rest
termination_by structural entries => entries

end

theorem Key.value?_keyLiteral (runtime : Runtime) {key : Key} (h : key.IsProper) :
    ((keyLiteral key).value? runtime).bind ArrayKey.ofValue? = some key.index := by
  cases key with
  | string text => exact congrArg some h
  | integer n => rfl
  | float x => rfl
  | boolean b => rfl

section

variable (options : GeneratorOptions) (environment : String → Value)

/-- How the assignments that `options` call for look variables up in `environment`. -/
def GeneratorOptions.runtime : Runtime where
  lookupFunction := options.lookupFunction
  environment := environment

mutual

/-- The code of a proper specification has the value that the specification describes. -/
theorem ValueSpec.value?_code : ∀ {spec : ValueSpec}, spec.IsProper →
    (spec.code options).value? (options.runtime environment) = some (spec.meaning environment)
  | .leaf variableName, _ => by
    simp [ValueSpec.code, lookup, Expr.string, Expr.value?, GeneratorOptions.runtime,
      ValueSpec.meaning]
  | .composite entries, h => by
    have hitems := addItems?_entriesCode [] h.2 (by simpa using h.1)
    rw [ValueSpec.code, Expr.value?, hitems]
    rfl

/-- Items of a literal come behind the elements before them, as their keys are new. -/
theorem addItems?_entriesCode :
    ∀ {entries : List (Key × ValueSpec)} (elements : List (ArrayKey × Value)),
      EntriesProper entries → (elements.map Prod.fst ++ entries.map fun e => e.1.index).Nodup →
      addItems? (options.runtime environment) elements (entriesCode options entries) =
        some (elements ++ entriesMeaning environment entries)
  | [], elements, _, _ => by simp [entriesCode, addItems?, entriesMeaning]
  | (key, spec) :: rest, elements, ⟨hkey, hspec, hrest⟩, hnodup => by
    have hvalue := ValueSpec.value?_code hspec
    have hnew : key.index ∉ elements.map Prod.fst := by
      intro hmem
      have hdisjoint := (List.nodup_append.mp hnodup).2.2
      exact hdisjoint _ hmem _ (by simp) rfl
    have hitem : addItem? (options.runtime environment) elements
        (.keyed (keyLiteral key) (spec.code options)) =
          some (elements ++ [(key.index, spec.meaning environment)]) := by
      obtain ⟨value, hliteral, hindex⟩ :=
        Option.bind_eq_some_iff.mp (Key.value?_keyLiteral (options.runtime environment) hkey)
      simp [addItem?, hliteral, hindex, hvalue, Elements.set_of_notMem hnew]
    have hrest' := addItems?_entriesCode (elements ++ [(key.index, spec.meaning environment)]) hrest
      (by simpa using hnodup)
    rw [entriesCode, addItems?, hitem, Option.bind_eq_bind, Option.bind_some, hrest',
      entriesMeaning]
    simp

end

/-! ## Assignments -/

theorem place?_element_chain {name : String} {chain : List Key} (h : ∀ key ∈ chain, key.IsProper)
    {base : Expr} {path : List ArrayKey}
    (hbase : base.place? (options.runtime environment) = some (name, path)) :
    (chain.foldl (fun base key => .element base (keyLiteral key)) base).place?
      (options.runtime environment) = some (name, path ++ chain.map Key.index) := by
  induction chain generalizing base path with
  | nil => simpa using hbase
  | cons key rest ih =>
    obtain ⟨value, hliteral, hindex⟩ := Option.bind_eq_some_iff.mp
      (Key.value?_keyLiteral (options.runtime environment) (h key (by simp)))
    have helement : (Expr.element base (keyLiteral key)).place? (options.runtime environment) =
        some (name, path ++ [key.index]) := by
      simp [Expr.place?, hbase, hliteral, hindex]
    rw [List.foldl_cons, ih (fun k hk => h k (List.mem_cons_of_mem _ hk)) helement]
    simp

theorem ValueSpec.IsProper.chain_core {spec : ValueSpec} (h : spec.IsProper) :
    (∀ key ∈ spec.chain, key.IsProper) ∧ spec.core.IsProper := by
  fun_induction ValueSpec.chain spec with
  | case1 key spec ih =>
    obtain ⟨-, hkey, hspec, -⟩ := h
    obtain ⟨hchain, hcore⟩ := ih hspec
    exact ⟨List.forall_mem_cons.mpr ⟨hkey, hchain⟩, hcore⟩
  | case2 spec hne =>
    rw [core]
    · exact ⟨by simp, h⟩
    · exact hne

/-- Running the assignment of a setting writes the value of the core at the path of the chain. -/
theorem run?_assignedTo {name : String} {spec : ValueSpec} (h : spec.IsProper) (store : Store)
    (comments : List String) :
    Stmt.run? (options.runtime environment) store
        (.expression (spec.assignedTo options (.variable name)) comments) =
      (writeAt? (spec.core.meaning environment) spec.path (store name)).map (store.set name) := by
  obtain ⟨hchain, hcore⟩ := h.chain_core
  have hvariable : (Expr.variable name).place? (options.runtime environment) =
      some (name, []) := rfl
  have hplace := place?_element_chain options environment hchain hvariable
  rw [ValueSpec.assignedTo_eq, Stmt.run?, ValueSpec.value?_code options environment hcore, hplace]
  exact (Option.map_eq_bind ..).symm

end

end SiteSettings
