import SiteSettings.Php.Syntax
import SiteSettings.Proofs.IntegerKeys

/-!
# Running assignments

What generated assignments do when they run.  Values are scalars and ordered arrays, a store gives
values to variables, and everything that a function of the site reads from its environment is one
call (`Runtime`).

* A string that is the decimal text of a 64-bit integer is that integer when it is used as a key, a
  boolean is zero or one, and of a floating-point number only the whole part counts.
* An array literal is built item by item: a key that is there already keeps its place and
  takes the new value.
* An assignment to an element makes the arrays that are missing on the way, and changes that element
  alone.  It fails on the way through anything that is neither an array nor missing.

Code of other kinds has no meaning here.
-/

namespace SiteSettings
namespace Php

/-! ## Values -/

/-- A key of an array. -/
inductive ArrayKey
  | integer (n : Int64)
  | string (text : String)
deriving DecidableEq, Repr

inductive Value
  | null
  | boolean (b : Bool)
  | scalar (s : Scalar)
  | array (elements : List (ArrayKey × Value))

namespace ArrayKey

/-- The integer whose digits a text holds; what it is for other texts does not matter. -/
def digitsOf (text : String) : Int :=
  match text.toList with
  | '-' :: digits => -Nat.ofDigitChars 10 digits 0
  | digits => Nat.ofDigitChars 10 digits 0

/-- The key that a string is: an integer if it is how that integer is written. -/
def ofString (text : String) : ArrayKey :=
  if IsInt64 (digitsOf text) ∧ toString (digitsOf text) = text then
    .integer (Int64.ofInt (digitsOf text))
  else .string text

/-- A key as text. -/
def text : ArrayKey → String
  | .integer n => toString n.toInt
  | .string text => text

theorem digitsOf_toString (n : Int) : digitsOf (toString n) = n := by
  unfold digitsOf
  have htext := integerText_toString n
  generalize (toString n).toList = s at htext
  cases htext with
  | zero => rfl
  | positive h hn =>
    obtain ⟨first, rest, rfl, -⟩ := h.head_ne
    rw [hn]
    split
    · rename_i heq
      exact absurd (List.cons.inj heq).1 h.ne_minus
    · rfl
  | negative h hn => exact hn.symm

theorem ofString_toString (n : Int64) : ofString (toString n.toInt) = .integer n := by
  rw [ofString, digitsOf_toString, if_pos ⟨⟨n.minValue_le_toInt, n.toInt_le⟩, rfl⟩,
    Int64.ofInt_toInt]

theorem ofString_of_ne {text : String} (h : ∀ n : Int64, text ≠ toString n.toInt) :
    ofString text = .string text := by
  rw [ofString, if_neg]
  rintro ⟨hn, heq⟩
  apply h (Int64.ofInt (digitsOf text))
  rw [toInt_ofInt hn, heq]

theorem text_ofString (text : String) : (ofString text).text = text := by
  by_cases h : IsInt64 (digitsOf text) ∧ toString (digitsOf text) = text
  · rw [ofString, if_pos h, ArrayKey.text, toInt_ofInt h.1, h.2]
  · rw [ofString, if_neg h, ArrayKey.text]

theorem ofString_eq_integer_iff {text : String} {n : Int64} :
    ofString text = .integer n ↔ text = toString n.toInt := by
  constructor
  · intro h
    rw [← text_ofString text, h, ArrayKey.text]
  · rintro rfl
    exact ofString_toString n

theorem ofString_injective {a b : String} (h : ofString a = ofString b) : a = b := by
  rw [← text_ofString a, h, text_ofString]

/-- The whole part of a number, wrapped around into 64 bits. -/
def wholePart (x : Binary64) : Int64 :=
  let size := x.significand * Nat.pow 2 x.exponent.toNat / Nat.pow 2 (-x.exponent).toNat
  if x.isFinite then Int64.ofInt (if x.isNegative then -size else size) else 0

/-- The key that a value is; arrays cannot be keys. -/
def ofValue? : Value → Option ArrayKey
  | .null => some (.string "")
  | .boolean b => some (.integer (if b then 1 else 0))
  | .scalar (.string text) => some (ofString text)
  | .scalar (.integer n) => some (.integer n)
  | .scalar (.float x) => some (.integer (wholePart x))
  | .array _ => none

end ArrayKey

/-! ## The elements of an array -/

namespace Elements

variable {α : Type}

/-- The element with this key. -/
def find? (key : ArrayKey) : List (ArrayKey × α) → Option α
  | [] => none
  | (k, v) :: rest => if k = key then some v else find? key rest

/-- Gives the element with this key a value, in place if there is one, at the end if not. -/
def set (key : ArrayKey) (value : α) : List (ArrayKey × α) → List (ArrayKey × α)
  | [] => [(key, value)]
  | (k, v) :: rest => if k = key then (k, value) :: rest else (k, v) :: set key value rest

theorem find?_set_self (key : ArrayKey) (value : α) (elements : List (ArrayKey × α)) :
    find? key (set key value elements) = some value := by
  induction elements with
  | nil => simp [set, find?]
  | cons element rest ih =>
    obtain ⟨k, v⟩ := element
    by_cases h : k = key <;> simp [set, find?, h, ih]

theorem find?_set_of_ne {key other : ArrayKey} (h : other ≠ key) (value : α)
    (elements : List (ArrayKey × α)) :
    find? other (set key value elements) = find? other elements := by
  induction elements with
  | nil => simp [set, find?, h.symm]
  | cons element rest ih =>
    obtain ⟨k, v⟩ := element
    by_cases hk : k = key
    · subst hk
      simp [set, find?, h.symm]
    · by_cases ho : k = other <;> simp [set, find?, hk, ho, h, ih]

/-- A new key goes to the end. -/
theorem set_of_notMem {key : ArrayKey} {elements : List (ArrayKey × α)}
    (h : key ∉ elements.map Prod.fst) (value : α) :
    set key value elements = elements ++ [(key, value)] := by
  induction elements with
  | nil => rfl
  | cons element rest ih =>
    obtain ⟨k, v⟩ := element
    have hk : k ≠ key := fun he => h (by simp [he])
    have hrest : key ∉ rest.map Prod.fst := fun hmem => h (by simp [hmem])
    simp [set, hk, ih hrest]

end Elements

/-! ## Evaluating -/

/-- The function that looks a name up in the environment, and its answers. -/
structure Runtime where
  lookupFunction : String
  environment : String → Value

mutual

/-- The value of an expression that changes nothing. -/
def Expr.value? (runtime : Runtime) : Expr → Option Value
  | .scalar s => some (.scalar s)
  | .call function [argument] =>
    match argument.value? runtime with
    | some (.scalar (.string name)) =>
      if function = runtime.lookupFunction then some (runtime.environment name) else none
    | _ => none
  | .array items => (addItems? runtime [] items).map .array
  | _ => none
termination_by structural expr => expr

/-- The elements with one more item of an array literal. -/
def addItem? (runtime : Runtime) (elements : List (ArrayKey × Value)) :
    ArrayItem → Option (List (ArrayKey × Value))
  | .keyed key value => do
    let key ← ArrayKey.ofValue? (← key.value? runtime)
    let value ← value.value? runtime
    some (Elements.set key value elements)
  | .plain _ => none
termination_by structural item => item

/-- The elements with the items of an array literal, one after another. -/
def addItems? (runtime : Runtime) (elements : List (ArrayKey × Value)) :
    List ArrayItem → Option (List (ArrayKey × Value))
  | [] => some elements
  | item :: rest => do
    let elements ← addItem? runtime elements item
    addItems? runtime elements rest
termination_by structural items => items

end

/-! ## Assigning -/

/-- The values of the variables that are set. -/
abbrev Store := String → Option Value

def Store.set (store : Store) (name : String) (value : Value) : Store :=
  fun other => if other = name then some value else store other

/-- The variable and the keys that the target of an assignment names. -/
def Expr.place? (runtime : Runtime) : Expr → Option (String × List ArrayKey)
  | .variable name => some (name, [])
  | .element base index => do
    let (name, path) ← base.place? runtime
    let key ← ArrayKey.ofValue? (← index.value? runtime)
    some (name, path ++ [key])
  | _ => none
termination_by structural expr => expr

/-- The elements that an assignment to an element starts from: those of an array, and none where
nothing stands or something that gives way to an array. -/
def elementsOf? : Option Value → Option (List (ArrayKey × Value))
  | some (.array elements) => some elements
  | none => some []
  | some .null => some []
  | some (.boolean false) => some []
  | some _ => none

/-- Writes a value at a path of keys into what is there, making the arrays that are missing. -/
def writeAt? (new : Value) : List ArrayKey → Option Value → Option Value
  | [], _ => some new
  | key :: path, old => do
    let elements ← elementsOf? old
    let inner ← writeAt? new path (Elements.find? key elements)
    some (.array (Elements.set key inner elements))

/-- The store after an assignment, if it succeeds. -/
def Stmt.run? (runtime : Runtime) (store : Store) : Stmt → Option Store
  | .expression (.assign target value) _ => do
    let value ← value.value? runtime
    let (name, path) ← target.place? runtime
    let written ← writeAt? value path (store name)
    some (store.set name written)
  | _ => none

/-- The store after assignments, one after another. -/
def runAll? (runtime : Runtime) (store : Store) (stmts : List Stmt) : Option Store :=
  stmts.foldlM (Stmt.run? runtime) store

/-! ## What an assignment changes -/

/-- What stands at a path of keys. -/
def at? : List ArrayKey → Option Value → Option Value
  | [], value => value
  | key :: path, some (.array elements) => at? path (Elements.find? key elements)
  | _ :: _, _ => none

/-- Whether every array on the way to a path of keys is there or can be made. -/
def CanWriteAt : List ArrayKey → Option Value → Prop
  | [], _ => True
  | key :: path, old =>
    ∃ elements, elementsOf? old = some elements ∧ CanWriteAt path (Elements.find? key elements)

theorem canWriteAt_none (path : List ArrayKey) : CanWriteAt path none := by
  induction path with
  | nil => trivial
  | cons key path ih => exact ⟨[], rfl, ih⟩

theorem at?_none (path : List ArrayKey) : at? path none = none := by
  cases path <;> rfl

/-- Below what an assignment starts from there is what was there before. -/
theorem at?_cons_of_elementsOf? {old : Option Value} {elements : List (ArrayKey × Value)}
    (h : elementsOf? old = some elements) (key : ArrayKey) (path : List ArrayKey) :
    at? (key :: path) old = at? path (Elements.find? key elements) := by
  unfold elementsOf? at h
  split at h <;> cases h <;> simp [at?, Elements.find?, at?_none]

/-- **An assignment succeeds where it can write**: then its value stands at the path, and
whatever stands at a path that neither leads there nor goes on from there is as before. -/
theorem writeAt?_spec (new : Value) {path : List ArrayKey} {old : Option Value}
    (h : CanWriteAt path old) :
    ∃ written, writeAt? new path old = some written ∧ at? path (some written) = some new ∧
      ∀ other, ¬ other <+: path → ¬ path <+: other → at? other (some written) = at? other old := by
  induction path generalizing old with
  | nil => exact ⟨new, rfl, rfl, fun other _ hpath => absurd (List.nil_prefix) hpath⟩
  | cons key path ih =>
    obtain ⟨elements, helements, hrest⟩ := h
    obtain ⟨inner, hinner, hat, hframe⟩ := ih hrest
    refine ⟨.array (Elements.set key inner elements), ?_, ?_, ?_⟩
    · simp [writeAt?, helements, hinner]
    · rw [at?, Elements.find?_set_self, hat]
    · intro other hother hpath
      cases other with
      | nil => exact absurd List.nil_prefix hother
      | cons k rest =>
        rw [at?_cons_of_elementsOf? helements, at?]
        by_cases hk : k = key
        · subst hk
          rw [Elements.find?_set_self]
          exact hframe rest (fun h => hother ((List.prefix_cons_inj k).mpr h))
            fun h => hpath ((List.prefix_cons_inj k).mpr h)
        · rw [Elements.find?_set_of_ne hk]

/-- Where nothing stood there is the value below one new array for each key. -/
theorem writeAt?_none (new : Value) (path : List ArrayKey) :
    writeAt? new path none = some (path.foldr (fun key value => .array [(key, value)]) new) := by
  induction path with
  | nil => rfl
  | cons key path ih => simp [writeAt?, elementsOf?, Elements.find?, Elements.set, ih]

end Php
end SiteSettings
