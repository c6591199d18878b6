import Mathlib.Data.List.Induction
import SiteSettings.Proofs.Results
import SiteSettings.Settings.Declared

/-!
# The two formats declare the same

Texts, numbers, booleans, lists and maps can be written in TOML and in JSON.  A mapping of them
means the same in both: the two readers give one and the same settings mapping, or both find fault
with the same place.  What is at fault is a scalar that is no text, and a list or a map without
items; the first fault counts, depth first.

The readers are two recursions over two types, but on common values they differ in the words of
their refusals and in nothing else.  `CommonValue.read` has the words as a parameter; each reader is
shown to be an instance of it, and the rest is said of it once.
-/

namespace SiteSettings

/-! ## Common values -/

/-- A value that both formats can write down. -/
inductive CommonValue
  | text (s : String)
  | boolean (b : Bool)
  | integer (n : Int64)
  | float (x : Binary64)
  | list (items : List CommonValue)
  | map (entries : List (String × CommonValue))

namespace CommonValue

mutual

/-- The value in TOML. -/
def toToml : CommonValue → Toml.Value
  | .text s => .string s
  | .boolean b => .boolean b
  | .integer n => .integer n
  | .float x => .float x
  | .list items => .array (tomlItems items)
  | .map entries => .table (tomlEntries entries)
termination_by structural value => value

def tomlItems : List CommonValue → List Toml.Value
  | [] => []
  | item :: rest => item.toToml :: tomlItems rest
termination_by structural items => items

def tomlEntries : List (String × CommonValue) → List (String × Toml.Value)
  | [] => []
  | (name, value) :: rest => (name, value.toToml) :: tomlEntries rest
termination_by structural entries => entries

end

mutual

/-- The value in JSON. -/
def toJson : CommonValue → Json.Value
  | .text s => .string s
  | .boolean b => .boolean b
  | .integer n => .integer n.toInt
  | .float x => .float x
  | .list items => .array (jsonItems items)
  | .map entries => .object (jsonMembers entries)
termination_by structural value => value

def jsonItems : List CommonValue → List Json.Value
  | [] => []
  | item :: rest => item.toJson :: jsonItems rest
termination_by structural items => items

def jsonMembers : List (String × CommonValue) → List (String × Json.Value)
  | [] => []
  | (name, value) :: rest => (name, value.toJson) :: jsonMembers rest
termination_by structural entries => entries

end

/-! ## One reader for both -/

mutual

/-- The specification that a value at a dotted path declares, where `reason` words what is wrong
with a scalar. -/
def read (reason : CommonValue → String) (path : String) :
    CommonValue → Except SettingError ValueSpec
  | .text name => .ok (.leaf name)
  | .list items => do
    let specs ← readItems reason path 0 items
    ValueSpec.ofEntries specs path
  | .map entries => do
    let specs ← readEntries reason path entries
    ValueSpec.ofEntries specs path
  | .boolean b => .error (.invalidSetting path (reason (.boolean b)))
  | .integer n => .error (.invalidSetting path (reason (.integer n)))
  | .float x => .error (.invalidSetting path (reason (.float x)))
termination_by structural value => value

def readItems (reason : CommonValue → String) (path : String) (position : Nat) :
    List CommonValue → Except SettingError (List (Key × ValueSpec))
  | [] => .ok []
  | value :: rest => do
    let spec ← value.read reason (path ++ "." ++ toString position)
    let specs ← readItems reason path (position + 1) rest
    .ok ((Key.ofPosition position, spec) :: specs)
termination_by structural items => items

def readEntries (reason : CommonValue → String) (path : String) :
    List (String × CommonValue) → Except SettingError (List (Key × ValueSpec))
  | [] => .ok []
  | (name, value) :: rest => do
    let spec ← value.read reason (path ++ "." ++ name)
    let specs ← readEntries reason path rest
    .ok ((Key.ofName name, spec) :: specs)
termination_by structural entries => entries

end

/-- The words of the reader of TOML. -/
def tomlReason (value : CommonValue) : String :=
  "expected an environment variable name or a table, found " ++ value.toToml.kindName

/-- The words of the reader of JSON. -/
def jsonReason (value : CommonValue) : String :=
  "expected an environment variable name or an object, found " ++ value.toJson.kindName

mutual

theorem toSpec_toToml : ∀ (value : CommonValue) (path : String),
    value.toToml.toSpec path = value.read tomlReason path
  | .text _, _ => rfl
  | .boolean _, _ => rfl
  | .integer _, _ => rfl
  | .float _, _ => rfl
  | .list items, path => by
    rw [toToml, Toml.Value.toSpec, tomlItemSpecs_tomlItems items path 0, read]
  | .map entries, path => by
    rw [toToml, Toml.Value.toSpec, tomlEntrySpecs_tomlEntries entries path, read]

theorem tomlItemSpecs_tomlItems : ∀ (items : List CommonValue) (path : String) (position : Nat),
    tomlItemSpecs path position (tomlItems items) = readItems tomlReason path position items
  | [], _, _ => rfl
  | value :: rest, path, position => by
    rw [tomlItems, tomlItemSpecs, toSpec_toToml value, tomlItemSpecs_tomlItems rest, readItems]

theorem tomlEntrySpecs_tomlEntries : ∀ (entries : List (String × CommonValue)) (path : String),
    tomlEntrySpecs path (tomlEntries entries) = readEntries tomlReason path entries
  | [], _ => rfl
  | (name, value) :: rest, path => by
    rw [tomlEntries, tomlEntrySpecs, toSpec_toToml value, tomlEntrySpecs_tomlEntries rest,
      readEntries]

end

mutual

theorem toSpec_toJson : ∀ (value : CommonValue) (path : String),
    value.toJson.toSpec path = value.read jsonReason path
  | .text _, _ => rfl
  | .boolean _, _ => rfl
  | .integer _, _ => rfl
  | .float _, _ => rfl
  | .list items, path => by
    rw [toJson, Json.Value.toSpec, jsonItemSpecs_jsonItems items path 0, read]
  | .map entries, path => by
    rw [toJson, Json.Value.toSpec, jsonMemberSpecs_jsonMembers entries path, read]

theorem jsonItemSpecs_jsonItems : ∀ (items : List CommonValue) (path : String) (position : Nat),
    jsonItemSpecs path position (jsonItems items) = readItems jsonReason path position items
  | [], _, _ => rfl
  | value :: rest, path, position => by
    rw [jsonItems, jsonItemSpecs, toSpec_toJson value, jsonItemSpecs_jsonItems rest, readItems]

theorem jsonMemberSpecs_jsonMembers : ∀ (entries : List (String × CommonValue)) (path : String),
    jsonMemberSpecs path (jsonMembers entries) = readEntries jsonReason path entries
  | [], _ => rfl
  | (name, value) :: rest, path => by
    rw [jsonMembers, jsonMemberSpecs, toSpec_toJson value, jsonMemberSpecs_jsonMembers rest,
      readEntries]

end

/-! ## What it answers -/

mutual

/-- The specification of a value without faults; a scalar that is no text has nothing in it. -/
def spec : CommonValue → ValueSpec
  | .text name => .leaf name
  | .list items => .composite (itemSpecs 0 items)
  | .map entries => .composite (entrySpecs entries)
  | _ => .composite []
termination_by structural value => value

def itemSpecs (position : Nat) : List CommonValue → List (Key × ValueSpec)
  | [] => []
  | value :: rest => (Key.ofPosition position, value.spec) :: itemSpecs (position + 1) rest
termination_by structural items => items

def entrySpecs : List (String × CommonValue) → List (Key × ValueSpec)
  | [] => []
  | (name, value) :: rest => (Key.ofName name, value.spec) :: entrySpecs rest
termination_by structural entries => entries

end

mutual

/-- The values within a value that stands at a dotted path, depth first, each with its own path. -/
def places (path : String) : CommonValue → List (String × CommonValue)
  | .list items => (path, .list items) :: itemPlaces path 0 items
  | .map entries => (path, .map entries) :: entryPlaces path entries
  | value => [(path, value)]
termination_by structural value => value

def itemPlaces (path : String) (position : Nat) : List CommonValue → List (String × CommonValue)
  | [] => []
  | value :: rest =>
    value.places (path ++ "." ++ toString position) ++ itemPlaces path (position + 1) rest
termination_by structural items => items

def entryPlaces (path : String) : List (String × CommonValue) → List (String × CommonValue)
  | [] => []
  | (name, value) :: rest => value.places (path ++ "." ++ name) ++ entryPlaces path rest
termination_by structural entries => entries

end

/-- What can be wrong with a value. -/
inductive Fault
  | notText
  | empty

/-- What is wrong with a value itself, whatever is within it. -/
def fault? : CommonValue → Option Fault
  | .text _ => none
  | .list [] => some .empty
  | .list (_ :: _) => none
  | .map [] => some .empty
  | .map (_ :: _) => none
  | _ => some .notText

/-- The error for a place with something wrong. -/
def errorAt? (reason : CommonValue → String) : String × CommonValue → Option SettingError
  | (path, value) => value.fault?.map fun
    | .notText => .invalidSetting path (reason value)
    | .empty => .emptyComposite path

variable {reason : CommonValue → String}

mutual

theorem read_eq : ∀ (value : CommonValue) (path : String),
    value.read reason path = answerUnless (errorAt? reason) (value.places path) value.spec
  | .text _, _ => rfl
  | .boolean _, _ => rfl
  | .integer _, _ => rfl
  | .float _, _ => rfl
  | .list [], _ => rfl
  | .list (item :: items), path => by
    rw [read, readItems_eq (item :: items) path 0, places, answerUnless_cons_of_none rfl]
    exact answerUnless_bind_of_ok rfl
  | .map [], _ => rfl
  | .map ((name, value) :: entries), path => by
    rw [read, readEntries_eq ((name, value) :: entries) path, places, answerUnless_cons_of_none rfl]
    exact answerUnless_bind_of_ok rfl

theorem readItems_eq : ∀ (items : List CommonValue) (path : String) (position : Nat),
    readItems reason path position items =
      answerUnless (errorAt? reason) (itemPlaces path position items) (itemSpecs position items)
  | [], _, _ => rfl
  | value :: rest, path, position => by
    rw [readItems, read_eq value]
    apply answerUnless_bind
    rw [readItems_eq rest]
    exact answerUnless_bind_of_ok rfl

theorem readEntries_eq : ∀ (entries : List (String × CommonValue)) (path : String),
    readEntries reason path entries =
      answerUnless (errorAt? reason) (entryPlaces path entries) (entrySpecs entries)
  | [], _ => rfl
  | (name, value) :: rest, path => by
    rw [readEntries, read_eq value]
    apply answerUnless_bind
    rw [readEntries_eq rest]
    exact answerUnless_bind_of_ok rfl

end

/-! ## Mappings -/

/-- The values within a mapping, depth first, each with its dotted path from the name on. -/
def placesIn (entries : List (String × CommonValue)) : List (String × CommonValue) :=
  entries.flatMap fun e => e.2.places e.1

/-- The settings mapping of entries without faults. -/
def settings (entries : List (String × CommonValue)) : SettingsMap :=
  .ofList (entries.map fun e => (e.1, e.2.spec))

theorem tomlEntries_eq_map (entries : List (String × CommonValue)) :
    tomlEntries entries = entries.map fun e => (e.1, e.2.toToml) := by
  induction entries with
  | nil => rfl
  | cons entry rest ih => rw [tomlEntries, ih, List.map_cons]

theorem jsonMembers_eq_map (entries : List (String × CommonValue)) :
    jsonMembers entries = entries.map fun e => (e.1, e.2.toJson) := by
  induction entries with
  | nil => rfl
  | cons entry rest ih => rw [jsonMembers, ih, List.map_cons]

/-- Reading entries one after another into a mapping. -/
theorem foldlM_read (entries : List (String × CommonValue)) (start : SettingsMap) :
    entries.foldlM (fun map e => do
      let spec ← e.2.read reason e.1
      Except.ok (map.insert e.1 spec)) start =
    answerUnless (errorAt? reason) (placesIn entries)
      (start.extend ⟨entries.map fun e => (e.1, e.2.spec)⟩) := by
  induction entries generalizing start with
  | nil => rfl
  | cons entry rest ih =>
    have hfirst :
        (entry.2.read reason entry.1 >>= fun spec => Except.ok (start.insert entry.1 spec)) =
        answerUnless (errorAt? reason) (entry.2.places entry.1)
          (start.insert entry.1 entry.2.spec) := by
      rw [read_eq]
      exact answerUnless_bind_of_ok rfl
    rw [List.foldlM_cons, hfirst]
    apply answerUnless_bind
    exact ih _

theorem ofToml_tomlEntries (entries : List (String × CommonValue)) :
    SettingsMap.ofToml (tomlEntries entries) =
      answerUnless (errorAt? tomlReason) (placesIn entries) (settings entries) := by
  rw [settings, SettingsMap.ofList, ← foldlM_read, SettingsMap.ofToml, tomlEntries_eq_map,
    List.foldlM_map]
  simp only [toSpec_toToml]

theorem ofJson_jsonMembers (entries : List (String × CommonValue)) :
    SettingsMap.ofJson (.object (jsonMembers entries)) =
      answerUnless (errorAt? jsonReason) (placesIn entries) (settings entries) := by
  rw [settings, SettingsMap.ofList, ← foldlM_read, SettingsMap.ofJson, jsonMembers_eq_map,
    List.foldlM_map]
  simp only [toSpec_toJson]

/-! ## The first fault -/

/-- Whether the first fault among places is this one, at this path. -/
def IsFirstFault (places : List (String × CommonValue)) (path : String) (fault : Fault) : Prop :=
  ∃ before value after, places = before ++ (path, value) :: after ∧ value.fault? = some fault ∧
    ∀ place ∈ before, place.2.fault? = none

/-- Whether an error is of the kind of a fault and names its path. -/
def Fault.IsReportedBy (error : SettingError) (path : String) : Fault → Prop
  | .notText => ∃ reason, error = .invalidSetting path reason
  | .empty => error = .emptyComposite path

theorem errorAt?_eq_none_iff {place : String × CommonValue} :
    errorAt? reason place = none ↔ place.2.fault? = none := by
  rw [errorAt?, Option.map_eq_none_iff]

theorem exists_isReportedBy (reason : CommonValue → String) (path : String) {value : CommonValue}
    {fault : Fault} (h : value.fault? = some fault) :
    ∃ error, errorAt? reason (path, value) = some error ∧ fault.IsReportedBy error path := by
  rw [errorAt?, h]
  cases fault with
  | notText => exact ⟨_, rfl, _, rfl⟩
  | empty => exact ⟨_, rfl, rfl⟩

/-- Places without fault give the answer, and others the first fault. -/
theorem answerUnless_eq_error {α : Type} {places : List (String × CommonValue)} {path : String}
    {fault : Fault} (h : IsFirstFault places path fault) (answer : α) :
    ∃ error, answerUnless (errorAt? reason) places answer = .error error ∧
      fault.IsReportedBy error path := by
  obtain ⟨before, value, after, hplaces, hfault, hbefore⟩ := h
  obtain ⟨error, herror, hreported⟩ := exists_isReportedBy reason path hfault
  refine ⟨error, answerUnless_eq_error_iff.mpr ?_, hreported⟩
  rw [List.findSome?_eq_some_iff]
  exact ⟨before, (path, value), after, hplaces, herror,
    fun place hplace => errorAt?_eq_none_iff.mpr (hbefore place hplace)⟩

theorem exists_isFirstFault {places : List (String × CommonValue)}
    (h : ¬ ∀ place ∈ places, place.2.fault? = none) :
    ∃ path fault, IsFirstFault places path fault := by
  cases hfind : places.findSome? fun place => place.2.fault? with
  | none => exact absurd (List.findSome?_eq_none_iff.mp hfind) h
  | some fault =>
    obtain ⟨before, ⟨path, value⟩, after, hplaces, hfault, hbefore⟩ :=
      List.findSome?_eq_some_iff.mp hfind
    exact ⟨path, fault, before, value, after, hplaces, hfault, hbefore⟩

/-- Whether a value has others within it. -/
def isContainer : CommonValue → Bool
  | .list _ => true
  | .map _ => true
  | _ => false

theorem fault?_eq_none_iff (value : CommonValue) : value.fault? = none ↔
    (value.isContainer ∨ ∃ name, value = .text name) ∧ value ≠ .list [] ∧ value ≠ .map [] := by
  match value with
  | .text name => simp [fault?]
  | .boolean b => simp [fault?, isContainer]
  | .integer n => simp [fault?, isContainer]
  | .float x => simp [fault?, isContainer]
  | .list [] => simp [fault?]
  | .list (item :: items) => simp [fault?, isContainer]
  | .map [] => simp [fault?]
  | .map (entry :: entries) => simp [fault?, isContainer]

/-- **A mapping is the same in both formats.**  Either both readers give the settings that its
values describe, or both fail, and then with an error of the same kind at the same path: that of the
first place at fault, depth first, where a scalar is no text or a list or map is empty.  They
succeed exactly if there is no such place; the mapping itself may be empty. -/
theorem formats_agree (entries : List (String × CommonValue)) :
    ((SettingsMap.ofToml (tomlEntries entries) = .ok (settings entries) ∧
        SettingsMap.ofJson (.object (jsonMembers entries)) = .ok (settings entries)) ∨
      ∃ path fault, IsFirstFault (placesIn entries) path fault ∧
        (∃ error, SettingsMap.ofToml (tomlEntries entries) = .error error ∧
          fault.IsReportedBy error path) ∧
        ∃ error, SettingsMap.ofJson (.object (jsonMembers entries)) = .error error ∧
          fault.IsReportedBy error path) ∧
      ((∃ answer, SettingsMap.ofToml (tomlEntries entries) = .ok answer) ↔
        (∀ place ∈ placesIn entries, place.2.isContainer ∨ ∃ name, place.2 = .text name) ∧
          ∀ place ∈ placesIn entries, place.2 ≠ .list [] ∧ place.2 ≠ .map []) := by
  have hsucceeds {reason : CommonValue → String} {answer : SettingsMap} :
      answerUnless (errorAt? reason) (placesIn entries) (settings entries) = .ok answer ↔
        (∀ place ∈ placesIn entries, place.2.fault? = none) ∧ settings entries = answer := by
    simp only [answerUnless_eq_ok_iff, errorAt?_eq_none_iff]
  rw [ofToml_tomlEntries, ofJson_jsonMembers]
  constructor
  · by_cases hfree : ∀ place ∈ placesIn entries, place.2.fault? = none
    · exact .inl ⟨hsucceeds.mpr ⟨hfree, rfl⟩, hsucceeds.mpr ⟨hfree, rfl⟩⟩
    · obtain ⟨path, fault, hfirst⟩ := exists_isFirstFault hfree
      exact .inr ⟨path, fault, hfirst, answerUnless_eq_error hfirst _,
        answerUnless_eq_error hfirst _⟩
  · simp only [hsucceeds, fault?_eq_none_iff]
    constructor
    · rintro ⟨answer, hfree, -⟩
      exact ⟨fun place hplace => (hfree place hplace).1, fun place hplace => (hfree place hplace).2⟩
    · rintro ⟨htexts, hfilled⟩
      exact ⟨_, fun place hplace => ⟨htexts place hplace, hfilled place hplace⟩, rfl⟩

-- an empty list, below a list and before a number
example :
    let entries : List (String × CommonValue) :=
      [("a", .map [("x", .text "X"), ("y", .list [.text "Y", .list []])]), ("b", .integer 1)]
    SettingsMap.ofToml (tomlEntries entries) = .error (.emptyComposite "a.y.1") ∧
      SettingsMap.ofJson (.object (jsonMembers entries)) = .error (.emptyComposite "a.y.1") :=
  ⟨rfl, rfl⟩

end CommonValue
end SiteSettings
