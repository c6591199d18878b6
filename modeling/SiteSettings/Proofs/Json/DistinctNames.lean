import Mathlib.Logic.Basic
import SiteSettings.Json.Document
import SiteSettings.Json.Pointer
import SiteSettings.Proofs.Entries

/-!
# JSON objects have no name twice

A member whose name comes again takes the place of the one before, so the value of a JSON text
holds no object with a name twice, at any depth.  What a pointer leads to is a value within the
value, and inherits that.

`Value.Within` is "at any depth" said once: whatever is asked of every object, or of every array, is
asked of those within the value.
-/

namespace SiteSettings
namespace Json

/-! ## Values within a value -/

/-- Whether a value stands in another one, at any depth, or is that value. -/
inductive Value.Within : Value → Value → Prop
  | refl (value : Value) : Within value value
  | item {value item : Value} {items : List Value} (hmem : item ∈ items) (h : Within value item) :
      Within value (.array items)
  | member {value : Value} {member : String × Value} {members : List (String × Value)}
      (hmem : member ∈ members) (h : Within value member.2) : Within value (.object members)

theorem Value.Within.trans {a b c : Value} (hab : a.Within b) (hbc : b.Within c) : a.Within c := by
  induction hbc with
  | refl => exact hab
  | item hmem _ ih => exact .item hmem ih
  | member hmem _ ih => exact .member hmem ih

theorem Value.within_of_child? {value child : Value} {part : List Char}
    (h : value.child? part = some child) : child.Within value := by
  cases value with
  | object members => exact .member (Entries.mem_of_find? h) (.refl child)
  | array items =>
    obtain ⟨i, -, hitem⟩ := Option.bind_eq_some_iff.mp h
    exact .item (List.mem_of_getElem? hitem) (.refl child)
  | _ => cases h

theorem Value.within_of_foldlM_child? {parts : List (List Char)} {value found : Value}
    (h : parts.foldlM (fun v part => v.child? (unescapePart part)) value = some found) :
    found.Within value := by
  induction parts generalizing value with
  | nil =>
    cases h
    exact .refl _
  | cons part rest ih =>
    rw [List.foldlM_cons] at h
    obtain ⟨child, hchild, hrest⟩ := Option.bind_eq_some_iff.mp h
    exact (ih hrest).trans (within_of_child? hchild)

/-- A pointer leads to a value within the value. -/
theorem Value.within_of_at? {value found : Value} {pointer : String}
    (h : value.at? pointer = some found) : found.Within value := by
  unfold Value.at? at h
  split at h
  · cases h
    exact .refl _
  · exact within_of_foldlM_child? h
  · cases h

/-! ## Distinct names -/

/-- Whether no object within the value has a name twice. -/
def Value.HasDistinctNames (value : Value) : Prop :=
  ∀ members, (Value.object members).Within value → (Entries.names members).Nodup

theorem Value.HasDistinctNames.of_within {value inner : Value} (h : value.HasDistinctNames)
    (hinner : inner.Within value) : inner.HasDistinctNames :=
  fun members hmembers => h members (hmembers.trans hinner)

theorem Value.hasDistinctNames_array {items : List Value} :
    (Value.array items).HasDistinctNames ↔ ∀ item ∈ items, item.HasDistinctNames := by
  constructor
  · exact fun h item hitem => h.of_within (.item hitem (.refl item))
  · rintro h members (_ | ⟨hmem, hwithin⟩)
    exact h _ hmem members hwithin

theorem Value.hasDistinctNames_object {members : List (String × Value)} :
    (Value.object members).HasDistinctNames ↔
      (Entries.names members).Nodup ∧ ∀ member ∈ members, member.2.HasDistinctNames := by
  constructor
  · intro h
    exact ⟨h members (.refl _), fun member hmem => h.of_within (.member hmem (.refl _))⟩
  · rintro ⟨hnodup, hall⟩ inner hwithin
    cases hwithin with
    | refl => exact hnodup
    | member hmem hwithin => exact hall _ hmem inner hwithin

theorem Value.hasDistinctNames_object_nil : (Value.object []).HasDistinctNames :=
  hasDistinctNames_object.mpr ⟨List.nodup_nil, fun _ h => nomatch h⟩

theorem Value.HasDistinctNames.insert {members : Entries Value}
    (h : (Value.object members).HasDistinctNames) (name : String) {value : Value}
    (hvalue : value.HasDistinctNames) :
    (Value.object (Entries.insert name value members)).HasDistinctNames := by
  obtain ⟨hnodup, hall⟩ := hasDistinctNames_object.mp h
  refine hasDistinctNames_object.mpr ⟨Entries.nodup_names_insert name value hnodup, ?_⟩
  intro member hmem
  rcases Entries.eq_or_mem_of_mem_insert name value hmem with rfl | hmem
  · exact hvalue
  · exact hall member hmem

/-! ## Reading -/

/-- Whether the value is neither an array nor an object. -/
def Value.isScalar : Value → Bool
  | .array _ => false
  | .object _ => false
  | _ => true

theorem Value.hasDistinctNames_of_isScalar {value : Value} (h : value.isScalar) :
    value.HasDistinctNames := by
  rintro members hwithin
  cases hwithin with
  | refl => cases h
  | item => cases h
  | member => cases h

theorem isScalar_of_number? {s rest : List Char} {value : Value}
    (h : number? s = some (value, rest)) :
    value.isScalar := by
  obtain ⟨⟨whole, behind⟩, -, h⟩ := Option.bind_eq_some_iff.mp h
  obtain ⟨-, h⟩ := Option.ite_none_left_eq_some.mp h
  obtain ⟨⟨fraction, behind⟩, -, h⟩ := Option.bind_eq_some_iff.mp h
  obtain ⟨⟨exponent, behind⟩, -, h⟩ := Option.bind_eq_some_iff.mp h
  rcases ite_eq_iff.mp h with ⟨-, h⟩ | ⟨-, h⟩
  · cases h
    rfl
  · obtain ⟨-, h⟩ := Option.ite_none_left_eq_some.mp h
    cases h
    rfl

mutual

theorem hasDistinctNames_of_value? : ∀ {fuel depth : Nat} {s rest : List Char} {value : Value},
    value? fuel depth s = some (value, rest) → value.HasDistinctNames
  | 0, _, _, _, _, h => by
    rw [value?] at h
    cases h
  | fuel + 1, depth, s, rest, value, h => by
    unfold value? at h
    split at h
    · cases h
    · cases h
    · cases h
    · rename_i heq
      cases heq
      split at h
      · cases h
        exact Value.hasDistinctNames_array.mpr fun _ h => nomatch h
      · obtain ⟨⟨items, behind⟩, hitems, h⟩ := Option.bind_eq_some_iff.mp h
        cases h
        exact Value.hasDistinctNames_array.mpr (hasDistinctNames_of_items? hitems)
    · rename_i heq
      cases heq
      split at h
      · cases h
        exact Value.hasDistinctNames_object_nil
      · obtain ⟨⟨members, behind⟩, hmembers, h⟩ := Option.bind_eq_some_iff.mp h
        cases h
        exact hasDistinctNames_of_members? Value.hasDistinctNames_object_nil hmembers
    · obtain ⟨⟨text, behind⟩, -, h⟩ := Option.map_eq_some_iff.mp h
      cases h
      exact Value.hasDistinctNames_of_isScalar rfl
    · split at h
      · cases h
        exact Value.hasDistinctNames_of_isScalar rfl
      · cases h
        exact Value.hasDistinctNames_of_isScalar rfl
      · cases h
        exact Value.hasDistinctNames_of_isScalar rfl
      · exact Value.hasDistinctNames_of_isScalar (isScalar_of_number? h)

theorem hasDistinctNames_of_items? : ∀ {fuel depth : Nat} {s rest : List Char} {items : List Value},
    items? fuel depth s = some (items, rest) → ∀ item ∈ items, item.HasDistinctNames
  | 0, _, _, _, _, h => nomatch h
  | fuel + 1, depth, s, rest, items, h => by
    obtain ⟨⟨v, behind⟩, hv, h⟩ := Option.bind_eq_some_iff.mp h
    have hvalue := hasDistinctNames_of_value? hv
    dsimp only at h
    split at h
    · obtain ⟨⟨vs, _⟩, hvs, h⟩ := Option.bind_eq_some_iff.mp h
      cases h
      exact List.forall_mem_cons.mpr ⟨hvalue, hasDistinctNames_of_items? hvs⟩
    · cases h
      exact List.forall_mem_singleton.mpr hvalue
    · cases h

theorem hasDistinctNames_of_members? : ∀ {fuel depth : Nat} {before members : Entries Value}
    {s rest : List Char}, (Value.object before).HasDistinctNames →
    members? fuel depth before s = some (members, rest) → (Value.object members).HasDistinctNames
  | 0, _, _, _, _, _, _, h => nomatch h
  | fuel + 1, depth, before, members, s, rest, hbefore, h => by
    unfold members? at h
    split at h
    · obtain ⟨⟨name, behind⟩, -, h⟩ := Option.bind_eq_some_iff.mp h
      dsimp only at h
      split at h
      · obtain ⟨⟨v, behind⟩, hv, h⟩ := Option.bind_eq_some_iff.mp h
        have hinserted := hbefore.insert name (hasDistinctNames_of_value? hv)
        dsimp only at h
        split at h
        · exact hasDistinctNames_of_members? hinserted h
        · cases h
          exact hinserted
        · cases h
      · cases h
    · cases h

end

/-- **The value of a JSON text has no name twice.** -/
theorem hasDistinctNames_of_parse {text : String} {value : Value} (h : parse text = some value) :
    value.HasDistinctNames := by
  obtain ⟨⟨v, rest⟩, hvalue, h⟩ := Option.bind_eq_some_iff.mp h
  dsimp only at h
  split at h
  · cases h
    exact hasDistinctNames_of_value? hvalue
  · cases h

end Json
end SiteSettings
