import SiteSettings.Json.Value
import SiteSettings.Toml.Value

/-!
# Equality of parsed values

Whether two values of a document are the same can be computed, by comparing them item by item and
entry by entry.  So what a parser makes of a given text can be evaluated.
-/

namespace SiteSettings
namespace Toml
namespace Value

mutual

/-- Whether two values have the same shape and the same texts, numbers and dates in it. -/
def same : Value → Value → Bool
  | .string s, .string t => s == t
  | .integer m, .integer n => m == n
  | .float x, .float y => x == y
  | .boolean a, .boolean b => a == b
  | .datetime d, .datetime e => d == e
  | .array xs, .array ys => sameItems xs ys
  | .table xs, .table ys => sameEntries xs ys
  | _, _ => false

def sameItems : List Value → List Value → Bool
  | [], [] => true
  | x :: xs, y :: ys => x.same y && sameItems xs ys
  | _, _ => false

def sameEntries : List (String × Value) → List (String × Value) → Bool
  | [], [] => true
  | (k, x) :: xs, (l, y) :: ys => k == l && x.same y && sameEntries xs ys
  | _, _ => false

end

mutual

theorem same_iff (v w : Value) : v.same w ↔ v = w := by
  cases v <;> cases w <;> simp only [same, Bool.false_eq_true, beq_iff_eq, reduceCtorEq,
    string.injEq, integer.injEq, float.injEq, boolean.injEq, datetime.injEq]
  case array.array xs ys => rw [sameItems_iff xs ys, array.injEq]
  case table.table xs ys => rw [sameEntries_iff xs ys, table.injEq]

theorem sameItems_iff (xs ys : List Value) : sameItems xs ys ↔ xs = ys := by
  cases xs <;> cases ys <;> simp only [sameItems, Bool.false_eq_true, reduceCtorEq]
  case cons.cons x xs y ys =>
    rw [Bool.and_eq_true, same_iff x y, sameItems_iff xs ys, List.cons.injEq]

theorem sameEntries_iff (xs ys : List (String × Value)) : sameEntries xs ys ↔ xs = ys := by
  match xs, ys with
  | [], [] => simp only [sameEntries]
  | [], _ :: _ | _ :: _, [] => simp only [sameEntries, Bool.false_eq_true, reduceCtorEq]
  | (k, x) :: xs, (l, y) :: ys =>
    rw [sameEntries, Bool.and_eq_true, Bool.and_eq_true, beq_iff_eq, same_iff x y,
      sameEntries_iff xs ys, List.cons.injEq, Prod.mk.injEq]

end

instance : DecidableEq Value := fun v w => decidable_of_iff _ (same_iff v w)

end Value
end Toml

namespace Json
namespace Value

mutual

/-- Whether two values have the same shape and the same texts and numbers in it. -/
def same : Value → Value → Bool
  | .null, .null => true
  | .boolean a, .boolean b => a == b
  | .integer m, .integer n => m == n
  | .float x, .float y => x == y
  | .string s, .string t => s == t
  | .array xs, .array ys => sameItems xs ys
  | .object xs, .object ys => sameMembers xs ys
  | _, _ => false

def sameItems : List Value → List Value → Bool
  | [], [] => true
  | x :: xs, y :: ys => x.same y && sameItems xs ys
  | _, _ => false

def sameMembers : List (String × Value) → List (String × Value) → Bool
  | [], [] => true
  | (k, x) :: xs, (l, y) :: ys => k == l && x.same y && sameMembers xs ys
  | _, _ => false

end

mutual

theorem same_iff (v w : Value) : v.same w ↔ v = w := by
  cases v <;> cases w <;> simp only [same, Bool.false_eq_true, beq_iff_eq, reduceCtorEq,
    boolean.injEq, integer.injEq, float.injEq, string.injEq]
  case array.array xs ys => rw [sameItems_iff xs ys, array.injEq]
  case object.object xs ys => rw [sameMembers_iff xs ys, object.injEq]

theorem sameItems_iff (xs ys : List Value) : sameItems xs ys ↔ xs = ys := by
  cases xs <;> cases ys <;> simp only [sameItems, Bool.false_eq_true, reduceCtorEq]
  case cons.cons x xs y ys =>
    rw [Bool.and_eq_true, same_iff x y, sameItems_iff xs ys, List.cons.injEq]

theorem sameMembers_iff (xs ys : List (String × Value)) : sameMembers xs ys ↔ xs = ys := by
  match xs, ys with
  | [], [] => simp only [sameMembers]
  | [], _ :: _ | _ :: _, [] => simp only [sameMembers, Bool.false_eq_true, reduceCtorEq]
  | (k, x) :: xs, (l, y) :: ys =>
    rw [sameMembers, Bool.and_eq_true, Bool.and_eq_true, beq_iff_eq, same_iff x y,
      sameMembers_iff xs ys, List.cons.injEq, Prod.mk.injEq]

end

instance : DecidableEq Value := fun v w => decidable_of_iff _ (same_iff v w)

end Value
end Json
end SiteSettings
