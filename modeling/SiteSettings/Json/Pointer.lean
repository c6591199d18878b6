import SiteSettings.Json.Value
import SiteSettings.Text.Pieces

/-!
# Pointers into JSON values

A pointer names a place in a value: the empty pointer the value itself, otherwise each part after a
slash a member of an object or an item of an array.  Inside a part `~1` stands for a
slash and `~0` for a tilde.  An item is named by its index without sign or leading zeros.
-/

namespace SiteSettings
namespace Json

/-- One part of a pointer with its escapes resolved. -/
def unescapePart : List Char → List Char
  | '~' :: '1' :: rest => '/' :: unescapePart rest
  | '~' :: '0' :: rest => '~' :: unescapePart rest
  | c :: rest => c :: unescapePart rest
  | [] => []

/-- An index into an array. -/
def index? (part : List Char) : Option Nat :=
  match part with
  | [] => none
  | '0' :: _ :: _ => none
  | _ =>
    if part.all Char.isDigit then
      some (part.foldl (fun n c => 10 * n + (c.toNat - '0'.toNat)) 0)
    else none

/-- The member or item that one part of a pointer names. -/
def Value.child? (value : Value) (part : List Char) : Option Value :=
  match value with
  | .object members => Entries.find? (String.ofList part) members
  | .array items => do
    let i ← index? part
    items[i]?
  | _ => none

/-- The value at a pointer. -/
def Value.at? (value : Value) (pointer : String) : Option Value :=
  match Text.splitAt '/' pointer.toList with
  | [[]] => some value
  | [] :: parts => parts.foldlM (fun v part => v.child? (unescapePart part)) value
  | _ => none

end Json
end SiteSettings
