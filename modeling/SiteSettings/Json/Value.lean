import SiteSettings.Entries
import SiteSettings.Number.Binary64

/-!
# JSON values

The values of a JSON text.  An object keeps its members in order; a member whose name comes again
keeps its first place and takes the last value.  Whole numbers within the range of 64 bits,
signed or not, stay exact, all others are double-precision numbers.
-/

namespace SiteSettings
namespace Json

inductive Value
  | null
  | boolean (b : Bool)
  | integer (n : Int)
  | float (x : Binary64)
  | string (text : String)
  | array (items : List Value)
  | object (members : List (String × Value))

namespace Value

/-- What kind of value this is, in messages. -/
def kindName : Value → String
  | .null => "null"
  | .boolean _ => "boolean"
  | .integer _ => "number"
  | .float _ => "number"
  | .string _ => "string"
  | .array _ => "array"
  | .object _ => "object"

end Value
end Json
end SiteSettings
