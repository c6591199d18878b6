import SiteSettings.Entries
import SiteSettings.Number.Binary64
import SiteSettings.Toml.Datetime

/-!
# Configuration values

The values of a TOML document: strings, 64-bit integers, double-precision numbers, booleans, dates
and times, arrays, and tables whose entries keep their order.
-/

namespace SiteSettings
namespace Toml

inductive Value
  | string (text : String)
  | integer (n : Int64)
  | float (x : Binary64)
  | boolean (b : Bool)
  | datetime (d : Datetime)
  | array (items : List Value)
  | table (entries : List (String × Value))

/-- The entries of a table, in order. -/
abbrev Table := Entries Value

namespace Value

/-- What kind of value this is, in messages. -/
def kindName : Value → String
  | .string _ => "string"
  | .integer _ => "integer"
  | .float _ => "float"
  | .boolean _ => "boolean"
  | .datetime _ => "datetime"
  | .array _ => "array"
  | .table _ => "table"

def isTable : Value → Bool
  | .table _ => true
  | _ => false

end Value
end Toml
end SiteSettings
