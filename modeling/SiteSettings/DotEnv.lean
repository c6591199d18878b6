/-!
# Files of environment variables

A `.env` file lists environment variables, one `NAME=value` to a line, below a header.
-/

namespace SiteSettings
namespace DotEnv

/-- The header of a file without a template. -/
def defaultHeader : String := "# Drupal environmental configuration."

/-- The line of one variable, without its line end. -/
def line : String × String → String
  | (name, value) => name ++ "=" ++ value

/-- The text of a file: the template or, if it is missing or empty, the default header, then the
variables in order. -/
def render (bindings : List (String × String)) (template : Option String) : String :=
  let header :=
    match template with
    | some text => if text.isEmpty then defaultHeader else text
    | none => defaultHeader
  header ++ "\n" ++ String.intercalate "\n" (bindings.map line) ++ "\n"

end DotEnv
end SiteSettings
