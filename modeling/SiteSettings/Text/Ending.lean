/-!
# How a text ends

Generated code is appended line by line; what has to be written first depends on whether the text so
far ends a line, or ends a blank line.  What begins a line is a margin of spaces, and like any text
it cannot get longer than `longest`.
-/

namespace SiteSettings
namespace Text

/-- Whether the last characters of `s` are those of `ending`. -/
def endsIn (ending s : String) : Bool :=
  ending.toList.isSuffixOf s.toList

/-- Whether the text ends with a line feed. -/
def endsLine (s : String) : Bool :=
  endsIn "\n" s

/-- Whether the text ends with a line feed and a blank line. -/
def endsBlankLine (s : String) : Bool :=
  endsIn "\n\n" s

/-- The greatest length of a text, in bytes: lengths are words of 64 bits with a sign. -/
def longest : Nat :=
  UInt64.size / 2 - 1

/-- As many spaces as `n`. -/
def spaces (n : Nat) : String :=
  String.ofList (List.replicate n ' ')

end Text
end SiteSettings
