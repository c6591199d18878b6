/-!
# Blank characters

Text is trimmed of the characters with the Unicode property `White_Space`: the ASCII blanks
from tab to carriage return and the space, the next-line control, and the typographic spaces
and separators.
-/

namespace SiteSettings
namespace Text

/-- The property `White_Space`. -/
def isBlank (c : Char) : Bool :=
  let n := c.toNat
  (9 ≤ n && n ≤ 13) || n == 32 || n == 0x85 || n == 0xa0 || n == 0x1680 ||
    (0x2000 ≤ n && n ≤ 0x200a) || n == 0x2028 || n == 0x2029 || n == 0x202f ||
    n == 0x205f || n == 0x3000

/-- The characters from the first one that is not blank. -/
def trimLeft (s : List Char) : List Char :=
  s.dropWhile isBlank

/-- The characters up to the last one that is not blank. -/
def trimRight (s : List Char) : List Char :=
  (trimLeft s.reverse).reverse

/-- The characters from the first to the last one that is not blank. -/
def trim (s : List Char) : List Char :=
  trimRight (trimLeft s)

end Text
end SiteSettings
