-- SUMMARY: White space of Unicode text, and trimming it from both ends.

/-!
# White space

`isBlank` is the White_Space property of Unicode: 25 characters, of which the zero-width space and
the byte order mark are not members. `trim` strips them from both ends of a text.
-/

namespace ShardNet.Text

/-- The characters with the Unicode property White_Space. -/
def isBlank (c : Char) : Bool :=
  (0x9 ≤ c.val && c.val ≤ 0xD) || c.val == 0x20 || c.val == 0x85 || c.val == 0xA0
    || c.val == 0x1680 || (0x2000 ≤ c.val && c.val ≤ 0x200A) || c.val == 0x2028
    || c.val == 0x2029 || c.val == 0x202F || c.val == 0x205F || c.val == 0x3000

/-- A text without the white space at its two ends. -/
def trim (text : List Char) : List Char :=
  ((text.dropWhile isBlank).reverse.dropWhile isBlank).reverse

end ShardNet.Text
