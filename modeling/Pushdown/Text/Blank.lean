/-!
# Blank characters

The white space that is ignored around identifiers and property values, and the trimming
that drops it from both ends of a text.
-/

namespace Pushdown.Text

/-- White space of the whole character set, not of ASCII alone. -/
def isBlank (c : Char) : Bool :=
  let n := c.toNat
  (0x09 ≤ n && n ≤ 0x0D) || n == 0x20 || n == 0x85 || n == 0xA0 || n == 0x1680 ||
    (0x2000 ≤ n && n ≤ 0x200A) || n == 0x2028 || n == 0x2029 || n == 0x202F || n == 0x205F ||
    n == 0x3000

/-- Drop the characters that satisfy `p` from both ends. -/
def trimWhile (p : Char → Bool) (cs : List Char) : List Char :=
  ((cs.dropWhile p).reverse.dropWhile p).reverse

/-- Drop blanks from both ends of a list of characters. -/
def trimChars (cs : List Char) : List Char := trimWhile isBlank cs

/-- Drop blanks from both ends. -/
def trim (s : String) : String := String.ofList (trimChars s.toList)

end Pushdown.Text
