/-!
# Blank characters

The blanks of Unicode text: the separators of category Zs, the line and paragraph
separators, and the control characters that separate lines, fields and records.
-/

namespace OptionHost.Text

/-- A blank in the widest sense, the information separators U+001C to U+001F included. -/
def isBlank (c : Char) : Bool :=
  let n := c.toNat
  (9 ≤ n && n ≤ 13) || (28 ≤ n && n ≤ 32) || n == 0x85 || n == 0xA0 || n == 0x1680 ||
    (0x2000 ≤ n && n ≤ 0x200A) || n == 0x2028 || n == 0x2029 || n == 0x202F ||
    n == 0x205F || n == 0x3000

/-- The `White_Space` property of Unicode, which leaves the information separators out. -/
def isWhiteSpace (c : Char) : Bool :=
  isBlank c && !(28 ≤ c.toNat && c.toNat ≤ 31)

/-- Drops the characters of a class from the front. -/
def trimLeft (p : Char → Bool) (s : List Char) : List Char := s.dropWhile p

/-- Drops the characters of a class from the end. -/
def trimRight (p : Char → Bool) (s : List Char) : List Char :=
  (s.reverse.dropWhile p).reverse

def trim (p : Char → Bool) (s : List Char) : List Char := trimRight p (trimLeft p s)

/-- The ASCII letters in lower case, every other character unchanged. -/
def lowerAscii (s : List Char) : List Char := s.map Char.toLower

end OptionHost.Text
