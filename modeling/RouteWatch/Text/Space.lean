/-!
# Blank characters

Two sets of blanks are in use. `isSpace` is the wide one, which the trimming of text and
the class `\s` of a pattern go by; `isWhiteSpace` is the Unicode property `White_Space`,
which lacks the four separators U+001C to U+001F. Trimming is stated on lists of
characters, and `strip` carries it over to text.
-/

namespace RouteWatch.Text

/-- A character of the Unicode property `White_Space`. -/
def isWhiteSpace (c : Char) : Bool :=
  let n := c.toNat
  (0x09 ≤ n && n ≤ 0x0D) || n == 0x20 || n == 0x85 || n == 0xA0 || n == 0x1680 ||
    (0x2000 ≤ n && n ≤ 0x200A) || n == 0x2028 || n == 0x2029 || n == 0x202F ||
    n == 0x205F || n == 0x3000

/-- A blank: `White_Space` or one of the information separators U+001C to U+001F. -/
def isSpace (c : Char) : Bool :=
  isWhiteSpace c || (0x1C ≤ c.toNat && c.toNat ≤ 0x1F)

/-- A list without the members at either end that satisfy `drop`. -/
def trim {α : Type} (drop : α → Bool) (xs : List α) : List α :=
  (((xs.dropWhile drop).reverse).dropWhile drop).reverse

/-- Text without the blanks at either end. -/
def strip (s : String) : String :=
  String.ofList (trim isSpace s.toList)

/-- Text without its final characters that satisfy `drop`. -/
def stripEnd (drop : Char → Bool) (s : String) : String :=
  String.ofList ((s.toList.reverse.dropWhile drop).reverse)

end RouteWatch.Text
