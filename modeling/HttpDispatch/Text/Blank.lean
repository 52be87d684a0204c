/-!
# Blank characters

White space at the ends of a text. `isBlank` is the Unicode property White_Space; `trim` removes
such characters from both ends, `unquote` removes double quotes from both ends. Both are
`stripEnds`, which keeps everything between the first and the last character that stays.
-/

namespace HttpDispatch.Text

/-- The characters with the Unicode property White_Space. -/
def isBlank (c : Char) : Bool :=
  let n := c.toNat
  (9 ≤ n && n ≤ 13) || n == 0x20 || n == 0x85 || n == 0xA0 || n == 0x1680 ||
    (0x2000 ≤ n && n ≤ 0x200A) || n == 0x2028 || n == 0x2029 || n == 0x202F || n == 0x205F ||
    n == 0x3000

/-- The characters of `l` without those at its end that satisfy `p`. -/
def stripEnd (p : Char → Bool) (l : List Char) : List Char := (l.reverse.dropWhile p).reverse

/-- The characters of `l` without those at either end that satisfy `p`. -/
def stripEnds (p : Char → Bool) (l : List Char) : List Char := stripEnd p (l.dropWhile p)

/-- The text without white space at its ends. -/
def trim (s : String) : String := String.ofList (stripEnds isBlank s.toList)

/-- The text without double quotes at its ends. -/
def unquote (s : String) : String := String.ofList (stripEnds (· == '"') s.toList)

end HttpDispatch.Text
