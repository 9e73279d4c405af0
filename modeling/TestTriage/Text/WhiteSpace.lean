/-!
# White space

Unicode's property `White_Space`, and trimming by it.
-/

namespace TestTriage.Text

/-- Unicode's property `White_Space`. -/
def isWhiteSpace (c : Char) : Bool :=
  let n := c.toNat
  (0x09 ≤ n && n ≤ 0x0d) || n == 0x20 || n == 0x85 || n == 0xa0 || n == 0x1680
    || (0x2000 ≤ n && n ≤ 0x200a) || n == 0x2028 || n == 0x2029 || n == 0x202f || n == 0x205f
    || n == 0x3000

/-- The list without the elements at its end that satisfy `p`. -/
def dropEndWhile (p : α → Bool) (xs : List α) : List α := (xs.reverse.dropWhile p).reverse

/-- The characters without white space at the end. -/
def trimEnd (cs : List Char) : List Char := dropEndWhile isWhiteSpace cs

/-- The characters without white space at either end. -/
def trim (cs : List Char) : List Char := trimEnd (cs.dropWhile isWhiteSpace)

end TestTriage.Text
