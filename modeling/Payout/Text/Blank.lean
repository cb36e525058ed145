/-!
# Blanks

The characters of the Unicode property White_Space.
-/

namespace Payout.Text

/-- Whether a character is white space. -/
def isBlank (c : Char) : Bool :=
  let n := c.toNat
  (9 ≤ n ∧ n ≤ 13) ∨ n = 0x20 ∨ n = 0x85 ∨ n = 0xA0 ∨ n = 0x1680 ∨ (0x2000 ≤ n ∧ n ≤ 0x200A) ∨
    n = 0x2028 ∨ n = 0x2029 ∨ n = 0x202F ∨ n = 0x205F ∨ n = 0x3000

/-- Text without the white space it starts with. -/
def trimStart (text : List Char) : List Char := text.dropWhile isBlank

/-- Text without the white space around it. -/
def trimmed (text : List Char) : List Char := (trimStart (trimStart text).reverse).reverse

end Payout.Text
