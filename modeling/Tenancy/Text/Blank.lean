namespace Tenancy.Text

/-!
# Blank characters

The characters that Unicode gives the property `White_Space`, and the text between them.

* `isBlank` — the property.
* `trim` — a text without the blanks at its two ends.
-/

/-- The character is white space in the sense of Unicode. -/
def isBlank (c : Char) : Bool :=
  (0x09 ≤ c.toNat && c.toNat ≤ 0x0d) || c.toNat == 0x20 || c.toNat == 0x85 || c.toNat == 0xa0
    || c.toNat == 0x1680 || (0x2000 ≤ c.toNat && c.toNat ≤ 0x200a) || c.toNat == 0x2028
    || c.toNat == 0x2029 || c.toNat == 0x202f || c.toNat == 0x205f || c.toNat == 0x3000

/-- The text without the blanks at its end. -/
def trimEnd (cs : List Char) : List Char := (cs.reverse.dropWhile isBlank).reverse

/-- The text without the blanks at its two ends. -/
def trim (cs : List Char) : List Char := trimEnd (cs.dropWhile isBlank)

example : trim [' ', '\t', 'a', ' ', 'b', '\n'] = ['a', ' ', 'b'] := by decide

end Tenancy.Text
