namespace Tenancy.Text

/-!
# Hexadecimal digits

* `hexValue?` — the value of a digit, in letters of either case.
-/

/-- The value of a hexadecimal digit. -/
def hexValue? (c : Char) : Option Nat :=
  if c.isDigit then some (c.toNat - '0'.toNat)
  else if 'a' ≤ c ∧ c ≤ 'f' then some (c.toNat - 'a'.toNat + 10)
  else if 'A' ≤ c ∧ c ≤ 'F' then some (c.toNat - 'A'.toNat + 10)
  else none

example : hexValue? 'c' = some 12 := by decide
example : hexValue? 'G' = none := by decide

end Tenancy.Text
