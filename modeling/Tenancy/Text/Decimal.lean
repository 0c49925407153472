namespace Tenancy.Text

/-!
# Decimal numbers

Numbers are read from left to right: at each character it is first seen whether it is a digit, then
whether the number so far has become too large.

* `readNat` — a number without a sign, or with a plus.
* `readInt` — a number that may have a minus, too.
-/

/-- Why a text is not a number. -/
inductive NumeralFault
  | empty
  | notDigit
  | tooLarge
  | tooSmall
deriving DecidableEq, Repr

/-- What is told to someone whose text is not a number. -/
def NumeralFault.message : NumeralFault → String
  | .empty => "cannot parse integer from empty string"
  | .notDigit => "invalid digit found in string"
  | .tooLarge => "number too large to fit in target type"
  | .tooSmall => "number too small to fit in target type"

/-- The value of a decimal digit. -/
def digit? (c : Char) : Option Nat :=
  if c.isDigit then some (c.toNat - '0'.toNat) else none

/-- Continues the number `acc` with the digits of a text, up to the number `most`. -/
def readDigits (most : Nat) (excess : NumeralFault) (acc : Nat) :
    List Char → Except NumeralFault Nat
  | [] => .ok acc
  | c :: cs =>
    match digit? c with
    | none => .error .notDigit
    | some d =>
      if acc * 10 + d ≤ most then readDigits most excess (acc * 10 + d) cs else .error excess

/-- Reads digits of which there must be at least one. -/
def readNumeral (most : Nat) (excess : NumeralFault) : List Char → Except NumeralFault Nat
  | [] => .error .notDigit
  | cs => readDigits most excess 0 cs

/-- Reads a number from 0 to `most`. -/
def readNat (most : Nat) : List Char → Except NumeralFault Nat
  | [] => .error .empty
  | '+' :: cs => readNumeral most .tooLarge cs
  | cs => readNumeral most .tooLarge cs

/-- Reads a number from `-least` to `most`. -/
def readInt (least most : Nat) : List Char → Except NumeralFault Int
  | '-' :: cs => (fun n : Nat => -(n : Int)) <$> readNumeral least .tooSmall cs
  | cs => (fun n : Nat => (n : Int)) <$> readNat most cs

example : readNat 255 ['+', '0', '0', '7'] = .ok 7 := rfl
example : readNat 255 ['2', '5', '6', 'x'] = .error .tooLarge := rfl
example : readNat 255 ['-'] = .error .notDigit := rfl

end Tenancy.Text
