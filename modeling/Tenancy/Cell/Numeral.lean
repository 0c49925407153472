import Tenancy.Binary64

namespace Tenancy.Cell

/-!
# Texts that become numbers

A cell that is meant for whole numbers takes a text in if it is a number: digits alone are taken as
they are; a number with a point or an exponent is taken as the float nearest to it.  The number is
kept if it is whole and fits 64 bits.

* `Numeral` — a number as it is written; `Numeral.ofText?` reads it.
* `wholeNumber?` — the number that is kept for a text.
-/

/-- A blank that may stand around a number. -/
def isBlank (c : Char) : Bool := c == ' ' || (0x09 ≤ c.toNat && c.toNat ≤ 0x0d)

/-- The text without the blanks at its two ends. -/
def trim (cs : List Char) : List Char :=
  ((cs.dropWhile isBlank).reverse.dropWhile isBlank).reverse

/-- The value of a digit. -/
def digitValue (c : Char) : Nat := c.toNat - '0'.toNat

/-- The number that digits make up. -/
def valueOf (digits : List Char) : Nat := digits.foldl (fun n c => n * 10 + digitValue c) 0

/-- A number as it is written. -/
structure Numeral where
  negative : Bool
  /-- The digits in front of the point. -/
  whole : List Char
  /-- The digits behind the point, if there is one. -/
  fraction : Option (List Char)
  /-- The sign and the digits of the exponent, if there is one. -/
  exponent : Option (Bool × List Char)
deriving DecidableEq

/-- Takes a sign off a text; tells whether it is a minus. -/
def splitSign : List Char → Bool × List Char
  | '-' :: cs => (true, cs)
  | '+' :: cs => (false, cs)
  | cs => (false, cs)

/-- Reads the exponent that makes up the rest of a text. -/
def readExponent? : List Char → Option (Option (Bool × List Char))
  | [] => some none
  | c :: cs =>
    let (negative, digits) := splitSign cs
    if (c = 'e' ∨ c = 'E') ∧ digits ≠ [] ∧ digits.all Char.isDigit then
      some (some (negative, digits))
    else none

namespace Numeral

/-- Reads a number.  It has digits in front of its point or behind it. -/
def ofText? (cs : List Char) : Option Numeral := do
  let (negative, cs) := splitSign (trim cs)
  let (whole, cs) := cs.span Char.isDigit
  let (fraction, cs) : Option (List Char) × List Char := match cs with
    | '.' :: cs => (some (cs.takeWhile Char.isDigit), cs.dropWhile Char.isDigit)
    | cs => (none, cs)
  let exponent ← readExponent? cs
  if whole.isEmpty && (fraction.getD []).isEmpty then none
  else some ⟨negative, whole, fraction, exponent⟩

/-- The number has a sign and digits, and no more. -/
def isPlain (n : Numeral) : Bool := n.fraction.isNone && n.exponent.isNone

/-- The number with its sign. -/
def withSign (n : Numeral) (magnitude : Nat) : Int :=
  if n.negative then -(magnitude : Int) else magnitude

/-! ### Approximation -/

/-- Digits no longer count from this significand on. -/
def fullSignificand : Nat := (UInt64.size - 10) / 10

/-- Continues a significand with digits until it is full.  Gives it with the number of digits left
    out. -/
def gather (significand : Nat) : List Char → Nat × Nat
  | [] => (significand, 0)
  | c :: cs =>
    -- the digits left out are counted, since each is worth a power of ten
    if fullSignificand ≤ significand then (significand, cs.length + 1)
    else gather (significand * 10 + digitValue c) cs

/-- The value of the digits of an exponent.  With five digits it is beyond all floats; one that
    goes on behind these is cut down. -/
def exponentOf (digits : List Char) : Nat :=
  digits.foldl (fun e c => if e < 10000 then e * 10 + digitValue c else 10000) 0

/-- The digits that count, and the power of 10 that they are multiplied by. -/
def scaled (n : Numeral) : Nat × Int :=
  let fraction := n.fraction.getD []
  let (significand, moved) := gather 0 n.whole
  let (significand, left) := gather significand fraction
  let e : Int := match n.exponent with
    | none => 0
    | some (negative, digits) => if negative then -exponentOf digits else exponentOf digits
  (significand, e + moved + left - fraction.length)

/-- The float nearest to the number, without its sign, if it is a whole number. -/
def nearest? (n : Numeral) : Option Nat :=
  let (significand, e) := n.scaled
  Binary64.whole? (significand * Nat.pow 10 e.toNat) (Nat.pow 10 (-e).toNat)

/-- The whole number that is kept for the number. -/
def kept? (n : Numeral) : Option Int :=
  if n.isPlain then
    -- digits alone are taken exactly; all else goes through a float
    let m := n.withSign (valueOf n.whole)
    if -0x8000000000000000 ≤ m ∧ m < 0x8000000000000000 then some m else none
  else do
    let m ← n.nearest?
    if m < 0x8000000000000000 then some (n.withSign m) else none

end Numeral

/-- The whole number that is kept for a text. -/
def wholeNumber? (cs : List Char) : Option Int := Numeral.ofText? cs >>= Numeral.kept?

example : wholeNumber? "-12.5e1".toList = some (-125) := by rfl
example : wholeNumber? " 9007199254740993".toList = some 9007199254740993 := by decide +kernel
example : wholeNumber? "9007199254740993.0".toList = some 9007199254740992 := by decide +kernel
example : wholeNumber? ".5".toList = none := by decide +kernel

end Tenancy.Cell
