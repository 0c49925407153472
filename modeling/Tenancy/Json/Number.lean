import Tenancy.Binary64
import Tenancy.Json.Scan

namespace Tenancy.Json

/-!
# JSON numbers

Only whole numbers that are not negative are of use here; any other number is read to its end and
then is of the wrong shape.  A number with a fraction, an exponent or too many digits has to fit a
64-bit float, or the text is malformed.

* `readNumber` — a number, behind its sign; the value if it is whole and fits 64 bits.
* `skipNumber` — the same by grammar alone.
* `isTooLarge` — the number does not fit a float.
-/

/-- The largest number of 64 bits. -/
def maxWord : Nat := UInt64.size - 1

/-- The value of a digit. -/
def digitValue (c : Char) : Nat := c.toNat - '0'.toNat

/-! ### Floats -/

/-- `significand * 10 ^ exponent`, computed with floats, is beyond the largest float. -/
def isTooLarge (significand : Nat) (exponent : Int) : Bool :=
  0 ≤ exponent && significand != 0 && (308 < exponent
    || (1 <<< 1024) - (1 <<< 970) ≤ Binary64.nearest significand
      * Binary64.nearest (Nat.pow 10 exponent.toNat))

/-! ### Reading -/

/-- Continues a significand with digits as long as it fits 64 bits.  Gives it with the number of
    digits that it took and of those that are left. -/
def gather (significand taken : Nat) : List Char → Nat × Nat × Nat
  | [] => (significand, taken, 0)
  | c :: cs =>
    let next := significand * 10 + digitValue c
    -- a digit that does not fit any more is dropped, with all that come behind it
    if next ≤ maxWord then gather next (taken + 1) cs else (significand, taken, cs.length + 1)

/-- The end of a number that is not whole. -/
def endReal (significand : Nat) (exponent : Int) (cs : List Char) :
    Except Fault (Option Nat × List Char) :=
  if isTooLarge significand exponent then .error .malformed else .ok (none, cs)

/-- Reads the digits of an exponent. -/
def readExponentDigits (significand : Nat) (exponent sign : Int) :
    List Char → Except Fault (Option Nat × List Char)
  | [] => .error .cutOff
  | c :: cs =>
    if c.isDigit then
      let digits := (c :: cs).takeWhile Char.isDigit
      let n := digits.foldl (fun n d => n * 10 + digitValue d) 0
      endReal significand (exponent + sign * n) ((c :: cs).dropWhile Char.isDigit)
    else .error .malformed

/-- Reads an exponent from behind its letter. -/
def readExponent (significand : Nat) (exponent : Int) :
    List Char → Except Fault (Option Nat × List Char)
  | '+' :: cs => readExponentDigits significand exponent 1 cs
  | '-' :: cs => readExponentDigits significand exponent (-1) cs
  | cs => readExponentDigits significand exponent 1 cs

/-- Reads a fraction from behind its point. -/
def readFraction (significand : Nat) (exponent : Int) (cs : List Char) :
    Except Fault (Option Nat × List Char) :=
  let digits := cs.takeWhile Char.isDigit
  let rest := cs.dropWhile Char.isDigit
  if digits.isEmpty then .error (if rest.isEmpty then .cutOff else .malformed)
  else
    let (significand, taken, _) := gather significand 0 digits
    match rest with
    | 'e' :: rest | 'E' :: rest => readExponent significand (exponent - taken) rest
    | rest => endReal significand (exponent - taken) rest

/-- Reads what follows the whole part of a number, of which `dropped` digits did not fit. -/
def readRest (significand dropped : Nat) : List Char → Except Fault (Option Nat × List Char)
  | '.' :: cs => readFraction significand dropped cs
  | 'e' :: cs | 'E' :: cs => readExponent significand dropped cs
  | cs => if dropped = 0 then .ok (some significand, cs) else endReal significand dropped cs

/-- Reads a number from behind its sign.  A leading zero stands alone. -/
def readNumber : List Char → Except Fault (Option Nat × List Char)
  | [] => .error .cutOff
  | c :: cs =>
    if c = '0' then
      if cs.head?.any Char.isDigit then .error .malformed else readRest 0 0 cs
    else if c.isDigit then
      let (significand, _, dropped) := gather 0 0 ((c :: cs).takeWhile Char.isDigit)
      readRest significand dropped ((c :: cs).dropWhile Char.isDigit)
    else .error .malformed

/-! ### Skipping -/

/-- Skips an exponent from behind its letter. -/
def skipExponent (cs : List Char) : Except Fault (List Char) :=
  let digits := match cs with
    | '+' :: cs | '-' :: cs => cs
    | cs => cs
  if digits.head?.any Char.isDigit then .ok (digits.dropWhile Char.isDigit)
  else .error .malformed

/-- Skips what follows the whole part of a number. -/
def skipRest : List Char → Except Fault (List Char)
  | '.' :: cs =>
    if cs.head?.any Char.isDigit then
      match cs.dropWhile Char.isDigit with
      | 'e' :: rest | 'E' :: rest => skipExponent rest
      | rest => .ok rest
    else .error .malformed
  | 'e' :: cs | 'E' :: cs => skipExponent cs
  | cs => .ok cs

/-- Skips a number from behind its sign.  One that is cut off counts as malformed. -/
def skipNumber : List Char → Except Fault (List Char)
  | [] => .error .malformed
  | c :: cs =>
    if c = '0' then
      if cs.head?.any Char.isDigit then .error .malformed else skipRest cs
    else if c.isDigit then skipRest (cs.dropWhile Char.isDigit)
    else .error .malformed

/-! ### Shorter texts -/

/-- Behind a run of digits no more is left than there was. -/
theorem dropDigits_length_le (cs : List Char) : (cs.dropWhile Char.isDigit).length ≤ cs.length :=
  (List.dropWhile_suffix _).length_le

/-- The end of a number takes no character: it only decides whether the number fits a float. -/
theorem endReal_rest {s : Nat} {e : Int} {cs rest : List Char} {n : Option Nat}
    (h : endReal s e cs = .ok (n, rest)) : rest = cs := by
  unfold endReal at h
  split at h
  · cases h
  · cases h; rfl

/-- Reading the digits of an exponent gives no characters back. -/
theorem readExponentDigits_length_le {s : Nat} {e sign : Int} {cs rest : List Char}
    {n : Option Nat} (h : readExponentDigits s e sign cs = .ok (n, rest)) :
    rest.length ≤ cs.length := by
  cases cs with
  | nil => cases h
  | cons c cs =>
    rw [readExponentDigits] at h
    split at h
    · exact endReal_rest h ▸ dropDigits_length_le (c :: cs)
    · cases h

/-- Reading an exponent, with or without its sign, gives no characters back. -/
theorem readExponent_length_le {s : Nat} {e : Int} {cs rest : List Char} {n : Option Nat}
    (h : readExponent s e cs = .ok (n, rest)) : rest.length ≤ cs.length := by
  unfold readExponent at h
  split at h
  · exact Nat.le_succ_of_le (readExponentDigits_length_le h)
  · exact Nat.le_succ_of_le (readExponentDigits_length_le h)
  · exact readExponentDigits_length_le h

/-- Reading a fraction gives no characters back, whether or not an exponent comes behind it. -/
theorem readFraction_length_le {s : Nat} {e : Int} {cs rest : List Char} {n : Option Nat}
    (h : readFraction s e cs = .ok (n, rest)) : rest.length ≤ cs.length := by
  have hd := dropDigits_length_le cs
  -- the letter of an exponent is one of the characters that the digits leave
  have behindLetter {c : Char} {ds : List Char} (hds : cs.dropWhile Char.isDigit = c :: ds)
      (h : rest.length ≤ ds.length) : rest.length ≤ cs.length := by
    rw [hds] at hd
    exact Nat.le_trans h (Nat.le_of_succ_le hd)
  unfold readFraction at h
  dsimp only at h
  split at h
  · cases h
  · split at h
    · exact behindLetter ‹_› (readExponent_length_le h)
    · exact behindLetter ‹_› (readExponent_length_le h)
    · exact endReal_rest h ▸ hd

/-- Whatever follows the whole part of a number, no more characters are left than before it. -/
theorem readRest_length_le {s dropped : Nat} {cs rest : List Char} {n : Option Nat}
    (h : readRest s dropped cs = .ok (n, rest)) : rest.length ≤ cs.length := by
  unfold readRest at h
  split at h
  · exact Nat.le_succ_of_le (readFraction_length_le h)
  · exact Nat.le_succ_of_le (readExponent_length_le h)
  · exact Nat.le_succ_of_le (readExponent_length_le h)
  · split at h
    · cases h; exact Nat.le_refl _
    · exact Nat.le_of_eq (congrArg _ (endReal_rest h))

/-- **A number has a digit.** Reading one takes at least one character. -/
theorem readNumber_length_lt {cs rest : List Char} {n : Option Nat}
    (h : readNumber cs = .ok (n, rest)) : rest.length < cs.length := by
  cases cs with
  | nil => cases h
  | cons c cs =>
    rw [readNumber] at h
    split at h
    · split at h
      · cases h
      · exact Nat.lt_succ_of_le (readRest_length_le h)
    · split at h
      · have hd : ((c :: cs).dropWhile Char.isDigit).length ≤ cs.length := by
          rw [List.dropWhile_cons_of_pos ‹_›]
          exact dropDigits_length_le cs
        exact Nat.lt_succ_of_le (Nat.le_trans (readRest_length_le h) hd)
      · cases h

/-- Skipping an exponent gives no characters back. -/
theorem skipExponent_length_le {cs rest : List Char} (h : skipExponent cs = .ok rest) :
    rest.length ≤ cs.length := by
  -- with a sign or without one, the digits are what is skipped
  have signless : ∀ ds : List Char, ds.length ≤ cs.length →
      (if ds.head?.any Char.isDigit then Except.ok (ds.dropWhile Char.isDigit)
        else .error Fault.malformed) = .ok rest → rest.length ≤ cs.length := by
    intro ds hds h
    split at h
    · cases h; exact Nat.le_trans (dropDigits_length_le ds) hds
    · cases h
  unfold skipExponent at h
  split at h
  · exact signless _ (Nat.le_succ _) h
  · exact signless _ (Nat.le_succ _) h
  · exact signless _ (Nat.le_refl _) h

/-- Skipping a fraction, an exponent, both or none gives no characters back. -/
theorem skipRest_length_le {cs rest : List Char} (h : skipRest cs = .ok rest) :
    rest.length ≤ cs.length := by
  unfold skipRest at h
  split at h
  · rename_i cs
    have hd := dropDigits_length_le cs
    have behindLetter {c : Char} {ds : List Char} (hds : cs.dropWhile Char.isDigit = c :: ds)
        (h : skipExponent ds = .ok rest) : rest.length ≤ cs.length := by
      rw [hds] at hd
      exact Nat.le_trans (skipExponent_length_le h) (Nat.le_of_succ_le hd)
    split at h
    · split at h
      · exact Nat.le_succ_of_le (behindLetter ‹_› h)
      · exact Nat.le_succ_of_le (behindLetter ‹_› h)
      · cases h; exact Nat.le_succ_of_le hd
    · cases h
  · exact Nat.le_succ_of_le (skipExponent_length_le h)
  · exact Nat.le_succ_of_le (skipExponent_length_le h)
  · cases h; exact Nat.le_refl _

/-- **A number that is skipped has a digit** as well, so that skipping gets on. -/
theorem skipNumber_length_lt {cs rest : List Char} (h : skipNumber cs = .ok rest) :
    rest.length < cs.length := by
  cases cs with
  | nil => cases h
  | cons c cs =>
    rw [skipNumber] at h
    split at h
    · split at h
      · cases h
      · exact Nat.lt_succ_of_le (skipRest_length_le h)
    · split at h
      · exact Nat.lt_succ_of_le (Nat.le_trans (skipRest_length_le h) (dropDigits_length_le _))
      · cases h

example : readNumber "18446744073709551615,".toList = .ok (some maxWord, [',']) := by rfl
example : readNumber "1.".toList = .error .cutOff := by rfl
example : isTooLarge 1 309 = true := by decide +kernel
example : isTooLarge 179769313486231570 291 = false := by decide +kernel

end Tenancy.Json
