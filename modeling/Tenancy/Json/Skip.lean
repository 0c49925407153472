import Tenancy.Json.Number

namespace Tenancy.Json

/-!
# Skipping a value

A value that nobody asked for still has to be JSON.  It is read with the list of the brackets that
are open, innermost first, and ends where no bracket is open.

* `Bracket` — a list or an object whose end is yet to come.
* `skipValue` — what is left behind a value; `skipNext` and `skipBehind` are its two states.
-/

/-! ### Scalars -/

/-- Skips a value that starts with `c` and is neither a list nor an object. -/
def skipScalar (c : Char) (cs : List Char) : Except Fault (List Char) :=
  if c = 'n' then expect ['u', 'l', 'l'] cs
  else if c = 't' then expect ['r', 'u', 'e'] cs
  else if c = 'f' then expect ['a', 'l', 's', 'e'] cs
  else if c = '"' then skipString cs
  else if c = '-' then skipNumber cs
  else if c.isDigit then skipNumber (c :: cs)
  else .error .malformed

/-- Behind the first character of a scalar, skipping the rest gives no characters back. -/
theorem skipScalar_length_le {c : Char} {cs rest : List Char} (h : skipScalar c cs = .ok rest) :
    rest.length ≤ cs.length := by
  unfold skipScalar at h
  split at h
  · exact expect_length_le h
  · split at h
    · exact expect_length_le h
    · split at h
      · exact expect_length_le h
      · split at h
        · exact Nat.le_of_lt (skipString_length_lt h)
        · split at h
          · exact Nat.le_of_lt (skipNumber_length_lt h)
          · split at h
            · exact Nat.le_of_lt_succ (skipNumber_length_lt h)
            · cases h

/-! ### Lists and objects -/

/-- What is open at some place of a text. -/
inductive Bracket
  | list
  | object
deriving DecidableEq

/-- The character that ends it. -/
def Bracket.closing : Bracket → Char
  | list => ']'
  | object => '\x7d'

/-- Skips the colon behind a key. -/
def skipColon (cs : List Char) : Except Fault (List Char) :=
  match skipBlanks cs with
  | [] => .error .cutOff
  | c :: cs => if c = ':' then .ok cs else .error .malformed

/-- Skips the key of a member of an object, and the colon. -/
def skipKey (cs : List Char) : Except Fault (List Char) :=
  match skipBlanks cs with
  | [] => .error .cutOff
  | c :: cs => if c = '"' then skipString cs >>= skipColon else .error .malformed

/-- What comes before the next value inside of a bracket. -/
def Bracket.lead : Bracket → List Char → Except Fault (List Char)
  | list, cs => .ok cs
  | object, cs => skipKey cs

/-- The bracket that a character opens. -/
def Bracket.ofOpening? (c : Char) : Option Bracket :=
  if c = '[' then some list else if c = '\x7b' then some object else none

/-- Skipping a colon takes it. -/
theorem skipColon_length_lt {cs rest : List Char} (h : skipColon cs = .ok rest) :
    rest.length < cs.length := by
  unfold skipColon at h
  split at h
  · cases h
  · rename_i hb
    split at h
    · cases h; exact length_lt_of_skipBlanks hb
    · cases h

/-- Skipping a key takes its quotes and the colon. -/
theorem skipKey_length_lt {cs rest : List Char} (h : skipKey cs = .ok rest) :
    rest.length < cs.length := by
  unfold skipKey at h
  split at h
  · cases h
  · have hb := length_lt_of_skipBlanks ‹_›
    split at h
    · obtain ⟨behind, hs, h⟩ := exists_of_bind h
      have hs := skipString_length_lt hs
      exact Nat.lt_trans (skipColon_length_lt h) (Nat.lt_trans hs hb)
    · cases h

/-- What comes before a value inside of a bracket is nothing, or a key. -/
theorem Bracket.lead_length_le {b : Bracket} {cs rest : List Char} (h : b.lead cs = .ok rest) :
    rest.length ≤ cs.length := by
  cases b with
  | list => cases h; exact Nat.le_refl _
  | object => exact Nat.le_of_lt (skipKey_length_lt h)

mutual

/-- A value comes next. -/
def skipNext (opened : List Bracket) (cs : List Char) : Except Fault (List Char) :=
  match _ : skipBlanks cs with
  | [] => .error .cutOff
  | c :: rest =>
    match Bracket.ofOpening? c with
    | none =>
      match _ : skipScalar c rest with
      | .error e => .error e
      | .ok rest => skipBehind opened rest
    | some b =>
      match _ : skipBlanks rest with
      | [] => .error .cutOff
      | d :: behind =>
        if d = b.closing then skipBehind opened behind
        else
          match _ : b.lead rest with
          | .error e => .error e
          | .ok rest => skipNext (b :: opened) rest
termination_by cs.length
decreasing_by
  · exact Nat.lt_of_le_of_lt (skipScalar_length_le ‹_›) (length_lt_of_skipBlanks ‹_›)
  · exact Nat.lt_trans (length_lt_of_skipBlanks ‹_›) (length_lt_of_skipBlanks ‹_›)
  · exact Nat.lt_of_le_of_lt (Bracket.lead_length_le ‹_›) (length_lt_of_skipBlanks ‹_›)

/-- A value has just ended. -/
def skipBehind : List Bracket → List Char → Except Fault (List Char)
  | [], cs => .ok cs
  | b :: opened, cs =>
    match _ : skipBlanks cs with
    | [] => .error .cutOff
    | c :: rest =>
      if c = b.closing then skipBehind opened rest
      else if c = ',' then
        match _ : b.lead rest with
        | .error e => .error e
        | .ok rest => skipNext (b :: opened) rest
      else .error .malformed
termination_by _ cs => cs.length
decreasing_by
  · exact length_lt_of_skipBlanks ‹_›
  · exact Nat.lt_of_le_of_lt (Bracket.lead_length_le ‹_›) (length_lt_of_skipBlanks ‹_›)

end

section

variable {opened : List Bracket} {b : Bracket} {cs : List Char}

/-- **Where a value comes next**, as one equation in which each reader is a step of its own. -/
theorem skipNext_eq : skipNext opened cs = match skipBlanks cs with
    | [] => .error .cutOff
    | c :: rest =>
      match Bracket.ofOpening? c with
      | none => skipScalar c rest >>= skipBehind opened
      | some b =>
        match skipBlanks rest with
        | [] => .error .cutOff
        | d :: behind =>
          if d = b.closing then skipBehind opened behind
          else b.lead rest >>= skipNext (b :: opened) := by
  rw [skipNext]
  split <;> rename_i h <;> rw [h]
  -- the first character tells a scalar from a bracket
  rename_i c rest
  dsimp only
  cases Bracket.ofOpening? c with
  | none =>
    dsimp only
    split <;> rename_i hs <;> rw [hs] <;> rfl
  | some b =>
    dsimp only
    split <;> rename_i hd <;> rw [hd]
    dsimp only
    split
    · rfl
    · split <;> rename_i hl <;> rw [hl] <;> rfl

/-- A value that no bracket is open around ends the whole. -/
theorem skipBehind_nil : skipBehind [] cs = .ok cs := by rw [skipBehind]

/-- **Where a value has ended** inside of a bracket: the bracket ends, or another value comes. -/
theorem skipBehind_cons : skipBehind (b :: opened) cs = match skipBlanks cs with
    | [] => .error .cutOff
    | c :: rest =>
      if c = b.closing then skipBehind opened rest
      else if c = ',' then b.lead rest >>= skipNext (b :: opened)
      else .error .malformed := by
  rw [skipBehind]
  split <;> rename_i h <;> rw [h]
  dsimp only
  split
  · rfl
  · split
    · split <;> rename_i hl <;> rw [hl] <;> rfl
    · rfl

end

mutual

/-- Skipping a value and all that is open around it gives no characters back. -/
theorem skipNext_length_le {opened : List Bracket} {cs rest : List Char}
    (h : skipNext opened cs = .ok rest) : rest.length ≤ cs.length := by
  rw [skipNext] at h
  split at h
  · cases h
  · have hb := length_lt_of_skipBlanks ‹_›
    -- a scalar, and then the rest; or a bracket that ends at once, or one with a value in it
    split at h
    · split at h
      · cases h
      · have hs := skipScalar_length_le ‹_›
        exact Nat.le_trans (skipBehind_length_le h) (by omega)
    · split at h
      · cases h
      · have hc := length_lt_of_skipBlanks ‹_›
        split at h
        · exact Nat.le_trans (skipBehind_length_le h) (by omega)
        · split at h
          · cases h
          · have hl := Bracket.lead_length_le ‹_›
            exact Nat.le_trans (skipNext_length_le h) (by omega)
termination_by cs.length
decreasing_by all_goals omega

/-- Skipping the rest of what is open gives no characters back. -/
theorem skipBehind_length_le {opened : List Bracket} {cs rest : List Char}
    (h : skipBehind opened cs = .ok rest) : rest.length ≤ cs.length := by
  cases opened with
  | nil => rw [skipBehind] at h; cases h; exact Nat.le_refl _
  | cons b opened =>
    rw [skipBehind] at h
    split at h
    · cases h
    · have hb := length_lt_of_skipBlanks ‹_›
      split at h
      · exact Nat.le_trans (skipBehind_length_le h) (by omega)
      · split at h
        · split at h
          · cases h
          · have hl := Bracket.lead_length_le ‹_›
            exact Nat.le_trans (skipNext_length_le h) (by omega)
        · cases h
termination_by cs.length
decreasing_by all_goals omega

end

/-- What is left behind a value. -/
def skipValue (cs : List Char) : Except Fault (List Char) := skipNext [] cs

/-- **Skipping a value gives no characters back.** -/
theorem skipValue_length_le {cs rest : List Char} (h : skipValue cs = .ok rest) :
    rest.length ≤ cs.length :=
  skipNext_length_le h

end Tenancy.Json
