import Tenancy.Text.Hexadecimal

namespace Tenancy.Json

/-!
# The leaves of JSON text

A reader takes the characters that are left and gives what it read together with the characters that
are left then.  What goes wrong is one of three things: the text ends too early, it is not JSON, or
it is JSON of another shape than the one asked for.

* `skipBlanks`, `expect` — blanks, and the rest of a word.
* `readString` — a string, from behind its opening quote.
* `skipString` — the same without a look at what its escapes stand for.
-/

/-- What is wrong with a text. -/
inductive Fault
  | cutOff
  | malformed
  | mismatch
deriving DecidableEq, Repr

/-! ### Steps -/

variable {α β : Type}

/-- A reader that succeeds has succeeded in its first step. -/
theorem exists_of_bind {x : Except Fault α} {f : α → Except Fault β} {b : β}
    (h : (x >>= f) = .ok b) : ∃ a, x = .ok a ∧ f a = .ok b := by
  cases x with
  | error e => cases h
  | ok a => exact ⟨a, rfl, h⟩

/-- A reader that succeeds with a value that was made from another one has read the other. -/
theorem exists_of_map {x : Except Fault α} {f : α → β} {b : β} (h : f <$> x = .ok b) :
    ∃ a, x = .ok a ∧ f a = b := by
  cases x with
  | error e => cases h
  | ok a => exact ⟨a, rfl, Except.ok.inj h⟩

/-! ### Blanks and words -/

/-- A blank of JSON. -/
def isBlank (c : Char) : Bool := c == ' ' || c == '\n' || c == '\t' || c == '\r'

/-- What is left behind the blanks. -/
def skipBlanks (cs : List Char) : List Char := cs.dropWhile isBlank

/-- What is left behind a word that must come next. -/
def expect : List Char → List Char → Except Fault (List Char)
  | [], cs => .ok cs
  | _ :: _, [] => .error .cutOff
  | e :: es, c :: cs => if c = e then expect es cs else .error .malformed

/-- Skipping blanks gives no characters back. -/
theorem skipBlanks_length_le (cs : List Char) : (skipBlanks cs).length ≤ cs.length :=
  (List.dropWhile_suffix _).length_le

/-- Behind the first character that is no blank, less is left than there was. -/
theorem length_lt_of_skipBlanks {cs rest : List Char} {c : Char}
    (h : skipBlanks cs = c :: rest) : rest.length < cs.length := by
  have := skipBlanks_length_le cs
  rw [h] at this
  exact this

/-- Reading a word gives no characters back. -/
theorem expect_length_le {word cs rest : List Char} (h : expect word cs = .ok rest) :
    rest.length ≤ cs.length := by
  induction word generalizing cs with
  | nil => cases h; exact Nat.le_refl _
  | cons e es ih =>
    cases cs with
    | nil => cases h
    | cons c cs =>
      rw [expect] at h
      split at h
      · exact Nat.le_succ_of_le (ih h)
      · cases h

/-! ### Escapes -/

/-- Reads four hexadecimal digits.  A text that has fewer than four bytes left is cut off. -/
def readHex : List Char → Except Fault (Nat × List Char)
  | a :: b :: c :: d :: cs =>
    match Text.hexValue? a, Text.hexValue? b, Text.hexValue? c, Text.hexValue? d with
    | some a, some b, some c, some d => .ok (((a * 16 + b) * 16 + c) * 16 + d, cs)
    | _, _, _, _ => .error .malformed
  -- the reader asks for four bytes at once, and sees what they are only then
  | cs => if (String.ofList cs).utf8ByteSize < 4 then .error .cutOff else .error .malformed

/-- What a letter behind a backslash stands for, other than a code. -/
def shortEscape? : Char → Option Char
  | '"' => some '"'
  | '\\' => some '\\'
  | '/' => some '/'
  | 'b' => some '\x08'
  | 'f' => some '\x0c'
  | 'n' => some '\n'
  | 'r' => some '\r'
  | 't' => some '\t'
  | _ => none

/-- The number is the first half of a pair of surrogates. -/
def isHighSurrogate (n : Nat) : Bool := 0xd800 ≤ n && n ≤ 0xdbff

/-- The number is the second half of a pair of surrogates. -/
def isLowSurrogate (n : Nat) : Bool := 0xdc00 ≤ n && n ≤ 0xdfff

/-- Reads the second half of a pair of surrogates, of which `high` is the first. -/
def readLowSurrogate (high : Nat) : List Char → Except Fault (Char × List Char)
  | [] | ['\\'] => .error .cutOff
  | '\\' :: 'u' :: cs => do
    let (low, cs) ← readHex cs
    if isLowSurrogate low then
      .ok (.ofNat (0x10000 + (high - 0xd800) * 0x400 + (low - 0xdc00)), cs)
    else .error .malformed
  | _ => .error .malformed

/-- Reads the code of a character. -/
def readCode (cs : List Char) : Except Fault (Char × List Char) := do
  let (n, cs) ← readHex cs
  if isLowSurrogate n then .error .malformed
  else if isHighSurrogate n then readLowSurrogate n cs
  else .ok (.ofNat n, cs)

/-- Reads what comes behind a backslash. -/
def readEscape : List Char → Except Fault (Char × List Char)
  | [] => .error .cutOff
  | c :: cs =>
    match shortEscape? c with
    | some x => .ok (x, cs)
    | none => if c = 'u' then readCode cs else .error .malformed

/-- Skips what comes behind a backslash; a code may be half of a pair. -/
def skipEscape : List Char → Except Fault (List Char)
  | [] => .error .cutOff
  | c :: cs =>
    match shortEscape? c with
    | some _ => .ok cs
    | none => if c = 'u' then Prod.snd <$> readHex cs else .error .malformed

/-- Four digits are four characters. -/
theorem readHex_length {cs rest : List Char} {n : Nat} (h : readHex cs = .ok (n, rest)) :
    rest.length < cs.length := by
  unfold readHex at h
  split at h
  · split at h
    · cases h; simp; omega
    · cases h
  · split at h <;> cases h

/-- The second half of a pair has a backslash, a letter and four digits. -/
theorem readLowSurrogate_length {high : Nat} {cs rest : List Char} {c : Char}
    (h : readLowSurrogate high cs = .ok (c, rest)) : rest.length < cs.length := by
  revert h
  fun_cases readLowSurrogate high cs with
  -- the only case that succeeds is the one of an escape with a code
  | case3 cs =>
    intro h
    obtain ⟨⟨low, behind⟩, hx, h⟩ := exists_of_bind h
    have hlt := readHex_length hx
    dsimp only at h
    split at h
    · rw [← (Prod.mk.inj (Except.ok.inj h)).2]
      exact Nat.lt_succ_of_lt (Nat.lt_succ_of_lt hlt)
    · cases h
  | _ => intro h; cases h

/-- A code is at least four digits long, and longer if it is half of a pair. -/
theorem readCode_length {cs rest : List Char} {c : Char} (h : readCode cs = .ok (c, rest)) :
    rest.length < cs.length := by
  obtain ⟨⟨n, behind⟩, hx, h⟩ := exists_of_bind h
  have hlt := readHex_length hx
  dsimp only at h
  split at h
  · cases h
  · split at h
    · exact Nat.lt_trans (readLowSurrogate_length h) hlt
    · cases h
      exact hlt

/-- An escape is at least the letter behind its backslash. -/
theorem readEscape_length {cs rest : List Char} {c : Char} (h : readEscape cs = .ok (c, rest)) :
    rest.length < cs.length := by
  unfold readEscape at h
  split at h
  · cases h
  · split at h
    · cases h; exact Nat.lt_succ_self _
    · split at h
      · exact Nat.lt_succ_of_lt (readCode_length h)
      · cases h

/-- Skipping an escape takes at least the letter, too. -/
theorem skipEscape_length {cs rest : List Char} (h : skipEscape cs = .ok rest) :
    rest.length < cs.length := by
  cases cs with
  | nil => cases h
  | cons c cs =>
    rw [skipEscape] at h
    split at h
    · cases h
      exact Nat.lt_succ_self _
    · split at h
      · obtain ⟨⟨n, behind⟩, hx, rfl⟩ := exists_of_map h
        exact Nat.lt_succ_of_lt (readHex_length hx)
      · cases h

/-! ### Strings -/

/-- Reads a string up to and with its closing quote. -/
def readString : List Char → Except Fault (List Char × List Char)
  | [] => .error .cutOff
  | c :: cs =>
    if c = '"' then .ok ([], cs)
    else if c = '\\' then
      match _ : readEscape cs with
      | .error e => .error e
      | .ok (x, rest) => do
        let (xs, rest) ← readString rest
        .ok (x :: xs, rest)
    else if c.toNat < 0x20 then .error .malformed
    else do
      let (xs, rest) ← readString cs
      .ok (c :: xs, rest)
termination_by cs => cs.length
decreasing_by
  · exact Nat.lt_succ_of_lt (readEscape_length ‹_›)
  · exact Nat.lt_succ_self _

/-- Skips a string up to and with its closing quote. -/
def skipString : List Char → Except Fault (List Char)
  | [] => .error .cutOff
  | c :: cs =>
    if c = '"' then .ok cs
    else if c = '\\' then
      match _ : skipEscape cs with
      | .error e => .error e
      | .ok rest => skipString rest
    else if c.toNat < 0x20 then .error .malformed
    else skipString cs
termination_by cs => cs.length
decreasing_by
  · exact Nat.lt_succ_of_lt (skipEscape_length ‹_›)
  · exact Nat.lt_succ_self _

/-- **One character of a string**, with the reading of an escape as a step.  This form can be
    rewritten with; the definition carries what its termination needs. -/
theorem readString_cons {c : Char} {cs : List Char} : readString (c :: cs) =
    if c = '"' then .ok ([], cs)
    else if c = '\\' then readEscape cs >>= fun p =>
      readString p.2 >>= fun q => .ok (p.1 :: q.1, q.2)
    else if c.toNat < 0x20 then .error .malformed
    else readString cs >>= fun q => .ok (c :: q.1, q.2) := by
  rw [readString]
  split
  · rfl
  · split
    · split <;> rename_i h <;> rw [h] <;> rfl
    · rfl

/-- One character of a string that is skipped. -/
theorem skipString_cons {c : Char} {cs : List Char} : skipString (c :: cs) =
    if c = '"' then .ok cs
    else if c = '\\' then skipEscape cs >>= skipString
    else if c.toNat < 0x20 then .error .malformed
    else skipString cs := by
  rw [skipString]
  split
  · rfl
  · split
    · split <;> rename_i h <;> rw [h] <;> rfl
    · rfl

/-- **A string has its closing quote**, so that reading one takes at least one character. -/
theorem readString_length_lt {cs rest xs : List Char} (h : readString cs = .ok (xs, rest)) :
    rest.length < cs.length := by
  fun_induction readString cs generalizing xs with
  | case1 => cases h
  | case2 => cases h; exact Nat.lt_succ_self _
  | case3 => cases h
  -- an escape takes characters, and so does the rest of the string behind it
  | case4 cs c mid hmid _ ih =>
    obtain ⟨⟨ys, behind⟩, hs, h⟩ := exists_of_bind h
    cases h
    exact Nat.lt_succ_of_lt (Nat.lt_trans (ih hs) (readEscape_length hmid))
  | case5 => cases h
  | case6 c cs _ _ _ ih =>
    obtain ⟨⟨ys, behind⟩, hs, h⟩ := exists_of_bind h
    cases h
    exact Nat.lt_succ_of_lt (ih hs)

/-- Skipping a string takes its closing quote as well. -/
theorem skipString_length_lt {cs rest : List Char} (h : skipString cs = .ok rest) :
    rest.length < cs.length := by
  fun_induction skipString cs with
  | case1 => cases h
  | case2 => cases h; exact Nat.lt_succ_self _
  | case3 => cases h
  | case4 cs mid hmid _ ih =>
    exact Nat.lt_succ_of_lt (Nat.lt_trans (ih h) (skipEscape_length hmid))
  | case5 => cases h
  | case6 c cs _ _ _ ih => exact Nat.lt_succ_of_lt (ih h)

end Tenancy.Json
