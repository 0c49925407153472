import Tenancy.Json.Skip
import Tenancy.Json.Value

namespace Tenancy.Json

/-!
# Records in JSON

A record is written as an object with a member for each field.  When it is read, the members come in
any order and members with other names are skipped; a list of the values in the order of the fields
is accepted, too.  Faults count in the order in which they are met.

* `Scalar`, `Kind` — what a field holds, and what it may hold.
* `Form` — how a type stands in JSON: `Form.value` writes it, `Form.ofText?` reads it.
-/

/-! ### Scalars -/

/-- A value that is neither a list nor an object.  Only some of them are of use in a field. -/
inductive Scalar
  | null
  | flag (b : Bool)
  | whole (n : Nat)
  | otherNumber
  | text (s : String)
deriving DecidableEq

/-- What a field may hold. -/
inductive Kind
  /-- A number from 0 to `most`. -/
  | word (most : Nat)
  | flag
deriving DecidableEq

/-- The field may hold the value. -/
def Kind.admits : Kind → Scalar → Bool
  | word most, .whole n => n ≤ most
  | flag, .flag _ => true
  | _, _ => false

/-- The value as JSON. -/
def Scalar.value : Scalar → Value
  | null | otherNumber => .null
  | flag b => .flag b
  | whole n => .number n
  | text s => .text s

/-- Reads a value that starts with `c`.  No field holds a list or an object. -/
def readScalar (c : Char) (cs : List Char) : Except Fault (Scalar × List Char) :=
  if c = 'n' then (fun rest => (.null, rest)) <$> expect ['u', 'l', 'l'] cs
  else if c = 't' then (fun rest => (.flag true, rest)) <$> expect ['r', 'u', 'e'] cs
  else if c = 'f' then (fun rest => (.flag false, rest)) <$> expect ['a', 'l', 's', 'e'] cs
  else if c = '"' then (fun p => (.text (String.ofList p.1), p.2)) <$> readString cs
  else if c = '-' then (fun p => (.otherNumber, p.2)) <$> readNumber cs
  else if c.isDigit then
    (fun p => (p.1.elim .otherNumber .whole, p.2)) <$> readNumber (c :: cs)
  else if c = '[' ∨ c = '\x7b' then .error .mismatch
  else .error .malformed

/-- Reads the value of a field. -/
def readField (kind : Kind) (cs : List Char) : Except Fault (Scalar × List Char) :=
  match skipBlanks cs with
  | [] => .error .cutOff
  | c :: cs => do
    let (v, cs) ← readScalar c cs
    if kind.admits v then .ok (v, cs) else .error .mismatch

/-- Behind the first character of a scalar, reading the rest gives no characters back. -/
theorem readScalar_length_le {c : Char} {cs rest : List Char} {v : Scalar}
    (h : readScalar c cs = .ok (v, rest)) : rest.length ≤ cs.length := by
  -- three of the scalars are words
  have word {v w : Scalar} {ds : List Char}
      (h : (fun rest => (v, rest)) <$> expect ds cs = .ok (w, rest)) :
      rest.length ≤ cs.length := by
    obtain ⟨behind, he, h⟩ := exists_of_map h
    cases h
    exact expect_length_le he
  unfold readScalar at h
  split at h
  · exact word h
  split at h
  · exact word h
  split at h
  · exact word h
  split at h
  · obtain ⟨p, hs, h⟩ := exists_of_map h
    cases h
    exact Nat.le_of_lt (readString_length_lt hs)
  split at h
  · obtain ⟨p, hn, h⟩ := exists_of_map h
    cases h
    exact Nat.le_of_lt (readNumber_length_lt hn)
  split at h
  · obtain ⟨p, hn, h⟩ := exists_of_map h
    cases h
    exact Nat.le_of_lt_succ (readNumber_length_lt hn)
  split at h <;> cases h

/-- Reading the value of a field takes at least one character. -/
theorem readField_length_lt {kind : Kind} {cs rest : List Char} {v : Scalar}
    (h : readField kind cs = .ok (v, rest)) : rest.length < cs.length := by
  unfold readField at h
  split at h
  · cases h
  · have hb := length_lt_of_skipBlanks ‹_›
    obtain ⟨⟨w, behind⟩, hs, h⟩ := exists_of_bind h
    dsimp only at h
    split at h
    · cases h
      exact Nat.lt_of_le_of_lt (readScalar_length_le hs) hb
    · cases h

/-! ### Fields -/

/-- The fields that were found, in the order in which they came. -/
abbrev Found := List (String × Scalar)

/-- The fields that a record may have. -/
abbrev Fields := List (String × Kind)

/-- Reads a member from behind the quote that opens its key.  A field that comes a second time is
    refused before its value is seen. -/
def readMember (fields : Fields) (found : Found) (cs : List Char) :
    Except Fault (Found × List Char) := do
  let (key, cs) ← readString cs
  let key := String.ofList key
  match fields.lookup key with
  | none => do
    let cs ← skipColon cs
    let cs ← skipValue cs
    .ok (found, cs)
  | some kind =>
    -- a key that was there already is refused here, before the colon
    if (found.lookup key).isSome then .error .mismatch
    else do
      let cs ← skipColon cs
      let (v, cs) ← readField kind cs
      .ok (found ++ [(key, v)], cs)

/-- Reading a member takes at least the closing quote of its key, whether its value is kept or
    skipped. -/
theorem readMember_length_lt {fields : Fields} {found more : Found} {cs rest : List Char}
    (h : readMember fields found cs = .ok (more, rest)) : rest.length < cs.length := by
  obtain ⟨⟨key, behindKey⟩, hk, h⟩ := exists_of_bind h
  have hk := readString_length_lt hk
  dsimp only at h
  split at h
  · obtain ⟨behindColon, hc, h⟩ := exists_of_bind h
    obtain ⟨behind, hv, h⟩ := exists_of_bind h
    have hc := skipColon_length_lt hc
    have hv := skipValue_length_le hv
    cases h
    exact Nat.lt_of_le_of_lt hv (Nat.lt_trans hc hk)
  · split at h
    · cases h
    · obtain ⟨behindColon, hc, h⟩ := exists_of_bind h
      obtain ⟨⟨v, behind⟩, hv, h⟩ := exists_of_bind h
      have hc := skipColon_length_lt hc
      have hv := readField_length_lt hv
      cases h
      exact Nat.lt_trans hv (Nat.lt_trans hc hk)

/-- Reads the members of an object, of which there is at least one more. -/
def readMembers (fields : Fields) (found : Found) (cs : List Char) :
    Except Fault (Found × List Char) :=
  match _ : skipBlanks cs with
  | [] => .error .cutOff
  | c :: rest =>
    if c ≠ '"' then .error .malformed
    else
      match _ : readMember fields found rest with
      | .error e => .error e
      | .ok (found, behind) =>
        match _ : skipBlanks behind with
        | [] => .error .cutOff
        | c :: rest =>
          if c = '\x7d' then .ok (found, rest)
          else if c = ',' then readMembers fields found rest
          else .error .malformed
termination_by cs.length
decreasing_by
  exact Nat.lt_trans (length_lt_of_skipBlanks ‹_›)
    (Nat.lt_trans (readMember_length_lt ‹_›) (length_lt_of_skipBlanks ‹_›))

/-- What comes behind a member: the end of the object, or the next member. -/
def readBehind (fields : Fields) (found : Found) (cs : List Char) :
    Except Fault (Found × List Char) :=
  match skipBlanks cs with
  | [] => .error .cutOff
  | c :: rest =>
    if c = '\x7d' then .ok (found, rest)
    else if c = ',' then readMembers fields found rest
    else .error .malformed

/-- **One member, and what comes behind it.** This form can be rewritten with; the definition
    carries what its termination needs. -/
theorem readMembers_eq {fields : Fields} {found : Found} {cs : List Char} :
    readMembers fields found cs = match skipBlanks cs with
    | [] => .error .cutOff
    | c :: rest =>
      if c ≠ '"' then .error .malformed
      else readMember fields found rest >>= fun p => readBehind fields p.1 p.2 := by
  rw [readMembers]
  split <;> rename_i h <;> rw [h]
  dsimp only
  split
  · rfl
  · split <;> rename_i hm <;> rw [hm]
    · rfl
    · show _ = readBehind fields _ _
      rw [readBehind]
      split <;> rename_i hb <;> rw [hb]

/-- Reading members up to the end of the object takes characters. -/
theorem readMembers_length_lt {fields : Fields} {found more : Found} {cs rest : List Char}
    (h : readMembers fields found cs = .ok (more, rest)) : rest.length < cs.length := by
  fun_induction readMembers fields found cs with
  -- the last member: a quote, the member and the closing brace
  | case5 found cs c behindQuote hquote _ found' behind hmember behind' hbehind =>
    cases h
    exact Nat.lt_trans (length_lt_of_skipBlanks hbehind)
      (Nat.lt_trans (readMember_length_lt hmember) (length_lt_of_skipBlanks hquote))
  -- a member with another one behind it: the same, and then the induction
  | case6 found cs c behindQuote hquote _ found' behind hmember behind' hbehind _ ih =>
    exact Nat.lt_trans (ih h) (Nat.lt_trans (length_lt_of_skipBlanks hbehind)
      (Nat.lt_trans (readMember_length_lt hmember) (length_lt_of_skipBlanks hquote)))
  | _ => cases h

/-- Reads an object from behind its opening brace. -/
def readObject (fields : Fields) (cs : List Char) : Except Fault (Found × List Char) :=
  match skipBlanks cs with
  | '\x7d' :: rest => .ok ([], rest)
  | _ => readMembers fields [] cs

/-- Reads the end of a list that has a value for every field. -/
def readListEnd (cs : List Char) : Except Fault (List Char) :=
  match skipBlanks cs with
  | [] => .error .cutOff
  | c :: rest => if c = ']' then .ok rest else .error .malformed

/-- Reads what separates a value of a list from the next one. -/
def skipComma (cs : List Char) : Except Fault (List Char) :=
  match cs with
  | ',' :: cs =>
    match skipBlanks cs with
    | [] => .error .cutOff
    | ']' :: _ => .error .malformed
    | cs => .ok cs
  | _ => .error .malformed

/-- Reads a list of the values of the fields, which may end early. -/
def readItems (separate : List Char → Except Fault (List Char)) :
    Fields → List Char → Except Fault (Found × List Char)
  | [], cs => (fun rest => ([], rest)) <$> readListEnd cs
  | (name, kind) :: fields, cs =>
    match skipBlanks cs with
    | [] => .error .cutOff
    | ']' :: rest => .ok ([], rest)
    | cs => do
      let cs ← separate cs
      let (v, cs) ← readField kind cs
      let (found, cs) ← readItems skipComma fields cs
      .ok ((name, v) :: found, cs)

/-- Reading the end of a list takes its bracket. -/
theorem readListEnd_length_lt {cs rest : List Char} (h : readListEnd cs = .ok rest) :
    rest.length < cs.length := by
  unfold readListEnd at h
  split at h
  · cases h
  · rename_i hb
    split at h
    · cases h
      exact length_lt_of_skipBlanks hb
    · cases h

/-- Skipping a comma gives no characters back. -/
theorem skipComma_length_le {cs rest : List Char} (h : skipComma cs = .ok rest) :
    rest.length ≤ cs.length := by
  unfold skipComma at h
  split at h
  · rename_i cs
    have hb := skipBlanks_length_le cs
    split at h
    · cases h
    · cases h
    · cases h
      exact Nat.le_succ_of_le hb
  · cases h

/-- Reading the items of a list takes at least its closing bracket. -/
theorem readItems_length_lt {separate : List Char → Except Fault (List Char)}
    (hsep : ∀ {cs rest}, separate cs = .ok rest → rest.length ≤ cs.length) {fields : Fields}
    {cs rest : List Char} {found : Found} (h : readItems separate fields cs = .ok (found, rest)) :
    rest.length < cs.length := by
  induction fields generalizing separate cs found with
  | nil =>
    obtain ⟨behind, hend, h⟩ := exists_of_map h
    cases h
    exact readListEnd_length_lt hend
  -- the separator is nothing for the first item, and a comma from there on
  | cons field fields ih =>
    rw [readItems] at h
    split at h
    · cases h
    · cases h
      exact length_lt_of_skipBlanks ‹_›
    · obtain ⟨behindComma, hcomma, h⟩ := exists_of_bind h
      obtain ⟨⟨v, behind⟩, hfield, h⟩ := exists_of_bind h
      obtain ⟨⟨more, behindAll⟩, hitems, h⟩ := exists_of_bind h
      cases h
      have hblanks := skipBlanks_length_le cs
      have hcomma := hsep hcomma
      have hfield := readField_length_lt hfield
      have hitems := ih skipComma_length_le hitems
      omega

/-- Reads the fields of a record. -/
def readFields (fields : Fields) (cs : List Char) : Except Fault (Found × List Char) :=
  match skipBlanks cs with
  | [] => .error .cutOff
  | '\x7b' :: cs => readObject fields cs
  | '[' :: cs => readItems .ok fields cs
  | c :: cs => do
    discard <| readScalar c cs
    .error .mismatch

/-- Reading an object takes at least its closing brace. -/
theorem readObject_length_lt {fields : Fields} {cs rest : List Char} {found : Found}
    (h : readObject fields cs = .ok (found, rest)) : rest.length < cs.length := by
  unfold readObject at h
  split at h
  · cases h
    exact length_lt_of_skipBlanks ‹_›
  · exact readMembers_length_lt h

/-- Reading the fields of a record takes characters, be they in an object or in a list. -/
theorem readFields_length_lt {fields : Fields} {cs rest : List Char} {found : Found}
    (h : readFields fields cs = .ok (found, rest)) : rest.length < cs.length := by
  unfold readFields at h
  split at h
  · cases h
  · exact Nat.lt_trans (readObject_length_lt h) (length_lt_of_skipBlanks ‹_›)
  · exact Nat.lt_trans (readItems_length_lt (fun h => by cases h; exact Nat.le_refl _) h)
      (length_lt_of_skipBlanks ‹_›)
  · obtain ⟨p, -, h⟩ := exists_of_bind h
    cases h

/-! ### Forms -/

/-- Reads a text that holds one value and nothing else. -/
def readWhole {α : Type} (read : List Char → Except Fault (α × List Char)) (text : String) :
    Except Fault α := do
  let (a, rest) ← read text.toList
  if (skipBlanks rest).isEmpty then .ok a else .error .malformed

namespace Found

/-- The number in a field. -/
def word? (found : Found) (name : String) : Option Nat :=
  match found.lookup name with
  | some (.whole n) => some n
  | _ => none

/-- The truth value in a field. -/
def flag? (found : Found) (name : String) : Option Bool :=
  match found.lookup name with
  | some (.flag b) => some b
  | _ => none

end Found

/-- How a type of records stands in JSON. -/
structure Form (α : Type) where
  fields : Fields
  /-- The values of the fields, in their order. -/
  scalars : α → List Scalar
  /-- The record with the fields that were found, if none is missing that has to be there. -/
  ofFound? : Found → Option α

namespace Form

variable {α : Type}

/-- The record as a JSON value. -/
def value (form : Form α) (a : α) : Value :=
  .record (List.zipWith (fun field v => (field.1, v.value)) form.fields (form.scalars a))

/-- The record as JSON text, with its fields in their order. -/
def text (form : Form α) (a : α) : String := (form.value a).render

/-- Reads a record. -/
def read (form : Form α) (cs : List Char) : Except Fault (α × List Char) := do
  let (found, rest) ← readFields form.fields cs
  match form.ofFound? found with
  | some a => .ok (a, rest)
  | none => .error .mismatch

/-- **Reading a record gets on**: a list of records is read to its end. -/
theorem read_length_lt {form : Form α} {cs rest : List Char} {a : α}
    (h : form.read cs = .ok (a, rest)) :
    rest.length < cs.length := by
  obtain ⟨⟨found, behind⟩, hfields, h⟩ := exists_of_bind h
  have hlt := readFields_length_lt hfields
  dsimp only at h
  split at h
  · cases h
    exact hlt
  · cases h

/-- The record that a text holds. -/
def ofText? (form : Form α) (s : String) : Except Fault α := readWhole form.read s

end Form

end Tenancy.Json
