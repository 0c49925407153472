namespace Tenancy.Json

/-!
# JSON values

The JSON that this library writes: numbers are whole and not negative.

* `Value` — a value; `Value.render` writes it without blanks.
* `Value.object` — an object with its keys in alphabetical order.
-/

/-- A JSON value. -/
inductive Value
  | null
  | flag (b : Bool)
  | number (n : Nat)
  | text (s : String)
  | list (items : List Value)
  | record (fields : List (String × Value))

/-- The digit for a number below 16. -/
def hexDigit (n : Nat) : Char := "0123456789abcdef".toList.getD n '0'

/-- How a character stands in a JSON string. -/
def escape (c : Char) : List Char :=
  if c = '"' then ['\\', '"']
  else if c = '\\' then ['\\', '\\']
  else if c = '\n' then ['\\', 'n']
  else if c = '\r' then ['\\', 'r']
  else if c = '\t' then ['\\', 't']
  else if c.toNat = 0x08 then ['\\', 'b']
  else if c.toNat = 0x0c then ['\\', 'f']
  else if c.toNat < 0x20 then ['\\', 'u', '0', '0', hexDigit (c.toNat / 16),
    hexDigit (c.toNat % 16)]
  else [c]

/-- A text between quotes. -/
def quote (s : String) : String := "\"" ++ String.ofList (s.toList.flatMap escape) ++ "\""

mutual

/-- The value as JSON text, without blanks. -/
def Value.render : Value → String
  | .null => "null"
  | .flag b => toString b
  | .number n => toString n
  | .text s => quote s
  | .list items => "[" ++ ",".intercalate (renderItems items) ++ "]"
  | .record fields => "\x7b" ++ ",".intercalate (renderFields fields) ++ "\x7d"

/-- The items of a list as JSON text. -/
def renderItems : List Value → List String
  | [] => []
  | v :: rest => v.render :: renderItems rest

/-- The fields of a record as JSON text. -/
def renderFields : List (String × Value) → List String
  | [] => []
  | (k, v) :: rest => (quote k ++ ":" ++ v.render) :: renderFields rest

end

/-- Items are rendered one by one. -/
theorem renderItems_eq_map (items : List Value) : renderItems items = items.map Value.render := by
  induction items with
  | nil => rfl
  | cons v items ih => rw [renderItems, ih, List.map_cons]

/-- Fields are rendered one by one, each with its name. -/
theorem renderFields_eq_map (fields : List (String × Value)) :
    renderFields fields = fields.map fun p => quote p.1 ++ ":" ++ p.2.render := by
  induction fields with
  | nil => rfl
  | cons p fields ih => rw [renderFields, ih, List.map_cons]

namespace Value

/-- An object whose keys are written in alphabetical order. -/
def object (fields : List (String × Value)) : Value :=
  .record (fields.mergeSort fun a b => decide (a.1 ≤ b.1))

/-- The value, or null. -/
def ofOption {α : Type} (f : α → Value) (a : Option α) : Value := a.elim .null f

end Value

end Tenancy.Json
