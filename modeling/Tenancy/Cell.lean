import Tenancy.Failure

namespace Tenancy.Cell

/-!
# Reading cells

The table may hold numbers that callers cannot have: negative ids, and depths of more than 32 bits.
A cell is read together with the column of the result that it stands in, which a failure names.

* `Cell.id`, `Cell.depth` — the cells of a row; `Cell.depthFault` is why a depth cannot be read.
* `Cell.Value` — any value that a cell could hold; `Cell.Value.asId` reads it as an id.
* `Cell.bind` — the number that stands for an id in a statement.
-/

/-- Reads an id. -/
def id (column : Nat) (n : Int) : Except StatementFault TenantId :=
  match TenantId.ofCell? n with
  | some id => .ok id
  -- a negative number is a cell like any other, but no id
  | none => .error (.outOfRange n column)

/-- Why a depth cannot be read: a whole number is too large, and what is beyond those is a float. -/
def depthFault (column k : Nat) : StatementFault :=
  if k ≤ TenantId.maxCell then .outOfRange k column else .wrongType "Real" column "depth"

/-- Reads a depth. -/
def depth (column : Nat) (k : Nat) : Except StatementFault Depth :=
  if k < UInt32.size then .ok (.ofNat k) else .error (depthFault column k)

/-- The number that a statement gets for an id. -/
def bind (id : TenantId) : Except StatementFault Int :=
  if id.Storable then .ok id.cell else .error .idTooLarge

/-- A value of any type that a cell could hold. -/
inductive Value
  | integer (n : Int)
  | real
  | text
  | blob
  | null
deriving DecidableEq

/-- Reads a value in the first column, which has the given name, as an id. -/
def Value.asId (name : String) : Value → Except StatementFault TenantId
  | integer n => Cell.id 0 n
  | real => .error (.wrongType "Real" 0 name)
  | text => .error (.wrongType "Text" 0 name)
  | blob => .error (.wrongType "Blob" 0 name)
  | null => .error (.wrongType "Null" 0 name)

variable {a : TenantId} {n : Int} {k c : Nat}

/-- The cell of an id that can be stored is read as this id. -/
theorem id_cell (h : a.Storable) : id c a.cell = .ok a := by
  rw [id, TenantId.ofCell?_cell h]

/-- **Reading an id** succeeds just with the id whose cell it is. -/
theorem id_eq_ok_iff : id c n = .ok a ↔ a.Storable ∧ a.cell = n := by
  rw [← TenantId.ofCell?_eq_some_iff, id]
  split <;> simp_all

/-- A depth of 32 bits can be read. -/
theorem depth_eq_ok (h : k < UInt32.size) : depth c k = .ok (.ofNat k) := if_pos h

end Tenancy.Cell
