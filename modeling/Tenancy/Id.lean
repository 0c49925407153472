namespace Tenancy

/-!
# Tenant ids

A tenant is named by an unsigned 64-bit number.  A table cell holds a signed one, so only the lower
half of the ids can be stored; the id 0 names no tenant and stands for "no parent".

* `TenantId` — an id as callers give it.
* `TenantId.Storable` — it fits a table cell.
* `TenantId.cell`, `TenantId.ofCell?` — the number in the cell, and back.
-/

/-- The name of a tenant, or 0 for no tenant. -/
structure TenantId where
  value : UInt64
deriving DecidableEq

/-- A number of levels as callers see it: cells hold larger ones, which cannot be read. -/
abbrev Depth := UInt32

namespace TenantId

/-- The id of the number `n`, for `n` below 2^64. -/
def ofNat (n : Nat) : TenantId := ⟨.ofNat n⟩

/-- The number that the id stands for. -/
def toNat (id : TenantId) : Nat := id.value.toNat

/-- The id that names no tenant. -/
def root : TenantId := ⟨0⟩

instance : Inhabited TenantId := ⟨root⟩

/-- The largest number that a table cell holds. -/
def maxCell : Nat := UInt64.size / 2 - 1

/-- The largest id that a table cell holds. -/
def largest : TenantId := ofNat maxCell

/-- The id fits a table cell. -/
def Storable (id : TenantId) : Prop := id.toNat ≤ maxCell

instance (id : TenantId) : Decidable id.Storable := inferInstanceAs (Decidable (_ ≤ _))

/-- The number that a table cell holds for a storable id. -/
def cell (id : TenantId) : Int := id.toNat

/-- The id that a cell holds: none if the number is negative. -/
def ofCell? (n : Int) : Option TenantId :=
  if 0 ≤ n ∧ n.toNat ≤ maxCell then some (ofNat n.toNat) else none

variable {a b : TenantId} {n : Int}

/-- Ids of the same number are the same. -/
@[ext] theorem ext (h : a.toNat = b.toNat) : a = b := by
  cases a; cases b; exact congrArg _ (UInt64.toNat_inj.1 h)

/-- An id is a number of 64 bits. -/
theorem toNat_lt (a : TenantId) : a.toNat < UInt64.size := a.value.toNat_lt

/-- A number of 64 bits makes the id that has it. -/
theorem toNat_ofNat {n : Nat} (h : n < UInt64.size) : (ofNat n).toNat = n :=
  UInt64.toNat_ofNat_of_lt' h

/-- **Different ids have different cells**, also where the cell is not one that can be stored. -/
theorem cell_inj : a.cell = b.cell ↔ a = b :=
  ⟨fun h => ext (Int.ofNat_inj.1 h), fun h => h ▸ rfl⟩

/-- The cell of an id that can be stored is read as this id. -/
theorem ofCell?_cell (h : a.Storable) : ofCell? a.cell = some a := by
  rw [ofCell?, if_pos ⟨Int.natCast_nonneg _, h⟩]
  exact congrArg some (ext (toNat_ofNat a.toNat_lt))

/-- **What a cell is read as**: the id that can be stored and has this cell. -/
theorem ofCell?_eq_some_iff : ofCell? n = some a ↔ a.Storable ∧ a.cell = n := by
  constructor
  · intro h
    rw [ofCell?] at h
    split at h
    · rename_i hn
      cases h
      have hlt : n.toNat < UInt64.size := Nat.lt_of_le_of_lt hn.2 (by decide)
      exact ⟨by rw [Storable, toNat_ofNat hlt]; exact hn.2,
        by rw [cell, toNat_ofNat hlt]; exact Int.toNat_of_nonneg hn.1⟩
    · cases h
  · rintro ⟨h, rfl⟩
    exact ofCell?_cell h

end TenantId

end Tenancy
