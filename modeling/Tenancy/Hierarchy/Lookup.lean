import Tenancy.Work
import Tenancy.Closure.Kinship
import Tenancy.Closure.Cycle

namespace Tenancy.Hierarchy

/-!
# Looking things up

Lookups read the closure table and change nothing.  Each names the step that it fails in: when the
table is missing, when an id fits no cell, or when a cell cannot be read.  Of several cells that
cannot be read, the first in the order of the result is named.

* `isPresent`, `depthBetween`, `parentOf`, `ancestors`, `descendants`, `children`, `edges`
* `circularReferences` — the tenants that are ancestors of each other.
* `warnOfCircularReferences` — the same, told as a warning; never fails.
-/

/-- The cell for an id, within a step. -/
def cellOf (step : String) (id : TenantId) : Work Int := Work.step step (Cell.bind id)

/-- Reads ids with their distances. -/
def readKin (kin : List Kin) : Except StatementFault (List Relative) :=
  kin.mapM fun k => do
    let id ← Cell.id 0 k.id
    let depth ← Cell.depth 1 k.depth
    pure ⟨id, depth⟩

/-- Nearest first; at the same distance, the lower id first. -/
def byDistance (kin : List Kin) : List Kin :=
  kin.mergeSort fun a b =>
    decide (a.depth < b.depth) || (a.depth == b.depth && decide (a.id ≤ b.id))

/-- Reads what `select` finds around an id. -/
def relatives (step : String) (id : TenantId) (select : Closure → Int → List Kin) :
    Work (List Relative) := do
  let t ← Work.read step
  let n ← cellOf step id
  Work.step step (readKin (select t n))

/-- Some row mentions the tenant. -/
def isPresent (id : TenantId) : Work Bool := do
  let t ← Work.read "check node exists"
  let n ← cellOf "check node exists" id
  pure (t.mentions n)

/-- The depth at which `ancestor` reaches `descendant`, if it does. -/
def depthBetween (ancestor descendant : TenantId) : Work (Option Depth) := do
  let t ← Work.read "look up closure edge"
  let a ← cellOf "look up closure edge" ancestor
  let d ← cellOf "look up closure edge" descendant
  match t.depth? a d with
  | none => pure none
  | some k => some <$> Work.step "look up closure edge" (Cell.depth 0 k)

/-- The parent of a tenant: the lowest id with a parent edge to it.  More than one is warned of. -/
def parentOf (id : TenantId) : Work (Option TenantId) := do
  let t ← Work.read "prepare parent lookup"
  let n ← cellOf "look up parent" id
  -- in ascending order, so that the first of several is the lowest
  let cells := ((t.above n).filter fun k => k.depth == 1).map Kin.id
  let parents ← Work.step "read parent rows" (cells.mapM (Cell.id 0))
  if 1 < parents.length then
    Work.log ⟨.warn, .lookup, "Tenant has more than one direct parent",
      [("tenant_id", .ofId id), ("parents", .ofIds parents)]⟩
  pure parents.head?

/-- The ancestors of a tenant, nearest first. -/
def ancestors (id : TenantId) : Work (List Relative) :=
  relatives "list ancestors" id fun t n => byDistance ((t.above n).filter fun k => 0 < k.depth)

/-- The descendants of a tenant, nearest first. -/
def descendants (id : TenantId) : Work (List Relative) :=
  relatives "list descendants" id fun t n => byDistance ((t.below n).filter fun k => 0 < k.depth)

/-- The children of a tenant, in ascending order. -/
def children (id : TenantId) : Work (List TenantId) := do
  let kin ← relatives "list children" id fun t n => (t.below n).filter fun k => k.depth == 1
  pure (kin.map Relative.id)

/-- Reads a row. -/
def readRow (r : Row) : Except StatementFault Edge := do
  let a ← Cell.id 0 r.ancestor
  let d ← Cell.id 1 r.descendant
  let k ← Cell.depth 2 r.depth
  pure ⟨a, d, k⟩

/-- Every row, by ancestor and then by descendant. -/
def edges : Work (List Edge) := do
  let t ← Work.read "prepare edge dump"
  Work.step "read edge rows" (t.rows.mapM readRow)

/-! ### Plans of a move -/

/-- A tenant and its descendants, nearest first. -/
def subtree (id : TenantId) : Work (List Relative) :=
  relatives "compute subtree" id fun t n => byDistance (t.subtree n)

/-- A tenant and its ancestors, nearest first; nothing for no tenant. -/
def supertree (id : TenantId) : Work (List Relative) :=
  if id = .root then pure []
  else relatives "compute supertree" id fun t n => byDistance (t.supertree n)

/-! ### Circular references -/

/-- The tenants that are an ancestor and a descendant of some other tenant, in ascending order. -/
def circularReferences : Work (List TenantId) := do
  let t ← Work.read "prepare cycle scan"
  Work.step "read mutual ancestor rows" (t.mutualIds.mapM (Cell.id 0))

/-- Looks for circular references and tells of them.  A scan that fails is logged, and finds
    nothing. -/
def warnOfCircularReferences : Work (List TenantId) :=
  tryCatch
    (do
      let ids ← circularReferences
      if ids ≠ [] then
        Work.report (.circularReference ids)
      pure ids)
    -- the move is committed by now, so a failure of the scan must not look like one of the move
    fun e => do
      Work.log ⟨.warn, .cycleScan, "Circular reference scan failed", [("error", .text e.message)]⟩
      pure []

end Tenancy.Hierarchy
