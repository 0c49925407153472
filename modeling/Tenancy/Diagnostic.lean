import Tenancy.Edge

namespace Tenancy

/-!
# Diagnostics

What operations tell about their work beside their result.

* `RepairReport` — the rows that a repair changed.
* `Diagnostic` — one thing told.
-/

/-- A tenant, and how many levels away from some other tenant it lies. -/
structure Relative where
  id : TenantId
  depth : Depth
deriving DecidableEq

/-- The numbers of rows that a repair changed, and of the passes it made. -/
structure RepairReport where
  selfEdgesInserted : Nat := 0
  transitiveEdgesInserted : Nat := 0
  depthsLowered : Nat := 0
  passes : Nat := 0
deriving DecidableEq

namespace RepairReport

/-- All rows that were added or changed. -/
def changed (r : RepairReport) : Nat :=
  r.selfEdgesInserted + r.transitiveEdgesInserted + r.depthsLowered

/-- All rows together can be counted with 64 bits. -/
def isCountable (r : RepairReport) : Bool := r.changed < UInt64.size

/-- The repair changed nothing. -/
def isNoop (r : RepairReport) : Bool := r.changed == 0

end RepairReport

/-- One thing that an operation tells about its work. -/
inductive Diagnostic
  /-- What a move is about to join, each list by depth and then by id. -/
  | movePlanned (tenant parent : TenantId) (subtree supertree : List Relative)
  /-- A move has run; the number of rows it deleted, and of those it added or lowered. -/
  | moveApplied (tenant parent : TenantId) (detached upserted : Nat)
  /-- After a move the parent edge was missing, and has been written. -/
  | directEdgeRepaired (tenant parent : TenantId)
  /-- These tenants are ancestors of each other. -/
  | circularReference (tenants : List TenantId)
  | repairCompleted (report : RepairReport)
deriving DecidableEq

/-- The diagnostic points to a table that is not as it should be. -/
def Diagnostic.isWarning : Diagnostic → Bool
  | circularReference _ | directEdgeRepaired .. => true
  | _ => false

end Tenancy
