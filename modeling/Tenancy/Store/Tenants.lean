import Tenancy.Store.Basic
import Tenancy.Hierarchy.Repair
import Tenancy.Database.Schema

namespace Tenancy.Store

/-!
# Tenants in a store

Every change to the hierarchy is a transaction of its own; lookups need a connection only.

* `insertTenant`, `moveTenant`, `repairAll`, `repairPair` — the changes.
* `prepareSchema`, `checkHealth` — before the first change.
-/

/-- Adds a tenant below `parent`. -/
def insertTenant (parent id : TenantId) : StoreWork Unit := transact (Hierarchy.insert parent id)

/-- Looks for circular references after a move was committed.  Not finding a connection for this
    is logged, and no more. -/
def scanAfterMove : StoreWork Unit :=
  tryCatch (do connect; discard <| look Hierarchy.warnOfCircularReferences)
    fun e => noteAll [.logged ⟨.warn, .store, "Skipped post-move cycle scan",
      [("error", .text e.message)]⟩]

/-- Moves a tenant with its descendants below `parent`, and looks for circular references
    afterwards if the settings ask for it. -/
def moveTenant (tenant parent : TenantId) (verbose : Bool) : StoreWork Unit := do
  transact (Hierarchy.move tenant parent verbose)
  if (← get).settings.checkCyclesAfterMove then
    scanAfterMove

/-- Repairs the whole table. -/
def repairAll : StoreWork RepairReport := transact Hierarchy.repairAll

/-- Repairs one parent edge. -/
def repairPair (tenant parent : TenantId) : StoreWork RepairReport :=
  transact (Hierarchy.repairPair tenant parent)

/-- Brings the schema up to date. -/
def prepareSchema : StoreWork Unit := look Schema.prepare

/-- The store does not answer. -/
def unavailable (detail : String) : Failure := .store (.unavailable kindName detail)

/-- Makes sure that there is a closure table to work with. -/
def checkHealth : StoreWork Unit := do
  tryCatch connect fun _ => throw (unavailable "Failed to get connection")
  match (← get).database.closure? with
  | some _ => pure ()
  | none => throw (unavailable
      ("Health check failed: " ++ (StatementFault.noTable Database.tableName).message))

/-- The number of rows seen through a connection of its own, if there is a table. -/
def countRows : StoreWork (Option Nat) := do
  connect
  pure ((← get).database.closure?.map Closure.size)

end Tenancy.Store
