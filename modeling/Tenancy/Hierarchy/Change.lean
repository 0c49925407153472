import Tenancy.Hierarchy.Lookup
import Tenancy.Closure.Growth
import Tenancy.Closure.Reattachment

namespace Tenancy.Hierarchy

/-!
# Changing the hierarchy

A tenant is added as a leaf, and a subtree is moved to another parent.  Both refuse what does not
fit the hierarchy before they write anything.  The id 0 as the parent stands for no parent.

* `insert` — adds a tenant.
* `move` — moves a tenant with all its descendants.
-/

/-- Refuses an id that fits no cell. -/
def requireStorable (field : String) (id : TenantId) : Work Unit :=
  if id.Storable then pure () else throw (.invalid (.tooLarge field id))

/-- Refuses an id that cannot name a tenant. -/
def requireTenant (field : String) (id : TenantId) : Work Unit :=
  if id = .root then throw (.invalid (.zero field)) else requireStorable field id

/-- Refuses a parent that the table does not mention. -/
def requireParent (parent : TenantId) : Work Unit := do
  if parent ≠ .root then
    if !(← isPresent parent) then
      throw (.conflict (.parentAbsent parent))

/-- Adds the tenant `id` below `parent`. -/
def insert (parent id : TenantId) : Work Unit := do
  requireTenant "new_id" id
  requireStorable "parent_id" parent
  if parent = id then
    throw (.invalid (.ownParent id))
  -- the ids are looked at before the table, so that a bad id is refused on any table
  if ← isPresent id then
    throw (.conflict (.present id))
  -- the id is new by now, so that no row is in the way of those added below
  requireParent parent
  discard <| Work.add "insert self edge" fun _ => [.self id.cell]
  if parent = .root then
    Work.log ⟨.debug, .insertion, "Inserted root tenant", [("tenant_id", .ofId id)]⟩
  else
    discard <| Work.add "insert parent edge" fun _ => [⟨parent.cell, id.cell, 1⟩]
    let inherited ← Work.add "insert inherited ancestor edges" (·.inheritedRows parent.cell id.cell)
    Work.log ⟨.debug, .insertion, "Inserted tenant closure rows",
      [("tenant_id", .ofId id), ("parent_id", .ofId parent), ("inherited", .number inherited)]⟩

/-- Refuses a parent that is the tenant itself or one of its descendants. -/
def refuseCycle (tenant parent : TenantId) : Work Unit := do
  if parent = tenant then
    throw (.conflict (.circular tenant parent))
  if (← depthBetween tenant parent).isSome then
    throw (.conflict (.circular tenant parent))

/-- Tells what a move is about to join. -/
def plan (tenant parent : TenantId) : Work Unit := do
  let sub ← subtree tenant
  let sup ← supertree parent
  Work.report (.movePlanned tenant parent sub sup)

/-- Joins a detached subtree to `parent`; gives the number of rows written.  Should the parent edge
    be missing after that, it is written and told of. -/
def attach (tenant parent : TenantId) : Work Nat := do
  let upserted ← Work.execute "attach subtree to new ancestors" (·.attach tenant.cell parent.cell)
  -- never otherwise behind the guard of a move, which keeps the parent out of the subtree
  if (← depthBetween parent tenant) = some 1 then
    pure upserted
  else
    let written ← Work.execute "write direct parent edge" (·.direct parent.cell tenant.cell)
    Work.report (.directEdgeRepaired tenant parent)
    pure (upserted + written)

/-- Moves the tenant `tenant` with its descendants below `parent`; a verbose move tells its plan
    before it writes. -/
def move (tenant parent : TenantId) (verbose : Bool) : Work Unit := do
  requireTenant "tenant_id" tenant
  requireStorable "new_parent_id" parent
  if parent ≠ .root then
    refuseCycle tenant parent
  if !(← isPresent tenant) then
    throw (.conflict (.absent tenant))
  requireParent parent
  -- the plan is told before the first write; a plan that cannot be read stops the move
  if verbose then
    plan tenant parent
  let detached ← Work.execute "detach subtree from old ancestors"
    (·.detach tenant.cell parent.cell)
  let dropped ← Work.execute "delete old parent edge" (·.dropOtherParents tenant.cell parent.cell)
  let upserted ← if parent = .root then pure 0 else attach tenant parent
  Work.report (.moveApplied tenant parent (detached + dropped) upserted)

end Tenancy.Hierarchy
