import Tenancy.Hierarchy.Change
import Tenancy.Closure.Completion

namespace Tenancy.Hierarchy

/-!
# Repairing the table

Repairs add rows and lower depths; they never delete a row, so that no tenant loses an ancestor that
it has, not even a wrong one.

* `repairAll` — completes the whole table.
* `repairPair` — re-establishes one parent edge and what follows from it for the child itself.
-/

/-- Runs the passes of a repair, each with its entry in the log. -/
def runPasses : Work (List Pass) := do
  let t ← Work.read "complete transitive edges"
  -- the passes are worked out in one go, and their outcome is written as one statement
  let (u, passes) := t.saturate
  discard <| Work.execute "minimize depths" fun _ => ⟨u, 0⟩
  (passes.zipIdx 1).forM fun (pass, i) =>
    Work.log ⟨.debug, .repair, "Closure repair pass",
      [("pass", .number i), ("inserted", .number pass.inserted), ("lowered", .number pass.lowered)]⟩
  pure passes

/-- Gives every mentioned id its self row, at depth 0, and then adds and lowers rows until any two
    that meet are no shorter together than the row that they stand for. -/
def repairAll : Work RepairReport := do
  let selfEdges ← Work.execute "insert missing self edges" fun t => t.fill t.selfRows
  let reset ← Work.execute "reset self edge depths" fun t => t.lower t.selfRows
  let passes ← runPasses
  let report : RepairReport := {
    selfEdgesInserted := selfEdges
    transitiveEdgesInserted := passes.foldl (fun n pass => n + pass.inserted) 0
    depthsLowered := reset + passes.foldl (fun n pass => n + pass.lowered) 0
    passes := passes.length }
  Work.report (.repairCompleted report)
  pure report

/-- Makes `parent` a parent of `tenant`, and gives the tenant the ancestors of the parent that it
    lacks.  Rows that are there stay, except that a longer row from the parent is shortened. -/
def repairPair (tenant parent : TenantId) : Work RepairReport := do
  requireTenant "tenant_id" tenant
  requireTenant "parent_id" parent
  if tenant = parent then
    throw (.invalid (.ownParent tenant))
  if (← depthBetween tenant parent).isSome then
    throw (.conflict (.circular tenant parent))
  let parentSelf ← Work.execute "insert missing self edge" (·.plant parent.cell)
  let tenantSelf ← Work.execute "insert missing self edge" (·.plant tenant.cell)
  -- asked for before the edge is written: an edge that was there counts as lowered, not as added
  let existing ← depthBetween parent tenant
  let written ← Work.execute "write direct parent edge" (·.direct parent.cell tenant.cell)
  -- the ancestors of the child's own descendants are left alone: only the child gains rows
  let inherited ← Work.add "back-fill inherited ancestor edges"
    (·.missingRows parent.cell tenant.cell)
  let report : RepairReport := {
    selfEdgesInserted := parentSelf + tenantSelf
    transitiveEdgesInserted := (if existing.isNone then written else 0) + inherited
    depthsLowered := if existing.isSome then written else 0
    passes := 1 }
  Work.log ⟨.debug, .repair, "Repaired tenant parent edge",
    [("tenant_id", .ofId tenant), ("parent_id", .ofId parent),
     ("rows_changed", .number report.changed)]⟩
  Work.report (.repairCompleted report)
  pure report

end Tenancy.Hierarchy
