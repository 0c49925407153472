import Tenancy.Closure.Kinship

namespace Tenancy

/-!
# Statements that add one parent edge

A new leaf and a re-established parent edge both copy the rows of the parent's ancestors, one level
deeper; they differ in what they do with rows that are there already.

* `Closure.inheritedRows`, `Closure.missingRows` — the rows to copy: all of them, or those that the
  child lacks.
* `Closure.plant` — the self row of an id, unless it is there.
* `Closure.direct` — the parent edge itself, never over a row that is as short.
* `Closure.inherit` — the ancestors of the parent that the child lacks.
-/

namespace Closure

variable (t : Closure)

/-- The rows of the proper ancestors of `parent`, one level deeper and ending at `child`. -/
def inheritedRows (parent child : Int) : List Row :=
  ((t.above parent).filter fun s => s.id != parent).map fun s =>
    ⟨s.id, child, Cell.sum s.depth 1⟩

/-- Of these rows, those that lead to `child` from another id that has no row to it yet. -/
def missingRows (parent child : Int) : List Row :=
  -- a child above its own parent would be offered itself
  (t.inheritedRows parent child).filter fun r => r.ancestor != child && t.lacks r

/-- Adds the self row of `leaf`, unless it is there. -/
def plant (leaf : Int) : Written := t.fill [.self leaf]

/-- Adds the row from `parent` to `child` at depth 1, or lowers it to that depth. -/
def direct (parent child : Int) : Written := t.shorten [⟨parent, child, 1⟩]

/-- Gives `child` the proper ancestors of `parent` for which it has no row, one level deeper. -/
def inherit (parent child : Int) : Written :=
  t.fill ((t.inheritedRows parent child).filter fun r => r.ancestor != child)

end Closure

end Tenancy
