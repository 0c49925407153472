import Tenancy.Id

namespace Tenancy

/-!
# Edges

A row of the closure table as callers read it: between two tenant ids, at a depth of 32 bits.

* `Edge` — the row; `Edge.isSelf` and `Edge.isDirect` tell a tenant's own row and a parent edge.
* `Edge.sort` — edges by ancestor, then descendant, then depth.
-/

/-- `ancestor` reaches `descendant` in `depth` steps. -/
structure Edge where
  ancestor : TenantId
  descendant : TenantId
  depth : Depth
deriving DecidableEq

namespace Edge

/-- The edge by which a tenant reaches itself. -/
def selfOf (id : TenantId) : Edge := ⟨id, id, 0⟩

/-- The edge is a tenant's own edge at depth 0. -/
def isSelf (e : Edge) : Bool := e.ancestor == e.descendant && e.depth == 0

/-- The edge leads from a parent to its child. -/
def isDirect (e : Edge) : Bool := e.depth == 1

/-- The key that edges are sorted by. -/
def key (e : Edge) : List Nat := [e.ancestor.toNat, e.descendant.toNat, e.depth.toNat]

/-- Edges in ascending order. -/
def sort (edges : List Edge) : List Edge := edges.mergeSort fun e f => !f.key.lex e.key

end Edge

end Tenancy
