import Tenancy.Closure.Basic
import Tenancy.Cell.Sum

namespace Tenancy

/-!
# Ancestors and descendants of one id

The rows around a single id, read as lists of ids with their distance.  A subtree and a supertree
always hold their own id at distance 0, whether or not the table has its self row.

* `Closure.below`, `Closure.above` — what the rows from, or to, an id reach.
* `Closure.subtree`, `Closure.supertree` — the same together with the id itself.
* `Closure.links` — the rows that join every member of a supertree to every member of a subtree.
-/

/-- An id, and how many levels away from some other id it lies. -/
structure Kin where
  id : Int
  depth : Nat
deriving DecidableEq, Repr

namespace Closure

variable (t : Closure)

/-- The descendants of `n` that the rows name, in ascending order. -/
def below (n : Int) : List Kin :=
  (t.rows.filter fun r => r.ancestor == n).map fun r => ⟨r.descendant, r.depth⟩

/-- The ancestors of `n` that the rows name, in ascending order. -/
def above (n : Int) : List Kin :=
  (t.rows.filter fun r => r.descendant == n).map fun r => ⟨r.ancestor, r.depth⟩

/-- `kin` with `n` at distance 0 in front, unless it is listed so already. -/
def anchor (n : Int) (kin : List Kin) : List Kin :=
  if kin.contains ⟨n, 0⟩ then kin else ⟨n, 0⟩ :: kin

/-- `n` and its descendants. -/
def subtree (n : Int) : List Kin := anchor n (t.below n)

/-- `n` and its ancestors. -/
def supertree (n : Int) : List Kin := anchor n (t.above n)

end Closure

/-- The rows that put everything in `sub` under everything in `sup`, with one level between the
    two ids that `sup` and `sub` are measured from. -/
def Closure.links (sup sub : List Kin) : List Row :=
  sup.flatMap fun s => sub.map fun m => ⟨s.id, m.id, Cell.link s.depth m.depth⟩

end Tenancy
