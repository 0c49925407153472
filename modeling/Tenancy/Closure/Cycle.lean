import Tenancy.Closure.Basic

namespace Tenancy

/-!
# Mutual ancestors

Two different ids that each have a row to the other lie on a cycle.

* `Closure.mutualIds` — the ids that have such a partner, in ascending order.
-/

namespace Closure

/-- There is a row from `a` to `d`. -/
def joins (t : Closure) (a d : Int) : Bool := (t.depth? a d).isSome

/-- The ids that reach, and are reached from, some other id, in ascending order. -/
def mutualIds (t : Closure) : List Int :=
  -- a set, since an id can have more than one such partner
  (Std.ExtTreeSet.ofList ((t.rows.filter fun r =>
    r.ancestor != r.descendant && t.joins r.descendant r.ancestor).map Row.ancestor)).toList

end Closure

end Tenancy
