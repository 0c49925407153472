import Tenancy.Closure.Kinship

namespace Tenancy

/-!
# Statements of a move

A move takes a subtree from its old ancestors and joins it to new ones.  Rows between two members
of the subtree are left alone, and so are rows that already have the depth that the new place
gives them.

* `Closure.detach` — deletes the rows that lead into the subtree from outside.
* `Closure.dropOtherParents` — deletes parent edges into the subtree's top.
* `Closure.attach` — joins every new ancestor to every member of the subtree.
-/

namespace Closure

variable (t : Closure)

/-- The ancestors that `parent` will bring along.  The id 0 stands for no parent: it adds nothing
    but what rows ending at 0 say. -/
def ancestry (parent : Int) : List Kin :=
  if parent = 0 then t.above 0 else t.supertree parent

/-- Deletes the rows that join the subtree of `tenant` to ancestors outside it, apart from those
    that have just the depth they will get under `parent`. -/
def detach (tenant parent : Int) : Written :=
  let sub := t.subtree tenant
  -- rows that attaching would write anyway are kept, so that they do not count as deleted and
  -- written
  let kept := links (t.ancestry parent) sub
  let inside (n : Int) : Bool := sub.any fun m => m.id == n
  t.remove fun r => inside r.descendant && !inside r.ancestor && !kept.contains r

/-- Deletes the parent edges into `tenant` that do not come from `parent`. -/
def dropOtherParents (tenant parent : Int) : Written :=
  t.remove fun r => r.descendant == tenant && r.depth == 1 && r.ancestor != parent

/-- Joins `parent` and its ancestors to `tenant` and its descendants, keeping rows that are as
    short. -/
def attach (tenant parent : Int) : Written :=
  t.shorten (links (t.supertree parent) (t.subtree tenant))

end Closure

end Tenancy
