import Std.Data.ExtTreeMap
import Std.Data.ExtTreeSet

namespace Tenancy

/-!
# The closure table

A closure table holds, for each pair of an ancestor and a descendant, how many levels lie between
them.  Each pair occurs at most once.  Ids are kept as the signed numbers that the table's cells
hold, so that rows with an id of zero or below, which no tenant owns, can be talked about too.  A
depth is a whole number up to the largest one of a cell, or it is a float beyond that, as sums that
do not fit a cell leave it (see `Cell.sum`).  Cells of other types are left out.

* `Closure` — the rows, as a finite map from pairs to depths; two closures with the same rows
  are equal.
* `Closure.depth?` — the view that every other operation is described by.
* `Closure.rows` — the rows, ordered by ancestor and then by descendant.
* `Closure.fill`, `Closure.shorten`, `Closure.lower`, `Closure.remove` — statements: each takes a
  list of rows, or a condition on rows, and counts the rows it changed.
* `Closure.admits` — the rows of a list are new, and each for a pair of its own.
-/

/-- An ancestor and one of its descendants. -/
structure Pair where
  ancestor : Int
  descendant : Int
deriving DecidableEq, Repr

/-- Pairs are ordered by ancestor, then by descendant. -/
instance : Ord Pair := ⟨compareLex (compareOn Pair.ancestor) (compareOn Pair.descendant)⟩

instance : Std.TransOrd Pair := inferInstanceAs (Std.TransCmp (compareLex _ _))

instance : Std.LawfulEqOrd Pair where
  eq_of_compare {p q} h := by
    have h : (compare p.ancestor q.ancestor).then (compare p.descendant q.descendant) = .eq := h
    rw [Ordering.then_eq_eq, Std.compare_eq_iff_eq, Std.compare_eq_iff_eq] at h
    cases p; cases q; simp_all

/-- One row: `ancestor` lies `depth` levels above `descendant`.  A depth beyond the largest number
    of a cell stands for a float. -/
structure Row where
  ancestor : Int
  descendant : Int
  depth : Nat
deriving DecidableEq, Repr

namespace Row

/-- The two ends of a row. -/
def pair (r : Row) : Pair := ⟨r.ancestor, r.descendant⟩

/-- The row that says that `n` reaches itself. -/
def self (n : Int) : Row := ⟨n, n, 0⟩

end Row

/-- The rows of a closure table, at most one for each pair. -/
structure Closure where
  depths : Std.ExtTreeMap Pair Nat

/-- The outcome of a statement: the table it leaves and the number of rows it changed. -/
structure Written where
  closure : Closure
  count : Nat

namespace Closure

/-- The table without rows. -/
def empty : Closure := ⟨∅⟩

instance : Inhabited Closure := ⟨empty⟩

/-- The depth of the row from `a` to `d`, if there is one. -/
def depth? (t : Closure) (a d : Int) : Option Nat := t.depths[Pair.mk a d]?

instance : Membership Row Closure := ⟨fun t r => t.depth? r.ancestor r.descendant = some r.depth⟩

/-- The rows, ordered by ancestor and then by descendant. -/
def rows (t : Closure) : List Row :=
  t.depths.toList.map fun (p, k) => ⟨p.ancestor, p.descendant, k⟩

/-- The number of rows. -/
def size (t : Closure) : Nat := t.depths.size

/-- Writes a row, over any row for the same pair. -/
def put (t : Closure) (r : Row) : Closure := ⟨t.depths.insert r.pair r.depth⟩

/-- The ids that some row mentions, in ascending order. -/
def ids (t : Closure) : Std.ExtTreeSet Int :=
  Std.ExtTreeSet.ofList (t.rows.flatMap fun r => [r.ancestor, r.descendant])

/-- Some row mentions `n`. -/
def mentions (t : Closure) (n : Int) : Bool :=
  t.rows.any fun r => r.ancestor == n || r.descendant == n

/-! ### Conditions under which a statement writes a row -/

/-- There is no row for the pair of `r`. -/
def lacks (t : Closure) (r : Row) : Bool := (t.depth? r.ancestor r.descendant).isNone

/-- There is a row for the pair of `r`, and it is strictly deeper than `r`. -/
def exceeds (t : Closure) (r : Row) : Bool :=
  (t.depth? r.ancestor r.descendant).any (r.depth < ·)

/-! ### Statements -/

/-- Offers one row to a statement under way: it is written, and counted, if `accepts` lets it
    pass, given the table as it is by then. -/
def offer (accepts : Closure → Row → Bool) (w : Written) (r : Row) : Written :=
  if accepts w.closure r then ⟨w.closure.put r, w.count + 1⟩ else w

/-- Offers the rows of a list in order. -/
def write (accepts : Closure → Row → Bool) (t : Closure) (rows : List Row) : Written :=
  rows.foldl (offer accepts) ⟨t, 0⟩

/-- Adds the rows whose pair has none yet. -/
def fill (t : Closure) (rows : List Row) : Written := t.write lacks rows

/-- All rows of a list can be added, one after the other: no pair would come to have two of them. -/
def admits (t : Closure) (rows : List Row) : Bool := (t.fill rows).count == rows.length

/-- Lowers the rows that are strictly deeper than the given ones; adds none. -/
def lower (t : Closure) (rows : List Row) : Written := t.write exceeds rows

/-- Adds the rows whose pair has none yet and lowers those that are strictly deeper. -/
def shorten (t : Closure) (rows : List Row) : Written :=
  t.write (fun t r => t.lacks r || t.exceeds r) rows

/-- Deletes the rows that satisfy `gone`. -/
def remove (t : Closure) (gone : Row → Bool) : Written :=
  ⟨⟨t.depths.filter fun p k => !gone ⟨p.ancestor, p.descendant, k⟩⟩, t.rows.countP gone⟩

/-- For each pair among `rows`, the least depth it is given there. -/
def shortest (rows : List Row) : Closure :=
  (empty.shorten rows).closure

end Closure

end Tenancy
