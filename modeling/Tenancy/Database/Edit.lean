import Tenancy.Cell.Numeral
import Tenancy.Work

namespace Tenancy.Edit

/-!
# Editing rows by hand

Single rows can be written past all rules of the hierarchy; only the constraints of the table itself
hold: one row for each pair, and no depth below zero.  A list of rows is written one by one, and
what was written before a refused row stays.

* `Edit.insertRows`, `Edit.replaceRows` — add rows; the latter over rows of the same pair.
* `Edit.deletePairs`, `Edit.deleteDeeper` — delete rows.
* `Edit.setVersions`, `Edit.drop` — change the schema's objects.
-/

/-- A row as it is given by hand: its depth may be one that the table refuses. -/
structure Entry where
  ancestor : Int
  descendant : Int
  depth : Int

/-- Something that can be dropped. -/
inductive Object
  | closure | index | version
deriving DecidableEq

/-- The step that editing by hand is. -/
def stepName : String := "sqlite"

/-- The row of an entry, unless its depth is refused. -/
def Entry.row? (e : Entry) : Except StatementFault Row :=
  if 0 ≤ e.depth then .ok ⟨e.ancestor, e.descendant, e.depth.toNat⟩ else .error .negativeDepth

/-- Adds one row. -/
def insertRow (e : Entry) : Work Unit := do
  let t ← Work.read stepName
  -- a statement that may not write fails before its row is looked at
  Work.enter stepName
  let r ← Work.step stepName e.row?
  if t.lacks r then
    discard <| Work.execute stepName fun t => ⟨t.put r, 1⟩
  else
    Work.step stepName (.error .duplicatePair)

/-- Writes one row, over the row of its pair. -/
def replaceRow (e : Entry) : Work Unit := do
  discard <| Work.read stepName
  Work.enter stepName
  let r ← Work.step stepName e.row?
  discard <| Work.execute stepName fun t => ⟨t.put r, 1⟩

/-- Adds rows one by one; gives their number. -/
def insertRows (entries : List Entry) : Work Nat := do
  entries.forM insertRow
  pure entries.length

/-- Writes rows one by one; gives their number. -/
def replaceRows (entries : List Entry) : Work Nat := do
  entries.forM replaceRow
  pure entries.length

/-- Deletes the row of each pair in turn; gives the number of rows deleted. -/
def deletePairs (pairs : List Pair) : Work Nat := do
  let counts ← pairs.mapM fun p => Work.execute stepName fun t => t.remove fun r => r.pair == p
  pure (counts.foldl (· + ·) 0)

/-- Deletes the rows that are deeper than `depth`. -/
def deleteDeeper (depth : Int) : Work Nat :=
  Work.execute stepName fun t => t.remove fun r => decide (depth < r.depth)

/-- A text that is a number is kept as that number if it is whole and fits 64 bits. -/
def storedVersion : Version → Version
  | .number n => .number n
  | .text s => (Cell.wholeNumber? s.toList).elim (.text s) .number

/-- Replaces the list of versions, which is created if it is missing. -/
def setVersions (versions : List Version) : Work Nat := do
  Work.write (Work.failure stepName) fun db =>
    { db with versions := some (versions.map storedVersion) }
  pure versions.length

/-- Drops a table or the index. -/
def drop (o : Object) : Work Nat := do
  let db := (← get).database
  -- dropping what is missing is a failure of its own
  match o, db.table, db.versions with
  | .closure, some _, _ => Work.write (Work.failure stepName) fun db => { db with table := none }
  | .closure, none, _ => Work.step stepName (.error (.noTable Database.tableName))
  | .index, some ⟨t, true⟩, _ =>
    Work.write (Work.failure stepName) fun db => { db with table := some ⟨t, false⟩ }
  | .index, _, _ => Work.step stepName (.error (.noIndex Database.indexName))
  | .version, _, some _ => Work.write (Work.failure stepName) fun db => { db with versions := none }
  | .version, _, none => Work.step stepName (.error (.noTable Database.versionName))
  pure 0

end Tenancy.Edit
