import Tenancy.Cell.Sum
import Tenancy.Database.Basic
import Tenancy.Json.Scan
import Tenancy.Json.Value
import Tenancy.Text.Decimal

namespace Tenancy.Snapshot

/-!
# Databases as text

A snapshot has a line for each thing in a database: the table, its index and its rows, and the list
of versions with its entries.

* `Entry` — what a line says; `Entry.text` writes it, `Entry.ofText?` reads it.
* `Snapshot.entries`, `Snapshot.ofEntries` — a database as a list of entries, and back.
* `Snapshot.write`, `Snapshot.read?` — a database as text, and back.
-/

/-- What a line of a snapshot says. -/
inductive Entry
  | table
  | index
  | row (r : Row)
  | versions
  | version (v : Version)

namespace Entry

/-- A number in a snapshot. -/
def readNumber? (s : String) : Option Int :=
  (Text.readInt (UInt64.size / 2) (UInt64.size / 2 - 1) s.toList).toOption

/-- A depth in a snapshot, which may be a float. -/
def readDepth? (s : String) : Option Nat := (Text.readNat Cell.infinity s.toList).toOption

/-- The entry as a line. -/
def text : Entry → String
  | table => "table"
  | index => "index"
  | row r => "\t".intercalate ["row", toString r.ancestor, toString r.descendant, toString r.depth]
  | versions => "versions"
  | version (.number n) => "\t".intercalate ["number", toString n]
  | version (.text s) => "\t".intercalate ["text", Json.quote s]

/-- A text between quotes. -/
def unquote? (s : String) : Option String :=
  match s.toList with
  | '"' :: cs =>
    match Json.readString cs with
    -- the quotes end with the line
    | .ok (s, []) => some (String.ofList s)
    | _ => none
  | _ => none

/-- The entry that a line holds. -/
def ofText? (line : String) : Option Entry :=
  match line.splitOn "\t" with
  | ["table"] => some table
  | ["index"] => some index
  | ["row", a, d, k] => do
    some (row ⟨← readNumber? a, ← readNumber? d, ← readDepth? k⟩)
  | ["versions"] => some versions
  | ["number", n] => (fun n => version (.number n)) <$> readNumber? n
  | ["text", s] => (fun s => version (.text s)) <$> unquote? s
  | _ => none

end Entry

/-- The closure table, its index and its rows. -/
def tableEntries : Option ClosureTable → List Entry
  | none => []
  | some t => .table :: (if t.indexed then [.index] else []) ++ t.closure.rows.map .row

/-- The list of versions and its entries. -/
def versionEntries : Option (List Version) → List Entry
  | none => []
  | some vs => .versions :: vs.map .version

/-- Everything in a database, each thing behind what it is part of. -/
def entries (db : Database) : List Entry := tableEntries db.table ++ versionEntries db.versions

/-- Adds what an entry says to a database. -/
def add (db : Database) : Entry → Database
  | .table => { db with table := some (db.table.getD {}) }
  | .index => { db with table := db.table.map fun t => { t with indexed := true } }
  -- a row without a table before it is passed over, as is an entry without its list
  | .row r => { db with table := db.table.map fun t => { t with closure := t.closure.put r } }
  | .versions => { db with versions := some (db.versions.getD []) }
  | .version v => { db with versions := db.versions.map (· ++ [v]) }

/-- The database that a list of entries describes. -/
def ofEntries (es : List Entry) : Database := es.foldl add {}

/-- The database as text. -/
def write (db : Database) : String := String.join ((entries db).map fun e => e.text ++ "\n")

/-- The database that a text describes. -/
def read? (s : String) : Option Database :=
  ofEntries <$> ((s.splitOn "\n").filter (· ≠ "")).mapM Entry.ofText?

end Tenancy.Snapshot
