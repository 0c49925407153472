import Tenancy.Closure.Basic

namespace Tenancy

/-!
# The database

A database holds at most the closure table, with or without an index on it, and the list of
schema versions.  Either may be missing: a fresh database has neither.

* `Database` — what is stored.
* `Database.closure?` — the rows, if there is a table.
* `Database.objects` — the names of what exists.
-/

/-- A value in the list of schema versions. -/
inductive Version
  | number (n : Int)
  /-- A value of any other type, as it is written: none of them is a version. -/
  | text (s : String)
deriving DecidableEq

/-- The closure table together with its index by descendant, which goes when the table goes. -/
structure ClosureTable where
  closure : Closure := .empty
  indexed : Bool := false

/-- What is stored. -/
structure Database where
  table : Option ClosureTable := none
  versions : Option (List Version) := none

namespace Database

/-- The name of the closure table. -/
def tableName : String := "tenant_closure"

/-- The name of the list of schema versions. -/
def versionName : String := "schema_version"

/-- The name of the index by descendant. -/
def indexName : String := "idx_tenant_closure_descendant"

instance : Inhabited Database := ⟨{}⟩

/-- The rows, if there is a table. -/
def closure? (db : Database) : Option Closure := db.table.map ClosureTable.closure

/-- The database with other rows in its table; a missing table stays missing. -/
def setClosure (db : Database) (t : Closure) : Database :=
  { db with table := db.table.map fun c => { c with closure := t } }

/-- The names of what exists, in alphabetical order. -/
def objects (db : Database) : List String :=
  (if db.table.any ClosureTable.indexed then [indexName] else [])
    ++ (if db.versions.isSome then [versionName] else [])
    ++ (if db.table.isSome then [tableName] else [])

variable {db : Database} {t : Closure}

/-- A database with a table is left with the rows that are written to it; one without stays
    without. -/
theorem closure?_setClosure : (db.setClosure t).closure? = db.closure?.map fun _ => t := by
  cases h : db.table <;> simp [closure?, setClosure, h]

end Database

end Tenancy
