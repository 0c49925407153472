import Tenancy.Work

namespace Tenancy.Schema

/-!
# The schema and its versions

The first entry in the list of versions tells how far the schema has come.  Preparing the schema
creates what is missing step by step; this never touches a closure row, and can be repeated after it
was interrupted.  Where statements cannot write, the first step that has to write fails.

* `Schema.latest` — the version that this library works with.
* `Schema.createVersions`, `Schema.createTable`, `Schema.createIndex`, `Schema.clearVersions`,
  `Schema.addVersion` — the statements, each of which is done as a whole.
* `Schema.prepare` — brings the schema to the latest version.
-/

/-- The version that preparing the schema leads to. -/
def latest : Int := 2

/-- A migration does not come to its end. -/
def refuse {α : Type} (reason : String) : Work α := throw (.store (.migration reason))

/-- A migration cannot do a step because of a fault. -/
def failed (what : String) (fault : StatementFault) : Failure :=
  .store (.migration ("Failed to " ++ what ++ ": " ++ fault.message))

/-- The version in a list of versions: the first entry if it is a number of 32 bits, otherwise 0. -/
def current : List Version → Int
  -- a text, or a number out of range, counts as no version at all
  | .number n :: _ => if -0x80000000 ≤ n ∧ n < 0x80000000 then n else 0
  | _ => 0

/-- Creates the list of versions if it is missing. -/
def createVersions : Work Unit := do
  if (← get).database.versions.isNone then
    Work.write (failed "create schema_version table") fun db => { db with versions := some [] }

/-- Reads the version, from a list that is created if it is missing. -/
def version : Work Int := do
  createVersions
  pure (current ((← get).database.versions.getD []))

/-- Empties the list of versions. -/
def clearVersions : Work Unit :=
  Work.write (failed "clear schema_version") fun db => { db with versions := some [] }

/-- Adds a number to the list of versions. -/
def addVersion (n : Int) : Work Unit :=
  Work.write (failed "set schema_version") fun db =>
    { db with versions := some (db.versions.getD [] ++ [.number n]) }

/-- Makes `n` the only entry in the list of versions. -/
def setVersion (n : Int) : Work Unit := do
  clearVersions
  addVersion n

/-- Creates the closure table if it is missing. -/
def createTable : Work Unit := do
  if (← get).database.table.isNone then
    Work.write (failed "create tenant_closure table") fun db => { db with table := some {} }

/-- Creates the index by descendant if it is missing. -/
def createIndex : Work Unit := do
  match (← get).database.table with
  | some c =>
    if !c.indexed then
      Work.write (failed "create descendant index") fun db =>
        { db with table := some { c with indexed := true } }
  | none =>
    throw (failed "create descendant index" (.noTable ("main." ++ Database.tableName)))

/-- Brings a schema of a version other than 0 and below the latest one up to date.  Only version 1
    has a way to the next. -/
def migrate (n : Int) : Work Unit := do
  if n = 1 then
    -- the version comes last, so that a migration that was interrupted is done again
    createIndex
    setVersion latest
    Work.log ⟨.debug, .schema, "Applied tenant closure schema migration",
      [("version", .number latest.toNat)]⟩
  else
    refuse ("No migration path from schema version " ++ toString n)

/-- Brings the schema to the latest version. -/
def prepare : Work Unit := do
  let n ← version
  -- a fresh database is brought to the first version, and goes on from there like an old one
  if n = 0 then
    createTable
    setVersion 1
    migrate 1
  else if n < latest then
    migrate n
  else
    pure ()

end Tenancy.Schema
