import Tenancy.Database.Basic
import Tenancy.Cell
import Tenancy.Trace

namespace Tenancy

/-!
# Work on a database

A piece of work runs statements on a database, tells about them, and may fail.  A failure does not
undo what was written before it: that is up to the transaction around the work.

* `Work` — work that gives a value or fails, and in either case leaves a database.
* `Access` — what keeps statements from writing.
* `Work.read`, `Work.execute` — a statement that reads the closure table, or changes it.
* `Work.add` — a statement that adds rows, and fails if a pair has one already.
* `Work.report`, `Work.log` — what the work tells.
-/

/-! ### Access -/

/-- How far statements can write.  A statement within a transaction leaves it to the transaction
    to deal with others. -/
inductive Access
  | free
  /-- Others read, so that a statement of its own can do its work but not keep it. -/
  | watched
  /-- Another writes, so that no statement of its own that writes can begin. -/
  | barred
  /-- The database was opened for reading only. -/
  | readOnly
deriving DecidableEq

/-- What keeps a statement that writes from beginning. -/
def Access.beginFault? : Access → Option StatementFault
  | free | watched => none
  | barred => some .locked
  | readOnly => some .readOnly

/-- What keeps a statement from writing at all. -/
def Access.writeFault? : Access → Option StatementFault
  | watched => some .locked
  | a => a.beginFault?

/-- The database that work runs on, and what it told so far. -/
structure Scope where
  database : Database
  trail : List Event := []
  access : Access := .free

/-- Work on a database. -/
abbrev Work (α : Type) := ExceptT Failure (StateM Scope) α

namespace Work

/-- Runs the work. -/
def on {α : Type} (w : Work α) (s : Scope) : Except Failure α × Scope := w.run.run s

/-- Notes an event. -/
def note (e : Event) : Work Unit := modify fun s => { s with trail := s.trail ++ [e] }

/-- Tells a diagnostic. -/
def report (d : Diagnostic) : Work Unit := note (.told d)

/-- Writes to the log. -/
def log (r : LogRecord) : Work Unit := note (.logged r)

/-- The failure of a step of the given name. -/
def failure (name : String) (fault : StatementFault) : Failure := .store (.statement name fault)

/-- Passes a statement's value on, or fails in the step of the given name. -/
def step {α : Type} (name : String) : Except StatementFault α → Work α
  | .ok a => pure a
  | .error fault => throw (failure name fault)

/-- The rows of the closure table. -/
def read (name : String) : Work Closure := do
  match (← get).database.closure? with
  | some t => pure t
  | none => step name (.error (.noTable Database.tableName))

/-- Begins a statement that writes, and may turn out to be at fault before it has written. -/
def enter (name : String) : Work Unit := do
  match (← get).access.beginFault? with
  | some fault => throw (failure name fault)
  | none => pure ()

/-- Changes the database by a statement, or fails with what `failed` makes of a fault. -/
def write (failed : StatementFault → Failure) (change : Database → Database) : Work Unit := do
  match (← get).access.writeFault? with
  | some fault => throw (failed fault)
  | none => modify fun s => { s with database := change s.database }

/-- Runs a statement on the closure table.  Gives the number of rows changed. -/
def execute (name : String) (statement : Closure → Written) : Work Nat := do
  let t ← read name
  -- a statement is done as a whole: its rows are worked out on the table as it is
  let w := statement t
  write (failure name) fun db => db.setClosure w.closure
  pure w.count

/-- Runs a statement that adds rows to the closure table.  It fails if a pair would come to have two
    of them, and then adds none.  Gives the number of rows added. -/
def add (name : String) (rows : Closure → List Row) : Work Nat := do
  let t ← read name
  enter name
  -- the constraint on pairs is looked at for all rows together, hence either all are added or none
  if t.admits (rows t) then execute name fun t => t.fill (rows t)
  else step name (.error .duplicatePair)

end Work

end Tenancy
