import Tenancy.Work
import Tenancy.Store.Kind
import Tenancy.Store.Settings

namespace Tenancy

/-!
# Stores and transactions

A store gives out connections to one database, in memory or in a file.  One connection can be on
lease to someone else, who may have a transaction open on it; this decides whether the store's own
transactions can begin and commit.

* `Store`, `StoreWork` — a store, and work that goes through its connections.
* `Store.open?` — opens a store.
* `Store.look` — work outside a transaction.
* `Store.transact` — work in a transaction: all of it is kept, or none.
-/

/-- What the holder of a leased connection does with it. -/
inductive Lease
  | idle
  /-- A transaction that reads.  Once it has seen the closure table, it goes on seeing the database
      as it was then. -/
  | reading (seen : Option Database)
  /-- A transaction that writes, and keeps all other writers out. -/
  | writing

/-- How the database file is kept consistent. -/
inductive Journal
  | memory | wal | delete
deriving DecidableEq

def Journal.name : Journal → String
  | memory => "memory"
  | wal => "wal"
  | delete => "delete"

/-- A store, its database, and what was told since its trail was last emptied. -/
structure Store where
  path : String
  /-- The place of the database can be reached; a file in a missing directory cannot. -/
  reachable : Bool := true
  /-- The database was opened for reading only. -/
  readOnly : Bool := false
  settings : Settings := {}
  database : Database := {}
  /-- The connection that someone else has on lease.  There is at most one, so that of the pools
      only those of a single connection can be used up; several leases at a time are left out. -/
  lease : Option Lease := none
  trail : List Event := []

instance : Inhabited Store := ⟨{ path := "" }⟩

/-- Work that goes through the connections of a store. -/
abbrev StoreWork (α : Type) := ExceptT Failure (StateM Store) α

/-- Why a store could not be opened. -/
inductive OpenFault
  /-- The settings leave no time to connect. -/
  | noTimeout
  | failed (e : Failure)

def OpenFault.message : OpenFault → String
  | noTimeout => "connection_timeout must be positive"
  | failed e => e.message

namespace Store

/-- The name of this kind of store, which failures carry. -/
def kindName : String := StoreKind.sqlite.name

/-- The path of a database in memory. -/
def memoryPath : String := ":memory:"

def isMemory (s : Store) : Bool := s.path == memoryPath

/-- The number of connections the store can have. -/
def slots (s : Store) : Nat := s.settings.slots s.isMemory

def journal (s : Store) : Journal :=
  if s.isMemory then .memory else if s.settings.enableWal then .wal else .delete

/-- How far a statement outside a transaction can write.  Another transaction that writes keeps it
    from beginning; one that has read keeps it from ending, without a write-ahead log. -/
def access (s : Store) : Access :=
  if s.readOnly then .readOnly
  else
    -- with a write-ahead log, and in memory, those who read keep nobody from writing
    match s.lease, s.journal with
    | some .writing, _ => .barred
    | some (.reading (some _)), .delete => .watched
    | _, _ => .free

/-- What a transaction sees that reads the closure table: nothing to go on from, without a table. -/
def sighting (db : Database) : Option Database := if db.table.isSome then some db else none

/-- Reads the closure table through the leased connection, or without one through any other.  Gives
    the database that is seen; a transaction that reads sees it from then on. -/
def view (s : Store) : Database × Store :=
  match s.lease with
  | some (.reading (some seen)) => (seen, s)
  | some (.reading none) => (s.database, { s with lease := some (.reading (sighting s.database)) })
  | _ => (s.database, s)

/-- Waiting for a connection takes too long, because of the given trouble or because all are in
    use. -/
def timedOut (trouble : Option String) : Failure :=
  .store (.connection kindName
    ("timed out waiting for connection" ++ (trouble.elim "" fun why => ": " ++ why)))

/-- Why no connection can be made, if so.  A busy timeout that is too long keeps connections from
    getting ready without anyone telling why. -/
def refusal? (s : Store) : Option Failure :=
  if Settings.longestBusyTimeout < s.settings.busyTimeout.toNat then some (timedOut none)
  else if !s.reachable then some (timedOut (some ("unable to open database file: " ++ s.path)))
  else none

/-- Notes that the store was opened. -/
def opened (s : Store) : Store :=
  { s with trail := s.trail ++ [.logged ⟨.debug, .store, "Opened SQLite tenant closure store",
      [("path", .text s.path), ("is_memory", .flag s.isMemory), ("max_size", .number s.slots)]⟩] }

/-- Opens a store. -/
def open? (s : Store) : Except OpenFault Store :=
  if s.settings.connectionTimeout = 0 then .error .noTimeout
  else
    match s.refusal? with
    | some e => if s.settings.eager s.isMemory then .error (.failed e) else .ok s.opened
    | none => .ok s.opened

/-- Closes a store and opens it again.  What was in memory is gone. -/
def reopen? (s : Store) : Except OpenFault Store :=
  open? { s with database := if s.isMemory then {} else s.database, lease := none }

/-! ### Connections -/

/-- Takes a connection for a moment. -/
def connect : StoreWork Unit := do
  let s ← get
  match s.refusal? with
  | some e => throw e
  -- one connection is on lease at most, so that a second slot is free whenever there is one
  | none => if s.lease.isSome ∧ s.slots ≤ 1 then throw (timedOut none) else pure ()

/-- Leases a connection to someone. -/
def hold (lease : Lease) : StoreWork Unit := do
  connect
  modify fun s => { s with lease := some lease }

/-- Leases a connection to someone who begins a transaction on it and reads the closure table. -/
def holdReading : StoreWork Unit := do
  hold (.reading none)
  modify fun s => s.view.2

/-- Takes a leased connection back; what its holder had begun is undone. -/
def release : StoreWork Unit := modify fun s => { s with lease := none }

/-- Adds to what was told. -/
def noteAll (events : List Event) : StoreWork Unit :=
  modify fun s => { s with trail := s.trail ++ events }

/-- Passes on what work came to. -/
def conclude {α : Type} (r : Except Failure α) : StoreWork α :=
  match r with
  | .ok a => pure a
  | .error e => throw e

/-- Runs work outside a transaction: what it writes stays even if it fails. -/
def look {α : Type} (w : Work α) : StoreWork α := do
  connect
  let s ← get
  let (r, scope) := w.on { database := s.database, access := s.access }
  -- what was written before a failure stays: no transaction takes it back
  set { s with database := scope.database }
  noteAll scope.trail
  conclude r

/-! ### Transactions -/

/-- A transaction did not begin or commit because of another one. -/
def lockedOut (action : String) : Failure :=
  .store (.transaction
    ("failed to " ++ action ++ " transaction: " ++ StatementFault.locked.message))

/-- Begins a transaction that writes; gives the scope of its work. -/
def begin : StoreWork Scope := do
  connect
  let s ← get
  match s.lease with
  | some .writing => throw (lockedOut "begin")
  -- those who read are in the way of the commit only
  | _ => pure { database := s.database, access := if s.readOnly then .readOnly else .free }

/-- Keeps what a transaction wrote.  Without a write-ahead log this has to wait for those who have
    read. -/
def commit (written : Database) : StoreWork Unit := do
  let s ← get
  if s.access = .watched then throw (lockedOut "commit")
  else set { s with database := written }

/-- Runs work in a transaction: the database changes only if the work succeeds and can be
    committed.  What was told is told in any case. -/
def transact {α : Type} (w : Work α) : StoreWork α := do
  let (r, scope) := w.on (← begin)
  noteAll scope.trail
  -- a failure of the work ends here, with the database of before still in place
  let a ← conclude r
  commit scope.database
  pure a

end Store

end Tenancy
