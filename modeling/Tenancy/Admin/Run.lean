import Tenancy.Admin.Answer
import Tenancy.Admin.Invocation
import Tenancy.Admin.LogFilter
import Tenancy.Store.Location
import Tenancy.Text.Lines

namespace Tenancy.Admin

/-!
# Runs of the program

A run reads the command line, opens the store, makes sure that it is healthy, and runs one command.
All that it touches is the database at one location.

* `Ending` — what a run leaves for its caller: printed lines and an exit status.
* `Invocation.run` — runs an invocation on a database.
* `Files`, `run` — a run among all databases that are kept in files.
-/

/-- How a run ends. -/
structure Ending where
  exitCode : UInt8
  output : String := ""
  /-- The lines on the error output. -/
  complaints : List String := []
deriving DecidableEq

/-- What comes of a command line. -/
inductive Outcome
  /-- It is not run. -/
  | refused (fault : UsageFault)
  | ended (e : Ending)
deriving DecidableEq

/-- What the program tells about itself. -/
def versionText : String := "tenant-admin " ++ packageVersion

namespace Outcome

/-- The status that the caller gets. -/
def exitCode : Outcome → UInt8
  | refused fault => fault.exitCode
  | ended e => e.exitCode

/-- What is printed. -/
def output : Outcome → String
  | refused .versionWanted => versionText ++ "\n"
  | refused _ => ""
  | ended e => e.output

/-- How the program is used is shown instead of an answer. -/
def showsUsage : Outcome → Bool
  | refused fault => fault ≠ .versionWanted
  | ended _ => false

/-- The lines on the error output, other than how the program is used. -/
def complaints : Outcome → List String
  | refused _ => []
  | ended e => e.complaints

end Outcome

/-! ### The error output -/

/-- Numbers the causes of a failure. -/
def numbered (start : Nat) : List String → List String
  | [] => []
  | cause :: causes => ("    " ++ toString start ++ ": " ++ cause) :: numbered (start + 1) causes

/-- The lines that tell of a failure and of what lies behind it. -/
def failureLines (message : String) (causes : List String) : List String :=
  ("Error: " ++ message) ::
    match causes with
    | [] => []
    | [cause] => ["", "Caused by:", "    " ++ cause]
    | causes => "" :: "Caused by:" :: numbered 0 causes

/-- The lines that tell of a failure met while doing something else. -/
def failureLinesWithin (context : String) (e : Failure) : List String :=
  failureLines context (e.message :: e.causes)

/-- The lines of the log that a level lets through. -/
def logLines (level : String) (trail : List Event) : List String :=
  match LogLevel.ofName? level with
  | none => []
  | some chosen =>
    ((trail.map Event.logRecord).filter fun r => chosen.shows r.level).map LogRecord.line

/-! ### One run -/

/-- A line of output, unless it is empty. -/
def printed (s : String) : String := if s.isEmpty then "" else s ++ "\n"

namespace Invocation

/-- The location of the database, if its name means any. -/
def location? (inv : Invocation) : Option Location := Location.ofName? inv.database

/-- The store that the invocation works on. -/
def store (inv : Invocation) (db : Database) : Store :=
  { path := inv.database, settings := inv.settings, database := db
    reachable := inv.location?.isSome, readOnly := inv.location?.any Location.isReadOnly
    trail := [.logged ⟨.debug, .program, "Opening tenant closure store",
      [("database", .text inv.database)]⟩] }

/-- Makes sure that the store can do the command: all but the first need a table. -/
def prepare (inv : Invocation) : StoreWork Unit :=
  if inv.command = .init then pure () else Store.checkHealth

/-- What is told when a store is not ready for a command. -/
def notReady : String := "closure table is not available; run `tenant-admin init` first"

/-- Runs the command on an open store. -/
def runOn (inv : Invocation) (s : Store) : Ending × Store :=
  match inv.prepare.run.run s with
  -- the failure is told together with what to do about it
  | (.error e, s) => (⟨1, "", failureLinesWithin notReady e⟩, s)
  | (.ok (), s) =>
    match (inv.command.run inv.verbose).run.run s with
    | (.error e, s) => (⟨1, "", failureLines e.message e.causes⟩, s)
    -- an answer that reports trouble is printed all the same
    | (.ok answer, s) =>
        (⟨if answer.success then 0 else 2, printed (answer.render inv.json), []⟩, s)

/-- Runs the invocation on a database.  Gives the database that it leaves. -/
def run (inv : Invocation) (logging : Bool) (db : Database) : Ending × Database :=
  let refusals := if logging then LogFilter.refusals inv.logLevel else []
  match inv.problems with
  -- all problems are told at once, and the database is not opened
  | p :: ps =>
    let complaints := refusals ++ (p :: ps).map ("Configuration error: " ++ ·)
    (⟨1, "", complaints.flatMap Text.lines⟩, db)
  | [] =>
    let opening := inv.store db
    let (ending, s) :=
      match opening.open? with
      | .ok s => inv.runOn s
      | .error fault =>
        (⟨1, "", failureLines ("failed to open database '" ++ inv.database ++ "'") [fault.message]⟩,
          opening)
    -- the log shares the error output with the failure, and comes before it
    let log := if logging then logLines inv.logLevel s.trail else []
    ({ ending with complaints := (log ++ ending.complaints).flatMap Text.lines }, s.database)

end Invocation

/-! ### Among all databases -/

/-- The databases that are kept in files; in a file that is missing, a fresh one. -/
def Files := FilePath → Database

namespace Files

/-- No database has been kept yet. -/
def fresh : Files := fun _ => {}

/-- The database at a location.  One that is not in a file is always fresh. -/
def get (files : Files) : Option Location → Database
  | some (.file path _) => files path
  | _ => {}

/-- Keeps a database at a location.  One that is not in a file is forgotten. -/
def set (files : Files) (location : Option Location) (db : Database) : Files :=
  match location with
  | some (.file path _) => fun p => if p = path then db else files p
  | _ => files

end Files

/-- Runs the program with the given environment variables and arguments. -/
def run (files : Files) (logging : Bool) (env : Environment) (args : List String) :
    Outcome × Files :=
  match Invocation.ofArguments? env args with
  | .error fault => (.refused fault, files)
  | .ok inv =>
    let (ending, db) := inv.run logging (files.get inv.location?)
    (.ended ending, files.set inv.location? db)

end Tenancy.Admin
