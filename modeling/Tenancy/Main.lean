import Tenancy.Admin.Run
import Tenancy.Database.Snapshot

namespace Tenancy.Admin

/-!
# The program

Reads the database that the command line names, runs the command, and writes back what has changed.
A database is kept as a snapshot; a missing file is a fresh database.  The log is written to the
error output unless the environment variable `TENANT_ADMIN_LOG` is set to `off`.
-/

/-- The name of a file as text. -/
def fileName (path : FilePath) : IO String :=
  match path.text? with
  | some name => pure name
  | none => throw (IO.userError "the path of the database is not text")

/-- The database in a file. -/
def loadDatabase (path : String) : IO Database := do
  let text ← try IO.FS.readFile path catch _ => pure ""
  match Snapshot.read? text with
  | some db => pure db
  | none => throw (IO.userError ("not a tenant database: " ++ path))

/-- Keeps a database in a file, unless the file holds the same already. -/
def saveDatabase (path : String) (before after : Database) : IO Unit :=
  if Snapshot.write before = Snapshot.write after then pure ()
  else IO.FS.writeFile path (Snapshot.write after)

/-- How the program is used. -/
def usageLines : List String :=
  ["Usage: tenant-admin [OPTIONS] COMMAND [ARGUMENTS]", "",
   "Options: " ++ ", ".intercalate (grammar.switches.map fun o => "--" ++ o.long),
   "Commands: " ++ ", ".intercalate grammar.commands]

/-- Prints what comes of a command line. -/
def printOutcome (outcome : Outcome) : IO Unit := do
  outcome.complaints.forM fun line => IO.eprintln line
  match outcome with
  | .refused fault =>
    if outcome.showsUsage then
      ((fault.message ++ "\n") :: usageLines).forM fun line => IO.eprintln line
  | .ended _ => pure ()
  IO.print outcome.output

/-- Runs the program on the database that the arguments name. -/
def runProgram (args : List String) : IO UInt32 := do
  let values ← Setting.all.mapM fun o => do pure (o.variableName, ← IO.getEnv o.variableName)
  let env : Environment := fun name => (values.lookup name).join
  let logging := (← IO.getEnv "TENANT_ADMIN_LOG") ≠ some "off"
  let path := (Invocation.ofArguments? env args).toOption.bind Invocation.location?
    |>.bind Location.path?
  match path with
  | some path =>
    let name ← fileName path
    let db ← loadDatabase name
    let (outcome, files) := run (fun _ => db) logging env args
    saveDatabase name db (files path)
    printOutcome outcome
    pure outcome.exitCode.toUInt32
  | none =>
    let (outcome, _) := run .fresh logging env args
    printOutcome outcome
    pure outcome.exitCode.toUInt32

end Tenancy.Admin

def main (args : List String) : IO UInt32 := Tenancy.Admin.runProgram args
