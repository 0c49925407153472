import Tenancy.Admin.Command
import Tenancy.Store.Settings
import Tenancy.Trace

namespace Tenancy.Admin

/-!
# Invocations

An invocation is a command with the options of the program.  An option that is missing on the
command line is looked for among the environment variables, and then has its default.

* `Invocation` — what the program was asked for; `Invocation.ofArguments?` reads it.
* `Invocation.problems` — all that is wrong with it, in words for the user.
* `Invocation.settings` — the settings of the store that it works on.
-/

/-- A command, and how it is to be run. -/
structure Invocation where
  database : String
  logLevel : String
  busyTimeout : UInt32
  verbose : Bool
  json : Bool
  skipCycleCheck : Bool
  command : Command
deriving DecidableEq

/-! ### Options -/

/-- The busy timeout that a text gives, in milliseconds: a number with or without a sign. -/
def readTimeout? (s : String) : Option UInt32 :=
  match Text.readInt (UInt64.size / 2) (UInt64.size / 2 - 1) s.toList with
  | .ok n => if 0 ≤ n ∧ n < UInt32.size then some (.ofNat n.toNat) else none
  | .error _ => none

/-- An option of the program that takes a value. -/
structure Setting where
  name : String
  short : Option Char := none
  variableName : String
  default : String
  admits : String → Bool := fun _ => true

/-- The values of the environment variables that are set. -/
abbrev Environment := String → Option String

namespace Setting

def database : Setting where
  name := "database"
  short := some 'd'
  variableName := "TENANT_ADMIN_DATABASE"
  default := "tenants.db"

def logLevel : Setting where
  name := "log-level"
  variableName := "TENANT_ADMIN_LOG_LEVEL"
  default := "info"

def busyTimeout : Setting where
  name := "busy-timeout-ms"
  variableName := "TENANT_ADMIN_BUSY_TIMEOUT_MS"
  default := "5000"
  admits s := (readTimeout? s).isSome

/-- Every option of the program that takes a value. -/
def all : List Setting := [database, logLevel, busyTimeout]

/-- The option on the command line. -/
def switch (o : Setting) : Switch := ⟨o.name, o.short, .take o.admits⟩

/-- Takes the value of an environment variable unless the command line gives one. -/
def complete (env : Environment) (s : Intake) (o : Setting) :
    Except UsageFault Intake :=
  match s.value? o.name, env o.variableName with
  | none, some value => s.add o.name value o.admits
  | _, _ => .ok s

/-- The value of the option. -/
def valueIn (s : Intake) (o : Setting) : String := (s.value? o.name).getD o.default

end Setting

/-- The command lines of the program, up to the name of a command. -/
def grammar : Grammar where
  switches := Setting.all.map Setting.switch ++
    [⟨"verbose", some 'v', .mark⟩, ⟨"json", none, .mark⟩, ⟨"skip-cycle-check", none, .mark⟩,
     helpSwitch, ⟨"version", some 'V', .version⟩]
  commands := Command.helpName :: Command.names

namespace Invocation

/-- The invocation with the given options. -/
def ofIntake (s : Intake) (command : Command) : Invocation where
  database := Setting.database.valueIn s
  logLevel := Setting.logLevel.valueIn s
  busyTimeout := (readTimeout? (Setting.busyTimeout.valueIn s)).getD 0
  verbose := (s.value? "verbose").isSome
  json := (s.value? "json").isSome
  skipCycleCheck := (s.value? "skip-cycle-check").isSome
  command := command

/-- Reads a command line.  What is wrong with the arguments of the command comes before what is
    wrong with the last value ahead of it. -/
def ofArguments? (env : Environment) (args : List String) :
    Except UsageFault Invocation := do
  let (s, found) ← grammar.scan false { operands := [] } args
  let command ← found.mapM fun (name, rest) => Command.ofArguments? name rest
  let s ← s.settle
  let s ← Setting.all.foldlM (Setting.complete env) s
  match command with
  | some command => .ok (ofIntake s command)
  | none => .error (if s.given.isEmpty then .nothingGiven else .commandMissing)

/-! ### Problems -/

/-- What is wrong with the path of the database. -/
def databaseProblems (path : String) : List String :=
  if (Text.trim path.toList).isEmpty then ["Database path cannot be empty"] else []

/-- What is wrong with the name of the log level. -/
def logLevelProblems (name : String) : List String :=
  match LogLevel.ofName? name with
  | some _ => []
  | none => ["Unknown log level '" ++ name ++ "', expected one of "
      ++ ", ".intercalate (LogLevel.all.map LogLevel.name)]

/-- What is wrong with the busy timeout. -/
def busyTimeoutProblems (t : UInt32) : List String :=
  if t = 0 then ["Busy timeout cannot be 0"] else []

/-- All that is wrong with an invocation. -/
def problems (inv : Invocation) : List String :=
  databaseProblems inv.database ++ logLevelProblems inv.logLevel
    ++ busyTimeoutProblems inv.busyTimeout ++ inv.command.problems

/-- The settings of the store that the invocation works on. -/
def settings (inv : Invocation) : Settings :=
  { busyTimeout := inv.busyTimeout, checkCyclesAfterMove := !inv.skipCycleCheck }

end Invocation

end Tenancy.Admin
