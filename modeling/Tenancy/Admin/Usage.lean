namespace Tenancy.Admin

/-!
# Wrong usage

* `UsageFault` — why a command line is not run.
* `UsageFault.exitCode` — asking for help or for the version is no mistake.
-/

/-- Why a command line is not run. -/
inductive UsageFault
  /-- There is no such option, or an operand too many. -/
  | unknownArgument
  | unknownCommand
  /-- An option is not followed by its value. -/
  | valueMissing
  /-- An option that takes no value is given one. -/
  | valueUnwanted
  /-- A value cannot be read. -/
  | valueRefused
  | repeated
  | argumentMissing
  | commandMissing
  /-- There is nothing at all on the command line. -/
  | nothingGiven
  | helpWanted
  | versionWanted
deriving DecidableEq, Repr

namespace UsageFault

/-- What is told to someone who used the program wrongly. -/
def message : UsageFault → String
  | unknownArgument => "unknown argument"
  | unknownCommand => "unknown command"
  | valueMissing => "an option lacks its value"
  | valueUnwanted => "an option takes no value"
  | valueRefused => "invalid value"
  | repeated => "an option is given twice"
  | argumentMissing => "a required argument is missing"
  | commandMissing | nothingGiven => "a command is missing"
  | helpWanted => "help"
  | versionWanted => "version"

/-- The status of a run that ends for this reason. -/
def exitCode : UsageFault → UInt8
  | helpWanted | versionWanted => 0
  | _ => 2

end UsageFault

end Tenancy.Admin
