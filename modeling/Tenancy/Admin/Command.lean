import Tenancy.Admin.Grammar
import Tenancy.Id.Text

namespace Tenancy.Admin

/-!
# Commands

* `Command` — what a user can have done to a hierarchy, or ask about it.
* `Command.problems` — what is wrong with its ids before any store is opened.
* `Signature` — the arguments of a command on the command line.
* `Command.ofArguments?` — reads a command from its name and its arguments.
-/

/-- What the program does in one run. -/
inductive Command
  | init
  | insert (tenant parent : TenantId)
  | move (tenant parent : TenantId)
  | isDescendant (ancestor descendant : TenantId)
  | parent (tenant : TenantId)
  | ancestors (tenant : TenantId)
  | descendants (tenant : TenantId)
  | detectCycles
  | repair
  | repairPair (tenant parent : TenantId)
  | dump
deriving DecidableEq

namespace Command

/-- A tenant is not its own parent. -/
def ownParent (tenant : TenantId) : String :=
  "Tenant " ++ tenant.text ++ " cannot be its own parent"

/-- An id that has to name a tenant does not. -/
def zeroTenant : String := "Tenant ID cannot be 0"

/-- What is wrong with the ids of a command, in words for the user. -/
def problems : Command → List String
  | insert tenant above =>
    if tenant = .root then [zeroTenant] else if tenant = above then [ownParent tenant] else []
  | move tenant _ => if tenant = .root then [zeroTenant] else []
  | repairPair tenant above =>
    if tenant = .root ∨ above = .root then ["Repair-pair needs two non-zero tenant IDs"]
    else if tenant = above then [ownParent tenant]
    else []
  | _ => []

end Command

/-! ### On the command line -/

/-- The text names a tenant. -/
def admitsId (s : String) : Bool := (TenantId.ofText? s).isOk

/-- The option that asks for help. -/
def helpSwitch : Switch := ⟨"help", some 'h', .help⟩

/-- The arguments of a command, all of which are ids, and what they are put together to. -/
structure Signature where
  name : String
  operands : List String := []
  option : Option String := none
  build : (String → Option TenantId) → Option Command

namespace Signature

/-- The command lines that the signature allows. -/
def grammar (sig : Signature) : Grammar where
  switches := helpSwitch :: sig.option.toList.map fun name => ⟨name, none, .take admitsId⟩
  operands := sig.operands.map fun name => ⟨name, admitsId⟩

/-- Reads the arguments. -/
def read (sig : Signature) (args : List String) : Except UsageFault Command := do
  let (s, _) ← sig.grammar.scan false { operands := sig.grammar.operands } args
  let s ← s.settle
  match sig.build fun name => (s.value? name).bind fun v => (TenantId.ofText? v).toOption with
  | some command => .ok command
  | none => .error .argumentMissing

/-- A command about one tenant. -/
def ofTenant (name : String) (f : TenantId → Command) : Signature where
  name := name
  operands := ["tenant"]
  build id := f <$> id "tenant"

/-- A command without arguments. -/
def ofNothing (name : String) (command : Command) : Signature where
  name := name
  build _ := some command

end Signature

namespace Command

/-- Every command with its arguments. -/
def signatures : List Signature :=
  [.ofNothing "init" .init,
   { name := "insert", operands := ["tenant"], option := some "parent"
     build id := do some (.insert (← id "tenant") ((id "parent").getD .root)) },
   { name := "move", operands := ["tenant"], option := some "to"
     build id := do some (.move (← id "tenant") (← id "to")) },
   { name := "is-descendant", operands := ["ancestor", "descendant"]
     build id := do some (.isDescendant (← id "ancestor") (← id "descendant")) },
   .ofTenant "parent" .parent,
   .ofTenant "ancestors" .ancestors,
   .ofTenant "descendants" .descendants,
   .ofNothing "detect-cycles" .detectCycles,
   .ofNothing "repair" .repair,
   { name := "repair-pair", operands := ["tenant"], option := some "parent"
     build id := do some (.repairPair (← id "tenant") (← id "parent")) },
   .ofNothing "dump" .dump]

/-- The names of the commands. -/
def names : List String := signatures.map Signature.name

/-- The name under which help on commands is asked for. -/
def helpName : String := "help"

/-- What comes of asking for help on a command; help itself has no commands. -/
def helpOn (args : List String) : UsageFault :=
  match args with
  | [] => .helpWanted
  | [name] => if name ∈ helpName :: names then .helpWanted else .unknownCommand
  | _ => .unknownCommand

/-- Reads a command. -/
def ofArguments? (name : String) (args : List String) : Except UsageFault Command :=
  if name = helpName then .error (helpOn args)
  else
    match signatures.find? fun sig => sig.name == name with
    | some sig => sig.read args
    | none => .error .unknownCommand

end Command

end Tenancy.Admin
