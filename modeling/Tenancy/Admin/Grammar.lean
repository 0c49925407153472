import Tenancy.Admin.Usage

namespace Tenancy.Admin

/-!
# Command lines

A command line is read word by word: options with one or two dashes, operands in their order, and
the name of a command, which ends the line of the outer program.  An option takes its value from
its own word or from the next one.  Such a value, and an operand too, is looked at only when the
next option or operand comes, or at the end; a word that fits nowhere is refused before that.

* `Grammar` — what a command line may hold.
* `Word` — the shapes of words.
* `Intake` — what was read so far; `Intake.settle` looks at the value that waits.
* `Grammar.scan` — reads the words.
-/

/-- What an option is for. -/
inductive Effect
  | help
  | version
  /-- The option stands for itself. -/
  | mark
  /-- The option takes a value of some form. -/
  | take (admits : String → Bool)

/-- An option. -/
structure Switch where
  long : String
  short : Option Char := none
  effect : Effect

/-- An operand, with the form of its value. -/
structure Operand where
  name : String
  admits : String → Bool

/-- What a command line may hold. -/
structure Grammar where
  switches : List Switch
  operands : List Operand := []
  commands : List String := []

/-! ### Words -/

/-- The shape of a word. -/
inductive Word
  /-- Two dashes: only operands follow. -/
  | escape
  /-- An option by its name, perhaps with a value. -/
  | long (name : List Char) (value : Option (List Char))
  /-- Options by their letters, of which there is at least one. -/
  | cluster (letters : List Char)
  | plain

/-- The part before the first equals sign, and the part behind it, if there is one. -/
def splitAtEquals (cs : List Char) : List Char × Option (List Char) :=
  match cs.span (· != '=') with
  | (name, []) => (name, none)
  | (name, _ :: value) => (name, some value)

/-- The shape of a word.  A dash alone is a plain word. -/
def Word.of : List Char → Word
  | ['-', '-'] => .escape
  | '-' :: '-' :: cs => .long (splitAtEquals cs).1 (splitAtEquals cs).2
  | '-' :: c :: cs => .cluster (c :: cs)
  | _ => .plain

/-! ### Intake -/

/-- A value that is yet to be looked at. -/
inductive Pending
  | nothing
  /-- The value of an option comes in the next word. -/
  | awaited (name : String) (admits : String → Bool)
  | held (name value : String) (admits : String → Bool)

/-- What was read so far. -/
structure Intake where
  /-- Names of options and operands with their values; an option that stands for itself has an
      empty one. -/
  given : List (String × String) := []
  pending : Pending := .nothing
  /-- The operands that are yet to come. -/
  operands : List Operand

namespace Intake

/-- The value of an option or operand, if it was given. -/
def value? (s : Intake) (name : String) : Option String := s.given.lookup name

/-- The next word is the value of an option. -/
def awaits (s : Intake) : Bool :=
  match s.pending with
  | .awaited .. => true
  | _ => false

/-- Takes a value, once for each name. -/
def add (s : Intake) (name value : String) (admits : String → Bool) : Except UsageFault Intake :=
  if (s.value? name).isSome then .error .repeated
  -- a repeated option is refused before its value is looked at
  else if admits value then .ok { s with given := s.given ++ [(name, value)] }
  else .error .valueRefused

/-- Looks at the value that waits. -/
def settle (s : Intake) : Except UsageFault Intake :=
  match s.pending with
  | .nothing => .ok s
  | .awaited .. => .error .valueMissing
  | .held name value admits => { s with pending := .nothing }.add name value admits

/-- Takes an option that stands for itself, or does what it asks for. -/
def mark (s : Intake) (o : Switch) : Except UsageFault Intake := do
  let s ← s.settle
  match o.effect with
  | .help => .error .helpWanted
  | .version => .error .versionWanted
  | .mark | .take _ => s.add o.long "" fun _ => true

/-- Takes an option whose value is in the same word, or else comes in the next one. -/
def take (s : Intake) (o : Switch) (admits : String → Bool) :
    Option (List Char) → Except UsageFault Intake
  | some value => do (← s.settle).add o.long (String.ofList value) admits
  | none => do .ok { ← s.settle with pending := .awaited o.long admits }

/-- A value that follows an option with a single dash may have an equals sign before it. -/
def attached : List Char → Option (List Char)
  | [] => none
  | '=' :: cs => some cs
  | cs => some cs

end Intake

/-! ### Reading -/

namespace Grammar

/-- Takes an option by its name. -/
def readLong (g : Grammar) (s : Intake) (name : List Char) (value : Option (List Char)) :
    Except UsageFault Intake :=
  match g.switches.find? fun o => o.long.toList == name with
  | none => .error .unknownArgument
  | some o =>
    match o.effect with
    | .take admits => s.take o admits value
    -- an option without a value refuses one that is written behind an equals sign
    | _ => if value.isSome then .error .valueUnwanted else s.mark o

/-- Takes options by their letters.  One that takes a value takes all that follows. -/
def readCluster (g : Grammar) (s : Intake) : List Char → Except UsageFault Intake
  | [] => .ok s
  | c :: cs =>
    match g.switches.find? fun o => o.short == some c with
    | none => .error .unknownArgument
    | some o =>
      match o.effect with
      | .take admits => s.take o admits (Intake.attached cs)
      | _ => do g.readCluster (← s.mark o) cs

/-- Why there is no place for a word; `escaped` tells that it comes behind two dashes. -/
def noPlace (g : Grammar) (escaped : Bool) (word : String) : UsageFault :=
  if g.commands.isEmpty || (escaped && g.commands.contains word) then .unknownArgument
  else .unknownCommand

/-- Takes a word as the next operand. -/
def readOperand (g : Grammar) (s : Intake) (escaped : Bool) (word : String) :
    Except UsageFault Intake :=
  match s.operands with
  | [] => .error (g.noPlace escaped word)
  | o :: operands => do
    .ok { ← s.settle with pending := .held o.name word o.admits, operands := operands }

/-- Takes a plain word: as the value that is awaited, or as an operand. -/
def readPlain (g : Grammar) (s : Intake) (word : String) : Except UsageFault Intake :=
  match s.pending with
  | .awaited name admits => .ok { s with pending := .held name word admits }
  | _ => g.readOperand s false word

/-- Reads words up to the name of a command; gives that name with the words behind it. -/
def scan (g : Grammar) (escaped : Bool) (s : Intake) :
    List String → Except UsageFault (Intake × Option (String × List String))
  | [] => .ok (s, none)
  | word :: rest =>
    if escaped then do g.scan true (← g.readOperand s true word) rest
    -- the name of a command is a value if an option waits for one
    else if !s.awaits && g.commands.contains word then .ok (s, some (word, rest))
    else
      match Word.of word.toList with
      | .escape => g.scan true s rest
      | .long name value => do g.scan false (← g.readLong s name value) rest
      | .cluster letters => do g.scan false (← g.readCluster s letters) rest
      | .plain => do g.scan false (← g.readPlain s word) rest

end Grammar

end Tenancy.Admin
