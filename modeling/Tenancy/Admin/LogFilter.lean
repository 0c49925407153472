import Tenancy.Text.Alphanumeric
import Tenancy.Text.Blank
import Tenancy.Text.Decimal
import Tenancy.Text.Lowercase
import Tenancy.Trace

namespace Tenancy.Admin

/-!
# The log filter

What is logged is decided by a filter: a list of directives with commas between them.  A directive
names a level, a target, or a span in brackets with fields in braces, and may end with the level
that holds there.  The user's log level is made part of a filter as it is, so that whatever it
contains counts as directives, too; those that cannot be read are told of and left out.

* `Directive.shape` — how a directive is built.
* `Directive.fault?` — what is wrong with a directive.
* `LogFilter.refusals` — the lines that tell of the directives left out for a log level.
-/

/-- What is wrong with a directive. -/
inductive DirectiveFault
  | malformed
  | level
deriving DecidableEq, Repr

/-- What is told of a directive that is left out. -/
def DirectiveFault.message : DirectiveFault → String
  | malformed => "invalid filter directive"
  | level => "error parsing level filter: expected one of \"off\", \"error\", \"warn\", \"info\", "
      ++ "\"debug\", \"trace\", or a number 0-5"

namespace Directive

/-- How a directive is built. -/
inductive Shape
  | malformed
  /-- There is no level. -/
  | open
  /-- There is a level, which is what is left of the text. -/
  | leveled (rest : List Char)
deriving DecidableEq, Repr

/-- The shape of what follows a span in brackets. -/
def behindSpan : List Char → Shape
  | [] => .open
  | '=' :: cs => .leveled cs
  | _ => .malformed

/-- The shape from behind the brace that opens the fields of a span: there is a field, and the
    brackets end with the braces. -/
def behindBrace (cs : List Char) : Shape :=
  -- empty braces are no list of fields
  if cs.head? = some '}' then .malformed
  else
    match cs.dropWhile (· ≠ '}') with
    | '}' :: ']' :: cs => behindSpan cs
    | _ => .malformed

/-- The shape from behind the bracket that opens a span. -/
def behindBracket (cs : List Char) : Shape :=
  match cs.dropWhile fun c => c ≠ ']' ∧ c ≠ '{' with
  | ']' :: cs => behindSpan cs
  | '{' :: cs => behindBrace cs
  | _ => .malformed

/-- The shape of a directive that begins with a name. -/
def ofName (cs : List Char) : Shape :=
  match cs.dropWhile fun c => c ≠ '=' ∧ c ≠ '[' with
  | '=' :: cs => .leveled cs
  | '[' :: cs => behindBracket cs
  | _ => .open

/-- A name can begin with the character. -/
def beginsName (c : Char) : Bool := c ∈ ['-', ':', '_'] || Text.isAlphanumeric c

/-- The shape of a directive without blanks around it. -/
def shape : List Char → Shape
  | [] => .malformed
  | c :: cs =>
    if c = '[' then behindBracket cs
    else if beginsName c then ofName (c :: cs)
    else .malformed

/-- A level is known by its name, in letters of either case, or by its number. -/
def isLevel (cs : List Char) : Bool :=
  match Text.readNat (UInt64.size - 1) cs with
  | .ok n => n ≤ 5
  | .error _ =>
    cs.isEmpty || "off" == String.ofList (cs.map Char.toLower)
      || (LogLevel.ofName? (.ofList cs)).isSome

/-- What is wrong with a directive.  Blanks around it do not count, but its level begins as many
    characters into the directive as it does without the blanks, and goes on to the very end. -/
def fault? (directive : List Char) : Option DirectiveFault :=
  let cs := Text.trim directive
  match shape cs with
  | .malformed => some .malformed
  | .open => none
  | .leveled rest =>
    if isLevel (directive.drop (cs.length - rest.length)) then none else some .level

end Directive

namespace LogFilter

/-- The parts of the program that the filter names. -/
def packages : List String := ["tenant_admin", "helios_tenant_closure"]

/-- The filter for a log level: the level, in lower case, for each part of the program. -/
def ofLevel (level : String) : List Char :=
  [','].intercalate (packages.map fun package =>
    package.toList ++ '=' :: Text.lowercase level.toList)

/-- The directives of a filter. -/
def directives (filter : List Char) : List (List Char) := (filter.splitOn ',').filter (· ≠ [])

/-- The line that tells of a directive, if it is left out. -/
def refusal? (directive : List Char) : Option String :=
  (Directive.fault? directive).map fun fault =>
    "ignoring `" ++ String.ofList directive ++ "`: " ++ fault.message

/-- The lines that tell of the directives left out for a log level. -/
def refusals (level : String) : List String := (directives (ofLevel level)).filterMap refusal?

end LogFilter

example : Directive.fault? "a=debug".toList = none := by decide +kernel
example : Directive.fault? "a=debug ".toList = some .level := by decide +kernel
example : Directive.fault? "[a\x7bb=c\x7d]=+05".toList = none := by decide +kernel
example : Directive.fault? "[a\x7b\x7d]".toList = some .malformed := by decide +kernel
example : Directive.fault? "a=6".toList = some .level := by decide +kernel

end Tenancy.Admin
