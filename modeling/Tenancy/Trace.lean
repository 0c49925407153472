import Tenancy.Diagnostic
import Tenancy.Id.Text

namespace Tenancy

/-!
# The log

A log record has a level, the part of the program that it comes from, a message and named fields.
Diagnostics can be written to the log as well; `Event` holds both in the order in which they came.

* `LogRecord` — one entry; `LogRecord.line` is how it is printed.
* `Diagnostic.logRecord` — a diagnostic as a log entry.
* `LogLevel.shows` — which entries a chosen level lets through.
-/

/-- How much an entry matters, most important first. -/
inductive LogLevel
  | error | warn | info | debug | trace
deriving DecidableEq, Repr

namespace LogLevel

/-- The levels, most important first. -/
def all : List LogLevel := [error, warn, info, debug, trace]

/-- The name by which a user chooses the level. -/
def name : LogLevel → String
  | error => "error"
  | warn => "warn"
  | info => "info"
  | debug => "debug"
  | trace => "trace"

/-- The name in front of a log line. -/
def label (level : LogLevel) : String := level.name.map Char.toUpper

/-- The level that a name means, in letters of either case. -/
def ofName? (s : String) : Option LogLevel :=
  all.find? fun level => level.name == s.map Char.toLower

/-- The place in the order of importance. -/
def rank : LogLevel → Nat
  | error => 0
  | warn => 1
  | info => 2
  | debug => 3
  | trace => 4

/-- With `chosen` as the level, entries of this level are shown. -/
def shows (chosen level : LogLevel) : Bool := level.rank ≤ chosen.rank

end LogLevel

/-- The part of the program that an entry comes from. -/
inductive Origin
  | store | schema | insertion | repair | cycleScan | lookup | diagnostics | command | program
deriving DecidableEq, Repr

/-- The name of the part in a log line. -/
def Origin.name : Origin → String
  | store => "helios_tenant_closure::backends::sqlite::backend"
  | schema => "helios_tenant_closure::backends::sqlite::schema"
  | insertion => "helios_tenant_closure::backends::sqlite::insert"
  | repair => "helios_tenant_closure::backends::sqlite::repair"
  | cycleScan => "helios_tenant_closure::backends::sqlite::cycles"
  | lookup => "helios_tenant_closure::backends::sqlite::query"
  | diagnostics => "helios_tenant_closure::core::diagnostics"
  | command => "tenant_admin::commands"
  | program => "tenant_admin"

/-- The value of a field. -/
inductive FieldValue
  | text (s : String)
  | number (n : Nat)
  | flag (b : Bool)
deriving DecidableEq

def FieldValue.show : FieldValue → String
  | text s => s
  | number n => toString n
  | flag b => toString b

/-- One entry of the log. -/
structure LogRecord where
  level : LogLevel
  origin : Origin
  message : String
  fields : List (String × FieldValue) := []
deriving DecidableEq

/-- The entry as a line, without the time. -/
def LogRecord.line (r : LogRecord) : String :=
  r.level.label ++ " " ++ r.origin.name ++ ": " ++ r.message
    ++ String.join (r.fields.map fun (name, v) => " " ++ name ++ "=" ++ v.show)

/-- A field that holds an id. -/
def FieldValue.ofId (id : TenantId) : FieldValue := .text id.text

/-- The items between brackets, with commas. -/
def bracketed (items : List String) : String := "[" ++ ", ".intercalate items ++ "]"

/-- A field that lists ids. -/
def FieldValue.ofIds (ids : List TenantId) : FieldValue := .text (bracketed (ids.map TenantId.tag))

/-- A field that lists ids with their distances. -/
def FieldValue.ofRelatives (rs : List Relative) : FieldValue :=
  .text (bracketed (rs.map fun r => "(" ++ r.id.tag ++ ", " ++ toString r.depth.toNat ++ ")"))

/-- A diagnostic as an entry of the log. -/
def Diagnostic.logRecord : Diagnostic → LogRecord
  | movePlanned tenant parent subtree supertree =>
    ⟨.info, .diagnostics, "Planning subtree move",
      [("tenant_id", .ofId tenant), ("new_parent_id", .ofId parent),
       ("subtree", .ofRelatives subtree), ("supertree", .ofRelatives supertree)]⟩
  | moveApplied tenant parent detached upserted =>
    ⟨.debug, .diagnostics, "Subtree move applied",
      [("tenant_id", .ofId tenant), ("new_parent_id", .ofId parent),
       ("rows_detached", .number detached), ("rows_upserted", .number upserted)]⟩
  | directEdgeRepaired tenant parent =>
    ⟨.warn, .diagnostics, "Direct parent edge was missing after move and has been written",
      [("tenant_id", .ofId tenant), ("parent_id", .ofId parent)]⟩
  | circularReference tenants =>
    ⟨.warn, .diagnostics, "Circular references detected in tenant closure table",
      [("nodes", .ofIds tenants)]⟩
  | repairCompleted report =>
    ⟨.debug, .diagnostics, "Closure repair completed",
      [("self_edges_inserted", .number report.selfEdgesInserted),
       ("transitive_edges_inserted", .number report.transitiveEdgesInserted),
       ("depths_lowered", .number report.depthsLowered), ("passes", .number report.passes)]⟩

/-- Something an operation told, or something written to the log. -/
inductive Event
  | told (d : Diagnostic)
  | logged (r : LogRecord)
deriving DecidableEq

namespace Event

/-- The diagnostic, if the event is one. -/
def diagnostic? : Event → Option Diagnostic
  | told d => some d
  | logged _ => none

/-- The event as an entry of the log, where diagnostics go to the log too. -/
def logRecord : Event → LogRecord
  | told d => d.logRecord
  | logged r => r

end Event

end Tenancy
