import Tenancy.Admin.Command
import Tenancy.Json.Forms
import Tenancy.Store.Tenants

namespace Tenancy.Admin

open Json (Value)

/-!
# Answers

* `Answer` — what a command comes to: a text for people, and the same as JSON.
* `Command.run` — runs a command on a store.
-/

/-- What a command comes to. -/
structure Answer where
  json : Value
  text : String
  /-- The answer is not "no". -/
  success : Bool := true

namespace Answer

/-- The answer as it is printed. -/
def render (a : Answer) (asJson : Bool) : String := if asJson then a.json.render else a.text

/-- A list with an item on each line. -/
def lines (items : List String) : String := "\n".intercalate items

/-- Cells of a line, with tabs between them. -/
def columns (cells : List String) : String := "\t".intercalate cells

/-! ### Answers to the commands -/

def prepared : Answer where
  json := .object [("initialized", .flag true)]
  text := "schema is up to date"

def inserted (tenant parent : TenantId) : Answer where
  json := .object [("tenant_id", tenant.json), ("parent_id", parent.json)]
  text :=
    if parent = .root then "inserted root tenant " ++ tenant.text
    else "inserted tenant " ++ tenant.text ++ " under " ++ parent.text

def moved (tenant parent : TenantId) : Answer where
  json := .object [("tenant_id", tenant.json), ("new_parent_id", parent.json)]
  text :=
    if parent = .root then "detached tenant " ++ tenant.text ++ " into a root"
    else "moved tenant " ++ tenant.text ++ " under " ++ parent.text

/-- The answer to whether there is a path between two tenants. -/
def reached (depth : Option Depth) : Answer where
  json := .object [("found", .flag depth.isSome),
    ("depth", .ofOption (fun k : Depth => .number k.toNat) depth)]
  text := depth.elim "no" fun k => "yes, depth " ++ toString k.toNat
  success := depth.isSome

def parent (tenant : TenantId) (parent : Option TenantId) : Answer where
  json := .object [("tenant_id", tenant.json), ("parent_id", .ofOption TenantId.json parent)]
  text := parent.elim "none" TenantId.text

/-- The answer that lists tenants with their distances. -/
def relatives (rs : List Relative) : Answer where
  json := .list (rs.map fun r =>
    .object [("tenant_id", r.id.json), ("depth", .number r.depth.toNat)])
  text := lines (rs.map fun r => columns [r.id.text, toString r.depth.toNat])

/-- The answer to a search for circular references. -/
def circularReferences (ids : List TenantId) : Answer where
  json := .object [("nodes", .list (ids.map TenantId.json))]
  text :=
    if ids = [] then "no circular references"
    else "circular references involve tenants " ++ ", ".intercalate (ids.map TenantId.text)
  success := ids = []

/-- A record with its fields in alphabetical order. -/
def sorted : Value → Value
  | .record fields => .object fields
  | v => v

def repaired (r : RepairReport) : Answer where
  json := sorted (RepairReport.form.value r)
  text :=
    if r.isNoop then "closure table already consistent"
    else "inserted " ++ toString r.selfEdgesInserted ++ " self edges and "
      ++ toString r.transitiveEdgesInserted ++ " transitive edges, lowered "
      ++ toString r.depthsLowered ++ " depths in " ++ toString r.passes ++ " passes"

/-- The answer that lists every row. -/
def edges (es : List Edge) : Answer where
  json := .list (es.map fun e => sorted (Edge.form.value e))
  text := lines (es.map fun e =>
    columns [e.ancestor.text, e.descendant.text, toString e.depth.toNat])

end Answer

/-! ### Running commands -/

namespace Command

/-- Logs that a command has changed the hierarchy. -/
def logChange (message : String) (fields : List (String × FieldValue)) : StoreWork Unit :=
  Store.noteAll [.logged ⟨.info, .command, message, fields⟩]

/-- Runs a command. -/
def run (verbose : Bool) : Command → StoreWork Answer
  | .init => do
    Store.prepareSchema
    pure .prepared
  | .insert tenant above => do
    Store.insertTenant above tenant
    logChange "Inserted tenant" [("tenant_id", .ofId tenant), ("parent_id", .ofId above)]
    pure (.inserted tenant above)
  | .move tenant above => do
    Store.moveTenant tenant above verbose
    logChange "Moved tenant" [("tenant_id", .ofId tenant), ("new_parent_id", .ofId above)]
    pure (.moved tenant above)
  | .isDescendant ancestor descendant =>
    Answer.reached <$> Store.look (Hierarchy.depthBetween ancestor descendant)
  | .parent tenant => Answer.parent tenant <$> Store.look (Hierarchy.parentOf tenant)
  | .ancestors tenant => Answer.relatives <$> Store.look (Hierarchy.ancestors tenant)
  | .descendants tenant => Answer.relatives <$> Store.look (Hierarchy.descendants tenant)
  | .detectCycles => Answer.circularReferences <$> Store.look Hierarchy.circularReferences
  | .repair => Answer.repaired <$> Store.repairAll
  | .repairPair tenant above => Answer.repaired <$> Store.repairPair tenant above
  | .dump => Answer.edges <$> Store.look Hierarchy.edges

end Command

end Tenancy.Admin
