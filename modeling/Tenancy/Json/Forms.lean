import Tenancy.Diagnostic
import Tenancy.Json.Record
import Tenancy.Store.Settings

namespace Tenancy

open Json (Fault Form Kind Scalar Value)

/-!
# Ids, edges, reports and settings in JSON

* `TenantId.json`, `TenantId.ofJson?` — an id is a number.
* `Edge.form`, `RepairReport.form` — records all of whose fields have to be there.
* `Settings.form` — a record whose missing fields have their defaults.
-/

/-- A field for numbers of 32 bits. -/
def Json.Kind.half : Kind := .word (UInt32.size - 1)

/-- A field for numbers of 64 bits. -/
def Json.Kind.full : Kind := .word Json.maxWord

/-- The value of a number field. -/
def Json.Scalar.half (n : UInt32) : Scalar := .whole n.toNat

namespace TenantId

/-- The id as JSON. -/
def json (id : TenantId) : Value := .number id.toNat

/-- Reads an id. -/
def readJson (cs : List Char) : Except Fault (TenantId × List Char) := do
  match ← Json.readField .full cs with
  | (.whole n, rest) => .ok (ofNat n, rest)
  | _ => .error .mismatch

/-- The id that a JSON text holds. -/
def ofJson? (s : String) : Except Fault TenantId := Json.readWhole readJson s

end TenantId

/-- Edges in JSON. -/
def Edge.form : Form Edge where
  fields := [("ancestor", .full), ("descendant", .full), ("depth", .half)]
  scalars e := [.whole e.ancestor.toNat, .whole e.descendant.toNat, .half e.depth]
  ofFound? found := do
    let ancestor ← found.word? "ancestor"
    let descendant ← found.word? "descendant"
    let depth ← found.word? "depth"
    some ⟨.ofNat ancestor, .ofNat descendant, .ofNat depth⟩

/-- Reports in JSON. -/
def RepairReport.form : Form RepairReport where
  fields := [("self_edges_inserted", .full), ("transitive_edges_inserted", .full),
    ("depths_lowered", .full), ("passes", .half)]
  scalars r := [.whole r.selfEdgesInserted, .whole r.transitiveEdgesInserted,
    .whole r.depthsLowered, .whole r.passes]
  ofFound? found := do
    let selfEdges ← found.word? "self_edges_inserted"
    let transitiveEdges ← found.word? "transitive_edges_inserted"
    let lowered ← found.word? "depths_lowered"
    let passes ← found.word? "passes"
    some ⟨selfEdges, transitiveEdges, lowered, passes⟩

/-- Settings in JSON. -/
def Settings.form : Form Settings where
  fields := [("max_connections", .half), ("min_connections", .half),
    ("connection_timeout_ms", .full), ("busy_timeout_ms", .half), ("enable_wal", .flag),
    ("check_cycles_after_move", .flag)]
  scalars s := [.half s.maxConnections, .half s.minConnections,
    .whole s.connectionTimeout.toNat, .half s.busyTimeout, .flag s.enableWal,
    .flag s.checkCyclesAfterMove]
  ofFound? found :=
    let absent : Settings := {}
    some
      { maxConnections := (found.word? "max_connections").elim absent.maxConnections .ofNat
        minConnections := (found.word? "min_connections").elim absent.minConnections .ofNat
        connectionTimeout :=
          (found.word? "connection_timeout_ms").elim absent.connectionTimeout .ofNat
        busyTimeout := (found.word? "busy_timeout_ms").elim absent.busyTimeout .ofNat
        enableWal := (found.flag? "enable_wal").getD absent.enableWal
        checkCyclesAfterMove :=
          (found.flag? "check_cycles_after_move").getD absent.checkCyclesAfterMove }

end Tenancy
