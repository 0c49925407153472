namespace Tenancy

/-!
# Settings of a store

* `Settings` — how a store opens its connections, and whether it looks for cycles after a move.
* `Settings.slots` — how many connections it can have at a time.
-/

/-- How a store is opened and used.  Times are in milliseconds. -/
structure Settings where
  maxConnections : UInt32 := 10
  minConnections : UInt32 := 1
  connectionTimeout : UInt64 := 30000
  busyTimeout : UInt32 := 5000
  enableWal : Bool := true
  checkCyclesAfterMove : Bool := true
deriving DecidableEq

namespace Settings

instance : Inhabited Settings := ⟨{}⟩

/-- The longest busy timeout that a connection can be given. -/
def longestBusyTimeout : Nat := UInt32.size / 2 - 1

/-- The number of connections: every connection to memory is a database of its own, so there is
    only one of those. -/
def slots (s : Settings) (inMemory : Bool) : Nat :=
  if inMemory then 1 else max 1 s.maxConnections.toNat

/-- Connections are made as soon as the store is opened. -/
def eager (s : Settings) (inMemory : Bool) : Bool := inMemory || 0 < s.minConnections.toNat

end Settings

end Tenancy
