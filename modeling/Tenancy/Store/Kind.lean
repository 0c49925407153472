namespace Tenancy

/-!
# What a store offers

* `StoreKind` — which store it is.
* `Capability` — what a closure table needs from a store.
-/

/-- Which store it is. -/
inductive StoreKind
  | sqlite
  | custom (name : String)
deriving DecidableEq

def StoreKind.name : StoreKind → String
  | sqlite => "sqlite"
  | custom name => name

/-- Something that a store can do. -/
inductive Capability
  | transactions
  | conditionalUpsert
  | uniquePairs
  | serializableIsolation
deriving DecidableEq

namespace Capability

def name : Capability → String
  | transactions => "transactions"
  | conditionalUpsert => "conditional-upsert"
  | uniquePairs => "unique-pairs"
  | serializableIsolation => "serializable-isolation"

/-- What each kind of store is known to do. -/
def ofKind : StoreKind → List Capability
  | .sqlite => [transactions, conditionalUpsert, uniquePairs, serializableIsolation]
  | .custom _ => []

end Capability

/-- The store has the capability. -/
def StoreKind.supports (kind : StoreKind) (c : Capability) : Bool := c ∈ Capability.ofKind kind

/-- The name of this library, as it is published. -/
def packageName : String := "helios-tenant-closure"

/-- The version of this library and of its command line. -/
def packageVersion : String := "0.1.33"

end Tenancy
