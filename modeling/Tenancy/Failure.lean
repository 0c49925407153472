import Tenancy.Id.Text

namespace Tenancy

/-!
# Failures

Failures are grouped by what a caller can do about them: an id that is refused before the store is
touched, a request that does not fit the hierarchy, and a store that does not answer.

* `Failure` — all failures; `Failure.message` is what the user is told.
* `Failure.causes` — what lies behind a failure, from the nearest cause to the last.
-/

/-- Why an id is refused whatever the table holds. -/
inductive InvalidId
  | zero (field : String)
  | tooLarge (field : String) (id : TenantId)
  | ownParent (id : TenantId)
deriving DecidableEq

/-- Why a request does not fit the hierarchy. -/
inductive Conflict
  | circular (tenant descendant : TenantId)
  | present (id : TenantId)
  | parentAbsent (id : TenantId)
  | absent (id : TenantId)
deriving DecidableEq

/-- Why a statement on the table did not run. -/
inductive StatementFault
  /-- An id has no cell that could hold it. -/
  | idTooLarge
  /-- The number in a cell of the given column of the result is not one that callers can have. -/
  | outOfRange (number : Int) (column : Nat)
  /-- A cell of the given column, with the given name, holds a value of another type. -/
  | wrongType (type : String) (column : Nat) (name : String)
  | noTable (name : String)
  | noIndex (name : String)
  | duplicatePair
  | negativeDepth
  | locked
  | readOnly
  | noRows
deriving DecidableEq

/-- Why the store did not do its part. -/
inductive StoreFault
  | unavailable (store detail : String)
  | connection (store reason : String)
  | exhausted (store : String)
  | migration (reason : String)
  | statement (step : String) (fault : StatementFault)
  | transaction (reason : String)
deriving DecidableEq

/-- Why an operation failed. -/
inductive Failure
  | invalid (e : InvalidId)
  | conflict (e : Conflict)
  | store (e : StoreFault)
deriving DecidableEq

def InvalidId.message : InvalidId → String
  | zero field => field ++ " must be a non-zero tenant id"
  | tooLarge field id => field ++ " " ++ id.text ++ " exceeds the largest storable tenant id"
  | ownParent id => "tenant " ++ id.text ++ " cannot be its own parent"

def Conflict.message : Conflict → String
  | circular tenant descendant =>
    "circular reference: tenant " ++ tenant.text ++ " is already an ancestor of " ++ descendant.text
  | present id => "tenant " ++ id.text ++ " already exists in the closure table"
  | parentAbsent id => "parent tenant " ++ id.text ++ " does not exist in the closure table"
  | absent id => "tenant " ++ id.text ++ " does not exist in the closure table"

def StatementFault.message : StatementFault → String
  | idTooLarge => Text.NumeralFault.tooLarge.message
  | outOfRange number column =>
    "Integer " ++ toString number ++ " out of range at index " ++ toString column
  | wrongType type column name =>
    "Invalid column type " ++ type ++ " at index: " ++ toString column ++ ", name: " ++ name
  | noTable name => "no such table: " ++ name
  | noIndex name => "no such index: " ++ name
  | duplicatePair =>
    "UNIQUE constraint failed: tenant_closure.ancestor_id, tenant_closure.descendant_id"
  | negativeDepth => "CHECK constraint failed: depth >= 0"
  | locked => "database is locked"
  | readOnly => "attempt to write a readonly database"
  | noRows => "Query returned no rows"

/-- What lies behind a fault that has a cause of its own: the failed conversion of an id, and the
    refusal of a database that cannot be written. -/
def StatementFault.cause? : StatementFault → Option String
  | idTooLarge => some Text.NumeralFault.tooLarge.message
  | readOnly => some "Error code 8: Attempt to write a readonly database"
  | _ => none

def StoreFault.message : StoreFault → String
  | unavailable store _ => "backend unavailable: " ++ store
  | connection store reason => "connection failed to " ++ store ++ ": " ++ reason
  | exhausted store => "connection pool exhausted for " ++ store
  | migration reason => "schema migration failed: " ++ reason
  | statement step fault => step ++ " failed: " ++ fault.message
  | transaction reason => "transaction error: " ++ reason

namespace Failure

/-- What the user is told. -/
def message : Failure → String
  | invalid e => e.message
  | conflict e => e.message
  | store e => e.message

/-- What lies behind the failure, nearest cause first: a statement's fault, and what caused it. -/
def causes : Failure → List String
  | store (.statement _ fault) => fault.message :: fault.cause?.toList
  | _ => []

/-- The failure says that a tenant would become its own ancestor. -/
def isCircular : Failure → Bool
  | conflict (.circular ..) => true
  | _ => false

end Failure

end Tenancy
