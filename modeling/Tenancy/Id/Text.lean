import Tenancy.Id
import Tenancy.Text.Blank
import Tenancy.Text.Decimal

namespace Tenancy.TenantId

/-!
# Tenant ids as text

* `TenantId.text` — the decimal number.
* `TenantId.ofText?` — reads a number, with blanks around it and a plus before it allowed.
* `TenantId.tag` — the spelling used inside lists in the log.
-/

/-- The id as a decimal number. -/
def text (id : TenantId) : String := toString id.toNat

instance : ToString TenantId := ⟨text⟩

/-- The id with the name of its type, as lists of ids show it. -/
def tag (id : TenantId) : String := "TenantNodeId(" ++ id.text ++ ")"

/-- The id that a text names. -/
def ofText? (s : String) : Except Text.NumeralFault TenantId :=
  ofNat <$> Text.readNat (UInt64.size - 1) (Text.trim s.toList)

end Tenancy.TenantId
