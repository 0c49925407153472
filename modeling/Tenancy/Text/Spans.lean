namespace Tenancy.Text

/-!
# Spans of characters

A property of characters is given by the spans of the code points that have it.

* `within` — a character is in one of the spans.
-/

/-- The character lies in one of the spans, each of which is given by its first and last code
    point. -/
def within (spans : List (Nat × Nat)) (c : Char) : Bool :=
  spans.any fun (first, last) => first ≤ c.toNat && c.toNat ≤ last

end Tenancy.Text
