namespace Tenancy.Text

/-!
# Lines

* `lines` — the lines of a text.
-/

/-- A line without the carriage return at its end. -/
def bareLine (line : List Char) : List Char :=
  if line.getLast? = some '\r' then line.dropLast else line

/-- The lines of a text that is written with a line end behind it. -/
def lines (s : String) : List String :=
  (s.toList.splitOn '\n').map fun line => .ofList (bareLine line)

example : lines "a\r\n\nb" = ["a", "", "b"] := by decide +kernel

end Tenancy.Text
