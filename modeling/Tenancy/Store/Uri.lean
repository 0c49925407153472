import Tenancy.Text.Hexadecimal

namespace Tenancy.Uri

/-!
# Parts of URIs

What follows the scheme of a URI with a path: a host, the path itself, and a query of parameters.  A
byte can be written as a percent sign with its two hexadecimal digits.

* `decode` — the bytes that a part stands for.
* `dropHost?` — the rest behind a host that is this one.
* `parameters` — the parameters of a query.
-/

/-- The byte that two hexadecimal digits at the beginning of a text give. -/
def escaped? : List Char → Option Nat
  | a :: b :: _ => do
    let high ← Text.hexValue? a
    let low ← Text.hexValue? b
    some (high * 16 + low)
  | _ => none

/-- The bytes that a part of a URI stands for, behind some characters that are passed over.  It
    ends where a zero byte is written. -/
def decodeFrom : Nat → List Char → List UInt8
  | _, [] => []
  | n + 1, _ :: cs => decodeFrom n cs
  | 0, c :: cs =>
    match if c = '%' then escaped? cs else none with
    -- a zero byte ends the text for those who read it on
    | some 0 => []
    | some byte => .ofNat byte :: decodeFrom 2 cs
    | none => String.utf8EncodeChar c ++ decodeFrom 0 cs

/-- The bytes that a part of a URI stands for. -/
def decode (cs : List Char) : List UInt8 := decodeFrom 0 cs

/-- Takes off the name of a host, which can only be this one. -/
def dropHost? : List Char → Option (List Char)
  | '/' :: '/' :: cs =>
    let host := cs.takeWhile (· ≠ '/')
    if host = [] ∨ host = "localhost".toList then some (cs.dropWhile (· ≠ '/')) else none
  | cs => some cs

/-- The parameters in a query, with their values.  One without a name does not count. -/
def parameters (query : List Char) : List (List UInt8 × List UInt8) :=
  ((query.splitOn '&').map fun p =>
    (decode (p.takeWhile (· ≠ '=')), decode ((p.dropWhile (· ≠ '=')).drop 1))).filter (·.1 ≠ [])

example : decode "%61%2f%zé".toList = "a/%zé".toUTF8.toList := by decide +kernel
example : decode "a%00b".toList = "a".toUTF8.toList := by decide +kernel

end Tenancy.Uri
