namespace Tenancy

/-!
# Paths of files

A path is taken as its parts: one that stands for the same directory is left out, and one that
stands for the directory above takes back the part before it.

* `FilePath` — a path without such detours; `FilePath.ofBytes` takes them out.
* `FilePath.text?` — the path as text.
-/

/-- The name of a file, or of a directory on the way to it, as it is encoded. -/
abbrev PathPart := List UInt8

/-- The path of a file.  Its parts are neither empty nor a dot, and a pair of dots stands only at
    the beginning of a path that is not absolute. -/
structure FilePath where
  absolute : Bool
  parts : List PathPart
deriving DecidableEq

namespace FilePath

/-- The part that stands for the same directory. -/
def here : PathPart := ".".toUTF8.toList

/-- The part that stands for the directory above. -/
def above : PathPart := "..".toUTF8.toList

/-- Goes on from the parts so far, of which the last one comes first. -/
def goOn (absolute : Bool) (parts : List PathPart) (part : PathPart) : List PathPart :=
  if part = [] ∨ part = here then parts
  else if part ≠ above then part :: parts
  else
    match parts with
    -- above the root there is only the root
    | [] => if absolute then [] else [above]
    | last :: rest => if last = above then above :: parts else rest

/-- The path that is written as these bytes. -/
def ofBytes (bytes : List UInt8) : FilePath :=
  let slash := '/'.toUInt8
  let absolute := bytes.head? == some slash
  ⟨absolute, ((bytes.splitOn slash).foldl (goOn absolute) []).reverse⟩

/-- The path can be one of a file: it does not end with a directory that is known as such. -/
def namesFile (p : FilePath) : Bool := p.parts.getLast?.any (· ≠ above)

/-- The path as text, if it can be written as such. -/
def text? (p : FilePath) : Option String :=
  let joined := ['/'.toUInt8].intercalate p.parts
  String.fromUTF8? ⟨(if p.absolute then '/'.toUInt8 :: joined else joined).toArray⟩

end FilePath

example : FilePath.ofBytes ".//a/../x".toUTF8.toList = FilePath.ofBytes "x".toUTF8.toList := by
  decide +kernel
example : (FilePath.ofBytes "/a/./b/".toUTF8.toList).text? = some "/a/b" := by decide +kernel
example : (FilePath.ofBytes "a/..".toUTF8.toList).namesFile = false := by decide +kernel

end Tenancy
