import Tenancy.Store.Basic
import Tenancy.Store.FilePath
import Tenancy.Store.Uri

namespace Tenancy

/-!
# Where a database is

A database is named by the path of its file, or by a URI with the scheme `file`, which may also tell
how it is to be opened.  Different names can mean the same file.  A database in memory, and one
without a name, is gone when nobody works with it any more.

* `OpenMode` — how a database is to be opened.
* `Location.ofName?` — the location that a name means.
-/

/-- How a database is to be opened. -/
inductive OpenMode
  | create
  | write
  | read
  | memory
deriving DecidableEq

/-- The mode of the given name, which gives no more rights than those that there are. -/
def OpenMode.change? (mode : OpenMode) (name : List UInt8) : Option OpenMode :=
  if name = "ro".toUTF8.toList then some .read
  else if name = "memory".toUTF8.toList then some .memory
  else if name = "rw".toUTF8.toList then
    if mode = .read then none else some .write
  else if name = "rwc".toUTF8.toList then
    if mode = .create ∨ mode = .memory then some .create else none
  else none

/-- Follows a parameter that tells how to open a database. -/
def OpenMode.follow? (mode : OpenMode) : List UInt8 × List UInt8 → Option OpenMode
  | (name, value) =>
    if name = "mode".toUTF8.toList then mode.change? value
    else if name = "cache".toUTF8.toList then
      if value = "shared".toUTF8.toList ∨ value = "private".toUTF8.toList then some mode else none
    else some mode

/-- Where a database is. -/
inductive Location
  /-- Nowhere for long. -/
  | passing
  | file (path : FilePath) (readOnly : Bool)
deriving DecidableEq

namespace Location

/-- The location that a path means. -/
def ofBytes? (mode : OpenMode) (path : List UInt8) : Option Location :=
  -- a database in memory is nowhere, whatever its path
  if mode = .memory ∨ path = [] ∨ path = Store.memoryPath.toUTF8.toList then some .passing
  else
    let p := FilePath.ofBytes path
    if p.namesFile then some (.file p (mode = .read)) else none

/-- The location that a URI means, from behind its scheme.  Its fragment means nothing. -/
def ofUri? (cs : List Char) : Option Location := do
  let cs := (← Uri.dropHost? cs).takeWhile (· ≠ '#')
  -- the query is taken apart before it is decoded, so that escaped signs do not end a part
  let query := (cs.dropWhile (· ≠ '?')).drop 1
  let mode ← (Uri.parameters query).foldlM OpenMode.follow? .create
  ofBytes? mode (Uri.decode (cs.takeWhile (· ≠ '?')))

/-- What a URI begins with. -/
def scheme : String := "file:"

/-- The location that a name means, if it means any. -/
def ofName? (name : String) : Option Location :=
  if scheme.toList.isPrefixOf name.toList then ofUri? (name.toList.drop scheme.length)
  else ofBytes? .create name.toUTF8.toList

/-- A database here can be read, and no more. -/
def isReadOnly : Location → Bool
  | passing => false
  | file _ readOnly => readOnly

/-- The path of the file. -/
def path? : Location → Option FilePath
  | passing => none
  | file path _ => some path

example : ofName? "./a.db" = ofName? "file:b/..//%61.db?cache=shared#x" := by decide +kernel
example : ofName? "file:x?mode=memory" = some .passing := by decide +kernel
example : (ofName? "file://localhost/a/b?mode=ro").any isReadOnly = true := by decide +kernel
example : ofName? "file://host/a" = none := by decide +kernel
example : ofName? "../x" ≠ ofName? "x" := by decide +kernel

end Location

end Tenancy
