import ClassPatch.Patch.Document
import ClassPatch.Delta.Apply
import ClassPatch.Compress.Gzip

namespace ClassPatch

/-- A named, ordered list of differences. -/
structure Patch where
  name : String
  formatVersion : UInt32 := 1
  differences : List Difference
  deriving BEq, Inhabited

/-- The libraries patches are written and read with: gzip for the envelope, a JSON library for
the document and hexadecimal text for the payloads. -/
structure PatchLibraries where
  gzip : GzipLibrary
  json : JsonLibrary
  hex : HexLibrary

/-- The libraries the program runs with. -/
def PatchLibraries.standard : PatchLibraries :=
  ⟨Gzip.library, JsonLibrary.nested Document.nestingLimit, Hex.library⟩

namespace Patch

def currentFormat : UInt32 := 1

/-- A patch of the current format. -/
def new (name : String) (differences : List Difference) : Patch :=
  { name, formatVersion := currentFormat, differences }

/-- Applies every difference in order, stopping at the first that fails. -/
def apply (p : Patch) (m : ClassMap) : Except PatchError ClassMap := applyAll p.differences m

def notRuntimeAppliable (p : Patch) : List Difference :=
  p.differences.filter (!·.isRuntimeAppliable)

def takeAddedClasses (p : Patch) : List AddedClass × Patch :=
  let added := p.differences.filterMap fun
    | .classAdded a => some a
    | _ => none
  (added, { p with differences := p.differences.filter (!·.requiresSideChannel) })

def toDocument (hex : HexLibrary) (p : Patch) : Except PatchError Json := do
  let records ← p.differences.mapM (Difference.toRecord hex)
  pure (.obj (Document.writtenMembers p.name p.formatVersion records))

/-- The bytes a patch is written as: its document's text, gzipped. -/
def writeTo (L : PatchLibraries) (p : Patch) : Except PatchError (List UInt8) := do
  let doc ← p.toDocument L.hex
  pure (L.gzip.compress (L.json.write doc))

def ofText (L : PatchLibraries) (options : ReadOptions) (text : List UInt8) (broken : Bool) :
    Except PatchError Patch := do
  let doc ← match L.json.read text broken with
    | .ok doc => pure doc
    | .error fault => throw (.document fault)
  let differences ← doc.records.mapM (·.resolve L.hex options)
  pure { name := doc.name, formatVersion := doc.formatVersion, differences }

/-- Reads a patch from the bytes it was written as. -/
def readFrom (L : PatchLibraries) (options : ReadOptions) (bytes : List UInt8) :
    Except PatchError Patch :=
  ofText L options (L.gzip.decompress bytes).1 (L.gzip.decompress bytes).2

end Patch

end ClassPatch
