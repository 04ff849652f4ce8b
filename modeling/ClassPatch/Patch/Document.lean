import ClassPatch.Json.Cursor
import ClassPatch.Patch.Record

namespace ClassPatch

/-- A patch document as read, with its records not yet resolved. -/
structure Document where
  name : String
  formatVersion : UInt32
  records : List Record
  deriving Inhabited

/-- A JSON library as patches use it: the text it writes for a value, and the document it reads
from a text, given whether the source of the text breaks past it. -/
structure JsonLibrary where
  write : Json → List UInt8
  read : List UInt8 → Bool → Except ScanFault Document

namespace Document

def nestingLimit : Nat := 128

def writtenMembers (name : String) (version : UInt32) (records : List Json) :
    List (String × Json) :=
  [("patch_name", .str name), ("format_version", .int version.toNat), ("differences", .arr records)]

def recordKind : Cursor String := do
  let kind ← Cursor.expectString
  if Record.kinds.contains kind then pure kind else throw .data

def checkRecord (kind : String) (content : Json) : Cursor Record :=
  match Record.ofContent kind content with
  | some r => pure r
  | none => throw .data

def recordMembers : Nat → Nat → Bool → Option String → List (String × Json) →
    Cursor (String × List (String × Json))
  | 0, _, _, _, _ => throw .grammar
  | fuel + 1, depth, first, kind, acc => do
    if ← Cursor.nextKey first then do
      let k ← Cursor.key
      if k == "kind" then do
        if kind.isSome then throw .data
        Cursor.colon
        let name ← recordKind
        recordMembers fuel depth false (some name) acc
      else do
        Cursor.colon
        let v ← Cursor.value fuel depth
        recordMembers fuel depth false kind ((k, v) :: acc)
    else
      match kind with
      | some name => pure (name, acc.reverse)
      | none => throw .data

def record (fuel depth : Nat) : Cursor Record := do
  let b ← Cursor.expectValue
  if b == 0x7B then do
    let inner ← Cursor.enter depth
    Cursor.bump
    let (kind, members) ← recordMembers fuel inner true none []
    Cursor.endObject
    checkRecord kind (.obj members)
  else if b == 0x5B then do
    let inner ← Cursor.enter depth
    Cursor.bump
    if ← Cursor.nextElement true then do
      let kind ← recordKind
      let rest ← Cursor.restOfArray fuel inner false
      checkRecord kind (.arr rest)
    else throw .data
  else Cursor.wrongKind b

def recordList : Nat → Nat → Bool → List Record → Cursor (List Record)
  | 0, _, _, _ => throw .grammar
  | fuel + 1, depth, first, acc => do
    if ← Cursor.nextElement first then do
      let r ← record fuel depth
      recordList fuel depth false (r :: acc)
    else pure acc.reverse

def recordArray (fuel depth : Nat) : Cursor (List Record) := do
  let b ← Cursor.expectValue
  if b == 0x5B then do
    let inner ← Cursor.enter depth
    Cursor.bump
    let rs ← recordList fuel inner true []
    Cursor.endArray
    pure rs
  else Cursor.wrongKind b

def versionNumber : Cursor UInt32 := do
  let n ← Cursor.expectNat (Nat.pow 2 32)
  pure n.toUInt32

def members : Nat → Nat → Bool → Option String → Option UInt32 → Option (List Record) →
    Cursor Document
  | 0, _, _, _, _, _ => throw .grammar
  | fuel + 1, depth, first, name, version, rs => do
    if ← Cursor.nextKey first then do
      let k ← Cursor.key
      if k == "patch_name" then do
        if name.isSome then throw .data
        Cursor.colon
        let n ← Cursor.expectString
        members fuel depth false (some n) version rs
      else if k == "format_version" then do
        if version.isSome then throw .data
        Cursor.colon
        let v ← versionNumber
        members fuel depth false name (some v) rs
      else if k == "differences" then do
        if rs.isSome then throw .data
        Cursor.colon
        let r ← recordArray fuel depth
        members fuel depth false name version (some r)
      else do
        Cursor.colon
        Cursor.skip fuel
        members fuel depth false name version rs
    else
      match name, version, rs with
      | some n, some v, some r => pure ⟨n, v, r⟩
      | _, _, _ => throw .data

def element {α : Type} (first : Bool) (read : Cursor α) : Cursor α := do
  if ← Cursor.nextElement first then read else throw .data

/-- Reads a document, nested less than `limit` levels deep, and checks that only blanks follow
it. -/
def read (limit fuel : Nat) : Cursor Document := do
  let b ← Cursor.expectValue
  let doc ← if b == 0x7B then do
      let inner ← Cursor.enter limit
      Cursor.bump
      let doc ← members fuel inner true none none none
      Cursor.endObject
      pure doc
    else if b == 0x5B then do
      let inner ← Cursor.enter limit
      Cursor.bump
      let name ← element true Cursor.expectString
      let version ← element false versionNumber
      let rs ← element false (recordArray fuel inner)
      Cursor.endArray
      pure ⟨name, version, rs⟩
    else Cursor.wrongKind b
  Cursor.finish
  pure doc

def ofBytes (limit : Nat) (bytes : List UInt8) (broken : Bool) : Except ScanFault Document :=
  ((read limit (4 * bytes.length + 4)).run bytes broken).map (·.1)

end Document

/-- The compact writer and the reader of this module, with a nesting limit. -/
def JsonLibrary.nested (limit : Nat) : JsonLibrary := ⟨fun j => j.compact.toUTF8.toList, Document.ofBytes limit⟩

end ClassPatch
