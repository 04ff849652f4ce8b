import ClassPatch.Archive.Error
import ClassPatch.Compress.Deflate

namespace ClassPatch

namespace Archive

def field (width value : Nat) : List UInt8 :=
  (List.range width).map fun i => (value / Nat.pow 256 i % 256).toUInt8

def fields (values : List (Nat × Nat)) : List UInt8 := values.flatMap fun (w, v) => field w v

/-- An entry as written: its name, compressed data, checksum and uncompressed size. -/
structure Written where
  name : List UInt8
  data : List UInt8
  crc : Nat
  size : Nat

def localHeader (w : Written) : List UInt8 :=
  fields [(4, 0x04034b50), (2, 20), (2, 0), (2, 8), (2, 0), (2, 0), (4, w.crc),
    (4, w.data.length), (4, w.size), (2, w.name.length), (2, 0)] ++ w.name

def centralHeader (w : Written) (offset : Nat) : List UInt8 :=
  fields [(4, 0x02014b50), (2, 20), (2, 20), (2, 0), (2, 8), (2, 0), (2, 0), (4, w.crc),
    (4, w.data.length), (4, w.size), (2, w.name.length), (2, 0), (2, 0), (2, 0), (2, 0),
    (4, 0), (4, offset)] ++ w.name

def prepare (L : DeflateLibrary) (e : ArchiveEntry) : Except ArchiveError Written := do
  let name := e.name.toUTF8.toList
  if name.length > 0xFFFF then throw (.tooLarge e.name)
  let data := L.deflate e.bytes
  if data.length > 0xFFFFFFFF || e.bytes.length > 0xFFFFFFFF then throw (.tooLarge e.name)
  pure { name, data, crc := (L.crc e.bytes).toNat, size := e.bytes.length }

def layout : List (ArchiveEntry × Written) → Nat → Except ArchiveError (List UInt8 × List UInt8)
  | [], _ => pure ([], [])
  | (e, w) :: rest, offset => do
    if offset > 0xFFFFFFFF then throw (.tooLarge e.name)
    let part := localHeader w ++ w.data
    let (parts, directory) ← layout rest (offset + part.length)
    pure (part ++ parts, centralHeader w offset ++ directory)

/-- The bytes of a zip archive that holds the entries. -/
def zip (L : DeflateLibrary) (entries : List ArchiveEntry) : Except ArchiveError (List UInt8) := do
  if entries.length > 0xFFFF then throw (.tooLarge "archive")
  let written ← entries.mapM (prepare L)
  let (parts, directory) ← layout (entries.zip written) 0
  if parts.length > 0xFFFFFFFF || directory.length > 0xFFFFFFFF then throw (.tooLarge "archive")
  pure (parts ++ directory ++ fields [(4, 0x06054b50), (2, 0), (2, 0), (2, entries.length),
    (2, entries.length), (4, directory.length), (4, parts.length), (2, 0)])

end Archive

end ClassPatch
