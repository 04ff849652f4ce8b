import ClassPatch.Archive.Error
import ClassPatch.Compress.Deflate
import ClassPatch.Text.Utf8

namespace ClassPatch

namespace Archive

def localSignature : UInt32 := 0x04034b50

def centralSignature : UInt32 := 0x02014b50

def endSignature : UInt32 := 0x06054b50

/-- The signature of the locator of the 64-bit end record. -/
def zip64LocatorSignature : UInt32 := 0x07064b50

def endLength : Nat := 22

def le16 (a : Array UInt8) (at_ : Nat) : Nat :=
  (a.getD at_ 0).toNat + 256 * (a.getD (at_ + 1) 0).toNat

def le32 (a : Array UInt8) (at_ : Nat) : Nat := le16 a at_ + 65536 * le16 a (at_ + 2)

/-- Whether a signature stands at an offset. -/
def signatureAt (a : Array UInt8) (at_ : Nat) (signature : UInt32) : Bool :=
  at_ + 4 ≤ a.size && le32 a at_ == signature.toNat

/-- Where the central directory is: the offset the archive starts at, the offset of the first
header, and the number of entries. -/
structure Directory where
  base : Nat
  start : Nat
  count : Nat
  deriving Repr, Inhabited

def locate (a : Array UInt8) : Except ArchiveError Directory := do
  if a.size < endLength then throw .notAnArchive
  let last := a.size - endLength
  let first := a.size - min a.size (endLength + 65535)
  let candidates := (List.range (last + 1 - first)).map (last - ·)
  let record ← match candidates.find? (signatureAt a · endSignature) with
    | some at_ => pure at_
    | none => throw .notAnArchive
  if record ≥ 20 && signatureAt a (record - 20) zip64LocatorSignature then
    throw (.zip64 "central directory")
  let count := le16 a (record + 10)
  let size := le32 a (record + 12)
  let offset := le32 a (record + 16)
  if size > record then throw (.truncated .centralDirectory)
  let start := record - size
  if offset > start then throw (.truncated .centralDirectory)
  pure { base := start - offset, start, count }

/-- A central directory header. -/
structure CentralHeader where
  name : String
  flags : Nat
  method : Nat
  crc : Nat
  compressedSize : Nat
  uncompressedSize : Nat
  localOffset : Nat
  /-- The offset of the next header. -/
  next : Nat
  deriving Repr, Inhabited

/-- Reads the central directory header at an offset. -/
def CentralHeader.read (a : Array UInt8) (offset : Nat) : Except ArchiveError CentralHeader := do
  if offset + 46 > a.size then throw (.truncated .centralHeader)
  if le32 a offset != centralSignature.toNat then throw (.badSignature offset centralSignature)
  let nameLength := le16 a (offset + 28)
  let extraLength := le16 a (offset + 30)
  let commentLength := le16 a (offset + 32)
  if offset + 46 + nameLength > a.size then throw (.truncated .entryName)
  let name := Utf8.decodeLossy (a.extract (offset + 46) (offset + 46 + nameLength)).toList
  pure { name, flags := le16 a (offset + 8), method := le16 a (offset + 10),
         crc := le32 a (offset + 16), compressedSize := le32 a (offset + 20),
         uncompressedSize := le32 a (offset + 24), localOffset := le32 a (offset + 42),
         next := offset + 46 + nameLength + extraLength + commentLength }

/-- The largest 32-bit field, which marks a value kept in the 64-bit extension. -/
def zip64Marker : Nat := 0xFFFFFFFF

def CentralHeader.contents (L : DeflateLibrary) (h : CentralHeader) (a : Array UInt8) (base : Nat) :
    Except ArchiveError (List UInt8) := do
  if h.flags % 2 == 1 then throw (.encrypted h.name)
  if h.compressedSize == zip64Marker || h.uncompressedSize == zip64Marker ||
      h.localOffset == zip64Marker then throw (.zip64 h.name)
  let header := base + h.localOffset
  if header + 30 > a.size then throw (.truncated .localHeader)
  if le32 a header != localSignature.toNat then throw (.badSignature header localSignature)
  let dataOffset := header + 30 + le16 a (header + 26) + le16 a (header + 28)
  if dataOffset + h.compressedSize > a.size then throw (.truncated .entryData)
  let data := (a.extract dataOffset (dataOffset + h.compressedSize)).toList
  let bytes ← if h.method == 0 then pure data
    else if h.method == 8 then
      match L.inflate data with
      | some out => pure out
      | none => throw (.corrupt h.name)
    else throw (.unsupportedCompression h.name h.method)
  if bytes.length != h.uncompressedSize || (L.crc bytes).toNat != h.crc then
    throw (.corrupt h.name)
  pure bytes

/-- Whether an entry is a class entry, in the plain or in the module layout. -/
def isClassEntry (name : String) (module : Bool) : Bool :=
  name.endsWith ".class" &&
    (!module || (name.startsWith "classes/" && !name.endsWith "module-info.class"))

def walk (L : DeflateLibrary) (a : Array UInt8) (base : Nat) (module : Bool) :
    Nat → Nat → Except ArchiveError (List ArchiveEntry)
  | 0, _ => pure []
  | count + 1, offset => do
    let h ← CentralHeader.read a offset
    if isClassEntry h.name module then do
      let bytes ← h.contents L a base
      let rest ← walk L a base module count h.next
      pure ({ name := h.name, bytes } :: rest)
    else walk L a base module count h.next

/-- The class entries of an archive, in directory order. -/
def classEntries (L : DeflateLibrary) (bytes : List UInt8) (module : Bool) :
    Except ArchiveError (List ArchiveEntry) := do
  let a := bytes.toArray
  let d ← locate a
  walk L a d.base module d.count d.start

def isModuleFile (path : String) : Bool :=
  let file := ((path.splitOn "/").filter (· != "")).getLast?.getD ""
  if file == ".." then false
  else
    match (file.splitOn ".").reverse with
    | extension :: before :: more => extension == "jmod" && !(before == "" && more.isEmpty)
    | _ => false

end Archive

end ClassPatch
