namespace ClassPatch

/-- A named entry of an archive, with its contents uncompressed. -/
structure ArchiveEntry where
  name : String
  bytes : List UInt8
  deriving DecidableEq, Repr, Inhabited

/-- The structures of an archive that can run past its end. -/
inductive ArchivePart where
  | centralDirectory
  | centralHeader
  | entryName
  | localHeader
  | entryData
  deriving DecidableEq, Repr, Inhabited

/-- The name of a structure in messages. -/
def ArchivePart.name : ArchivePart → String
  | .centralDirectory => "central directory"
  | .centralHeader => "central directory header"
  | .entryName => "entry name"
  | .localHeader => "local file header"
  | .entryData => "entry data"

/-- Why an archive cannot be read or written. -/
inductive ArchiveError where
  /-- No end of central directory record was found. -/
  | notAnArchive
  | truncated (part : ArchivePart)
  | badSignature (offset : Nat) (expected : UInt32)
  /-- The archive or an entry needs the 64-bit extension. -/
  | zip64 (entry : String)
  | encrypted (entry : String)
  | unsupportedCompression (entry : String) (method : Nat)
  /-- The contents do not match their size or checksum, or do not decompress. -/
  | corrupt (entry : String)
  | tooLarge (entry : String)
  deriving DecidableEq, Repr, Inhabited

namespace ArchiveError

def variant : ArchiveError → String
  | .notAnArchive => "NotAnArchive"
  | .truncated _ => "Truncated"
  | .badSignature .. => "BadSignature"
  | .zip64 _ => "Zip64"
  | .encrypted _ => "Encrypted"
  | .unsupportedCompression .. => "UnsupportedCompression"
  | .corrupt _ => "Corrupt"
  | .tooLarge _ => "TooLarge"

def hex8 (v : UInt32) : String :=
  let digits := Nat.toDigits 16 v.toNat
  String.ofList (List.replicate (8 - digits.length) '0' ++ digits)

def message : ArchiveError → String
  | .notAnArchive => "not a zip archive"
  | .truncated part => s!"truncated {part.name}"
  | .badSignature offset expected => s!"expected signature 0x{hex8 expected} at offset {offset}"
  | .zip64 entry => s!"zip64 is not supported ({entry})"
  | .encrypted entry => s!"entry {entry} is encrypted"
  | .unsupportedCompression entry method =>
    s!"entry {entry} uses unsupported compression method {method}"
  | .corrupt entry => s!"entry {entry} is corrupt"
  | .tooLarge entry => s!"entry {entry} is too large"

end ArchiveError

end ClassPatch
