import ClassPatch.Compress.Crc32
import ClassPatch.Compress.Inflate
import ClassPatch.Compress.Stored

namespace ClassPatch

/-- A deflate library: a compressor, a decompressor that fails on a stream it cannot decode,
and a checksum of bytes. -/
structure DeflateLibrary where
  deflate : List UInt8 → List UInt8
  inflate : List UInt8 → Option (List UInt8)
  crc : List UInt8 → UInt32

namespace DeflateLibrary

/-- The decompressor gives back the bytes the compressor was given. -/
def Inverts (L : DeflateLibrary) : Prop := ∀ bytes, L.inflate (L.deflate bytes) = some bytes

/-- Stored blocks, the decoder of this project, and its CRC-32. -/
def stored : DeflateLibrary where
  deflate := Stored.deflate
  inflate data :=
    match ClassPatch.inflate data.toArray 0 with
    | (out, .done _) => some out.toList
    | _ => none
  crc := Crc32.checksum

end DeflateLibrary

end ClassPatch
