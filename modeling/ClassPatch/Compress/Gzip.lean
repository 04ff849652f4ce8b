import ClassPatch.Compress.Crc32
import ClassPatch.Compress.Inflate
import ClassPatch.Compress.Stored

namespace ClassPatch

/-- A gzip library: the member that holds some bytes, and the bytes a reader gets from a member
with whether asking for more after them fails. -/
structure GzipLibrary where
  compress : List UInt8 → List UInt8
  decompress : List UInt8 → List UInt8 × Bool

/-- A reader of a member the library writes gets the bytes it holds, and then a clean end. -/
def GzipLibrary.Lossless (L : GzipLibrary) : Prop :=
  ∀ bytes, L.decompress (L.compress bytes) = (bytes, false)

namespace Gzip

def extraFlag : UInt8 := 0x04

def nameFlag : UInt8 := 0x08

def commentFlag : UInt8 := 0x10

def headerCheckFlag : UInt8 := 0x02

def reservedFlags : UInt8 := 0xE0

def window : Nat := 32768

def untilZero (bytes : List UInt8) : Option (List UInt8 × List UInt8) :=
  match bytes.span (· != 0) with
  | (field, 0 :: rest) => some (field ++ [0], rest)
  | _ => none

def optionalField (flags flag : UInt8) (take : List UInt8 → Option (List UInt8 × List UInt8))
    (bytes : List UInt8) : Option (List UInt8 × List UInt8) :=
  if flags &&& flag == 0 then some ([], bytes) else take bytes

def extraField (bytes : List UInt8) : Option (List UInt8 × List UInt8) :=
  match bytes with
  | lo :: hi :: rest =>
    let length := lo.toNat + 256 * hi.toNat
    if rest.length < length then none else some (lo :: hi :: rest.take length, rest.drop length)
  | _ => none

def headerLength (bytes : List UInt8) : Option Nat := do
  let fixed := bytes.take 10
  if fixed.length < 10 then none
  match fixed with
  | 0x1f :: 0x8b :: 0x08 :: flags :: _ =>
    if flags &&& reservedFlags != 0 then none
    let rest := bytes.drop 10
    let (extra, rest) ← optionalField flags extraFlag extraField rest
    let (name, rest) ← optionalField flags nameFlag untilZero rest
    let (comment, rest) ← optionalField flags commentFlag untilZero rest
    let before := fixed ++ extra ++ name ++ comment
    if flags &&& headerCheckFlag == 0 then pure before.length
    else
      match rest with
      | lo :: hi :: _ =>
        let check := (Crc32.checksum before).toNat % 65536
        if check == lo.toNat + 256 * hi.toNat then pure (before.length + 2) else none
      | _ => none
  | _ => none

def le32 (bytes : List UInt8) : Nat :=
  bytes.foldr (fun b acc => b.toNat + 256 * acc) 0

def trailerMatches (output : Array UInt8) (trailer : List UInt8) : Bool :=
  trailer.length ≥ 8 &&
    le32 (trailer.take 4) == (Crc32.checksumArray output).toNat &&
    le32 ((trailer.drop 4).take 4) == output.size % Nat.pow 2 32

/-- Reads a gzip member: the bytes a reader gets, and whether asking for more after them fails. -/
def decode (bytes : List UInt8) : List UInt8 × Bool :=
  match headerLength bytes with
  | none => ([], true)
  | some start =>
    let input := bytes.toArray
    match inflate input start with
    | (output, .done next) => (output.toList, !trailerMatches output (bytes.drop next))
    | (output, .truncated) => (output.toList, true)
    | (output, .corrupt) => (output.toList.take (output.size / window * window), true)

def le32Bytes (n : Nat) : List UInt8 := Stored.le16 (n % 65536) ++ Stored.le16 (n / 65536 % 65536)

/-- A member that holds the bytes in stored blocks, with no name, time or extra field. -/
def encode (bytes : List UInt8) : List UInt8 :=
  [0x1f, 0x8b, 0x08, 0, 0, 0, 0, 0, 0, 0xff] ++ Stored.deflate bytes ++
    le32Bytes (Crc32.checksum bytes).toNat ++ le32Bytes (bytes.length % Nat.pow 2 32)

/-- The library the program runs with. -/
def library : GzipLibrary := ⟨encode, decode⟩

end Gzip

end ClassPatch
