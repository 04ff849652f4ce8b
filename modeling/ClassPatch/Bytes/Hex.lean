namespace ClassPatch

/-- Why a text is not the hexadecimal form of a byte string. -/
inductive HexError where
  /-- The text has an odd number of bytes, so the last digit has no partner. -/
  | oddLength
  /-- The byte at `position` is not a hexadecimal digit; it is reported as a Latin-1 character. -/
  | invalidCharacter (byte : UInt8) (position : Nat)
  deriving DecidableEq, Repr, Inhabited

/-- A library of hexadecimal text: the text of bytes, and the bytes of a text. -/
structure HexLibrary where
  encode : List UInt8 → String
  decode : String → Except HexError (List UInt8)

/-- The library reads back the bytes of the text it writes. -/
def HexLibrary.Lossless (L : HexLibrary) : Prop := ∀ bytes, L.decode (L.encode bytes) = .ok bytes

namespace Hex

def digit (value : Nat) : Char :=
  if value < 10 then Char.ofNat (48 + value) else Char.ofNat (87 + value)

def pair (byte : UInt8) : List Char :=
  [digit (byte.toNat / 16), digit (byte.toNat % 16)]

/-- The lower-case hexadecimal text of a byte string. -/
def encode (bytes : List UInt8) : String :=
  String.ofList (bytes.flatMap pair)

def value? (byte : UInt8) : Option UInt8 :=
  if 48 ≤ byte ∧ byte ≤ 57 then some (byte - 48)
  else if 97 ≤ byte ∧ byte ≤ 102 then some (byte - 87)
  else if 65 ≤ byte ∧ byte ≤ 70 then some (byte - 55)
  else none

def decodePairs (position : Nat) : List UInt8 → Except HexError (List UInt8)
  | [] => .ok []
  | [_] => .error .oddLength
  | high :: low :: rest =>
    match value? high, value? low with
    | none, _ => .error (.invalidCharacter high position)
    | some _, none => .error (.invalidCharacter low (position + 1))
    | some h, some l => (decodePairs (position + 2) rest).map ((h * 16 + l) :: ·)

/-- The bytes that a hexadecimal text stands for. An odd length is refused before any digit is
looked at. -/
def decode (text : String) : Except HexError (List UInt8) :=
  let raw := text.toUTF8.toList
  if raw.length % 2 = 1 then .error .oddLength else decodePairs 0 raw

/-- The library the program runs with. -/
def library : HexLibrary := ⟨encode, decode⟩

end Hex

end ClassPatch
