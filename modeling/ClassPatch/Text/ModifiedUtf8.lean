import ClassPatch.Text.JavaString

namespace ClassPatch

namespace ModifiedUtf8

def encodeUnit (unit : UInt16) : List UInt8 :=
  if 0x0001 ≤ unit && unit ≤ 0x007F then [unit.toUInt8]
  else if unit ≤ 0x07FF then
    [(0xC0 : UInt8) ||| ((unit >>> 6) &&& 0x1F).toUInt8, (0x80 : UInt8) ||| (unit &&& 0x3F).toUInt8]
  else
    [(0xE0 : UInt8) ||| ((unit >>> 12) &&& 0x0F).toUInt8,
      (0x80 : UInt8) ||| ((unit >>> 6) &&& 0x3F).toUInt8, (0x80 : UInt8) ||| (unit &&& 0x3F).toUInt8]

def encodeUnits (units : List UInt16) : List UInt8 :=
  units.flatMap encodeUnit

/-- The modified UTF-8 bytes of a Java string. -/
def encode (s : JavaString) : List UInt8 :=
  encodeUnits s.units

def isContinuation (byte : UInt8) : Bool := byte &&& 0xC0 == 0x80

def payload (byte : UInt8) : UInt16 := (byte &&& 0x3F).toUInt16

def decodeUnits? : List UInt8 → Option (List UInt16)
  | [] => some []
  | lead :: rest =>
    if lead < 0x80 then (decodeUnits? rest).map (lead.toUInt16 :: ·)
    else if lead >>> 5 == 0x6 then
      match rest with
      | next :: rest' =>
        if isContinuation next then
          (decodeUnits? rest').map ((((lead &&& 0x1F).toUInt16) <<< 6 ||| payload next) :: ·)
        else none
      | [] => none
    else if lead >>> 4 == 0xE then
      match rest with
      | second :: third :: rest' =>
        if isContinuation second && isContinuation third then
          (decodeUnits? rest').map
            ((((lead &&& 0x0F).toUInt16) <<< 12 ||| payload second <<< 6 ||| payload third) :: ·)
        else none
      | _ => none
    else none

/-- The Java string of modified UTF-8 bytes, or `none` if a form is malformed. -/
def decode? (bytes : List UInt8) : Option JavaString :=
  (decodeUnits? bytes).map JavaString.ofUtf16

end ModifiedUtf8

end ClassPatch
