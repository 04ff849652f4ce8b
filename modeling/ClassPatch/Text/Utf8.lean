namespace ClassPatch

namespace Utf8

def replacement : Char := '�'

def isContinuation (b : UInt8) : Bool := 0x80 ≤ b && b ≤ 0xBF

def lead? (b : UInt8) : Option (Nat × UInt8 × UInt8) :=
  if 0xC2 ≤ b && b ≤ 0xDF then some (1, 0x80, 0xBF)
  else if b == 0xE0 then some (2, 0xA0, 0xBF)
  else if 0xE1 ≤ b && b ≤ 0xEC then some (2, 0x80, 0xBF)
  else if b == 0xED then some (2, 0x80, 0x9F)
  else if 0xEE ≤ b && b ≤ 0xEF then some (2, 0x80, 0xBF)
  else if b == 0xF0 then some (3, 0x90, 0xBF)
  else if 0xF1 ≤ b && b ≤ 0xF3 then some (3, 0x80, 0xBF)
  else if b == 0xF4 then some (3, 0x80, 0x8F)
  else none

def codePoint (lead : UInt8) (follow : List UInt8) : Nat :=
  let leadBits := match follow.length with
    | 1 => lead.toNat % 32
    | 2 => lead.toNat % 16
    | _ => lead.toNat % 8
  follow.foldl (fun acc b => acc * 64 + b.toNat % 64) leadBits

def decodeWith : Nat → List UInt8 → List Char
  | 0, _ => []
  | _, [] => []
  | fuel + 1, b :: rest =>
    if b < 0x80 then Char.ofNat b.toNat :: decodeWith fuel rest
    else
      match lead? b with
      | none => replacement :: decodeWith fuel rest
      | some (count, lo, hi) =>
        match rest with
        | second :: _ =>
          if lo ≤ second && second ≤ hi then
            let good := 1 + (((rest.drop 1).take (count - 1)).takeWhile isContinuation).length
            if good == count then
              Char.ofNat (codePoint b (rest.take count)) :: decodeWith fuel (rest.drop count)
            else replacement :: decodeWith fuel (rest.drop good)
          else replacement :: decodeWith fuel rest
        | [] => replacement :: decodeWith fuel rest

def decodeLossy (bytes : List UInt8) : String := String.ofList (decodeWith bytes.length bytes)

end Utf8

end ClassPatch
