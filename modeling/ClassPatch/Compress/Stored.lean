namespace ClassPatch

namespace Stored

def blockLimit : Nat := 65535

def le16 (n : Nat) : List UInt8 := [(n % 256).toUInt8, (n / 256 % 256).toUInt8]

def block (final : Bool) (data : List UInt8) : List UInt8 :=
  (if final then 1 else 0) :: le16 data.length ++ le16 (0xFFFF - data.length) ++ data

/-- The blocks of the bytes, with at most `fuel` blocks. -/
def blocks : Nat → List UInt8 → List UInt8
  | 0, data => block true data
  | fuel + 1, data =>
    if data.length ≤ blockLimit then block true data
    else block false (data.take blockLimit) ++ blocks fuel (data.drop blockLimit)

def deflate (data : List UInt8) : List UInt8 := blocks (data.length / blockLimit + 1) data

end Stored

end ClassPatch
