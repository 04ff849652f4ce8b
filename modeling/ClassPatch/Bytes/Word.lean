namespace ClassPatch

namespace BigEndian

/-- The `n` bytes of the low `8 * n` bits of `v`, most significant first. -/
def bytes (n : Nat) (v : Nat) : List UInt8 :=
  (List.range n).reverse.map fun i => (v / Nat.pow 256 i % 256).toUInt8

def u16 (v : UInt16) : List UInt8 := bytes 2 v.toNat

def u32 (v : UInt32) : List UInt8 := bytes 4 v.toNat

def u64 (v : UInt64) : List UInt8 := bytes 8 v.toNat

/-- The `n` bytes of an integer in two's complement, most significant first. -/
def int (n : Nat) (v : Int) : List UInt8 := bytes n (v % (Nat.pow 256 n : Nat)).toNat

/-- The number that bytes stand for, most significant first. -/
def value (bs : List UInt8) : Nat :=
  bs.foldl (fun acc b => acc * 256 + b.toNat) 0

end BigEndian

namespace LittleEndian

/-- The `n` bytes of the low `8 * n` bits of `v`, least significant first. -/
def bytes (n : Nat) (v : Nat) : List UInt8 :=
  (List.range n).map fun i => (v / Nat.pow 256 i % 256).toUInt8

def u16 (v : UInt16) : List UInt8 := bytes 2 v.toNat

def u32 (v : UInt32) : List UInt8 := bytes 4 v.toNat

/-- The number that bytes stand for, least significant first. -/
def value (bs : List UInt8) : Nat :=
  bs.foldr (fun b acc => acc * 256 + b.toNat) 0

end LittleEndian

end ClassPatch
