namespace ClassPatch

namespace Crc32

def polynomial : UInt32 := 0xEDB88320

def shift (c : UInt32) : UInt32 :=
  if c &&& 1 == 1 then (c >>> 1) ^^^ polynomial else c >>> 1

def shifts : Nat → UInt32 → UInt32
  | 0, c => c
  | n + 1, c => shifts n (shift c)

def shift8 (c : UInt32) : UInt32 := shifts 8 c

/-- The eight shifts of every low byte. -/
def table : Array UInt32 := Array.ofFn fun i : Fin 256 => shift8 i.val.toUInt32

def step (c : UInt32) (b : UInt8) : UInt32 :=
  table.getD ((c ^^^ b.toUInt32) &&& 0xFF).toNat 0 ^^^ (c >>> 8)

def checksum (bytes : List UInt8) : UInt32 := ~~~(bytes.foldl step 0xFFFFFFFF)

def checksumArray (bytes : Array UInt8) : UInt32 := ~~~(bytes.foldl step 0xFFFFFFFF)

end Crc32

end ClassPatch
