import ClassPatch.Bytes.Word
import ClassPatch.ClassFile.Error

namespace ClassPatch

/-- A reader of class file structures: a value and the unread rest, or the error. -/
abbrev Reader := StateT (List UInt8) (Except FormatError)

namespace Reader

/-- Runs a reader on bytes. -/
def run {α : Type} (r : Reader α) (input : List UInt8) : Except FormatError (α × List UInt8) :=
  StateT.run r input

/-- The next `n` bytes. -/
def bytes (n : Nat) : Reader (List UInt8) := fun input =>
  if n ≤ input.length then .ok (input.take n, input.drop n) else .error .truncated

/-- All the bytes that are left. -/
def rest : Reader (List UInt8) := fun input => .ok (input, [])

def u8 : Reader UInt8 := fun input =>
  match input with
  | b :: more => .ok (b, more)
  | [] => .error .truncated

def u16 : Reader UInt16 := do
  let bs ← bytes 2
  pure (BigEndian.value bs).toUInt16

def u32 : Reader UInt32 := do
  let bs ← bytes 4
  pure (BigEndian.value bs).toUInt32

def u64 : Reader UInt64 := do
  let bs ← bytes 8
  pure (BigEndian.value bs).toUInt64

def i8 : Reader Int8 := do
  pure (← u8).toInt8

def i16 : Reader Int16 := do
  pure (← u16).toInt16

def i32 : Reader Int32 := do
  pure (← u32).toInt32

def i64 : Reader Int64 := do
  pure (← u64).toInt64

def times {α : Type} (r : Reader α) : Nat → Reader (List α)
  | 0 => pure []
  | n + 1 => do
    let a ← r
    let more ← times r n
    pure (a :: more)

/-- A 16-bit count, then that many items. -/
def list {α : Type} (r : Reader α) : Reader (List α) := do
  let n ← u16
  times r n.toNat

def fail {α : Type} (e : FormatError) : Reader α := fun _ => .error e

end Reader

namespace Writer

/-- A 16-bit count of the items, then the bytes of each item. The count keeps the low 16 bits of
the length. -/
def list {α : Type} (f : α → List UInt8) (items : List α) : List UInt8 :=
  BigEndian.u16 items.length.toUInt16 ++ items.flatMap f

end Writer

end ClassPatch
