import ClassPatch.ClassFile.PoolEntry
import ClassPatch.Text.Quoted
import ClassPatch.Text.FloatText

namespace ClassPatch

/-- A constant pool: entries in order, each with the index of its first slot. -/
structure Pool where
  entries : List (Nat × PoolEntry) := []
  /-- The index the next entry would take. -/
  next : Nat := 1
  deriving Repr, Inhabited

namespace Pool

def narrow (slots : List Nat) (offset : Nat) : Nat → Nat → Nat → Nat
  | 0, base, _ => base
  | fuel + 1, base, size =>
    if size ≤ 1 then base
    else
      let mid := base + size / 2
      narrow slots offset fuel (if offset < slots.getD mid 0 then base else mid) (size - size / 2)

def search (slots : List Nat) (offset : Nat) : Except Nat Nat :=
  if slots.isEmpty then .error 0
  else
    let base := narrow slots offset slots.length 0 slots.length
    let slot := slots.getD base 0
    if slot = offset then .ok base
    else if slot < offset then .error (base + 1)
    else .error base

/-- The entry whose first slot is `offset`, found by binary search over the first slots. An
offset that is no first slot finds nothing, and where it would go is not kept. -/
def getOffset? (p : Pool) (offset : Nat) : Option PoolEntry :=
  match search (p.entries.map (·.1)) offset with
  | .ok position => p.entries[position]?.map (·.2)
  | .error _ => none

/-- The entry whose first slot is `index`. -/
def get? (p : Pool) (index : UInt16) : Option PoolEntry :=
  p.getOffset? index.toNat

def readEntries (count : Nat) : Nat → Nat → Reader (List (Nat × PoolEntry))
  | 0, _ => pure []
  | fuel + 1, index =>
    if index < count then do
      let e ← PoolEntry.read
      let more ← readEntries count fuel (index + e.width)
      pure ((index, e) :: more)
    else pure []

def nextAfter : List (Nat × PoolEntry) → Nat
  | [] => 1
  | [(i, e)] => i + e.width
  | _ :: rest => nextAfter rest

/-- Reads a pool: its count, then the entries. -/
def read : Reader Pool := do
  let count ← Reader.u16
  let entries ← readEntries count.toNat count.toNat 1
  pure { entries, next := nextAfter entries }

/-- The bytes of a pool: the next free index as its count, then the entries. -/
def encode (p : Pool) : List UInt8 :=
  BigEndian.u16 p.next.toUInt16 ++ p.entries.flatMap fun (_, e) => e.encode

def indexText (kind : Option String) (index : UInt16) : String :=
  let plain := "ConstantIndex(" ++ toString index ++ ")"
  match kind with
  | some name => name ++ "ConstantIndex(" ++ plain ++ ")"
  | none => plain

def textIndex : UInt16 → String := indexText (some "Utf8")

def classIndex : UInt16 → String := indexText (some "Class")

def nameAndTypeIndex : UInt16 → String := indexText (some "NameAndType")

def tupleText (name : String) (parts : List String) : String :=
  name ++ "(" ++ ", ".intercalate parts ++ ")"

def recordText (name : String) (parts : List (String × String)) : String :=
  name ++ " \x7b " ++ ", ".intercalate (parts.map fun (k, v) => k ++ ": " ++ v) ++ " \x7d"

def describe : PoolEntry → String
  | .utf8 text => tupleText "Utf8" [Quoted.javaString text]
  | .integer value => tupleText "Integer" [toString value.toInt]
  | .float bits => tupleText "Float" [FloatText.ofSingle bits]
  | .long value => tupleText "Long" [toString value.toInt]
  | .double bits => tupleText "Double" [FloatText.ofDouble bits]
  | .classRef name => tupleText "Class" [textIndex name]
  | .string text => tupleText "String" [textIndex text]
  | .fieldref owner nameAndType =>
    tupleText "FieldRef" [classIndex owner, nameAndTypeIndex nameAndType]
  | .methodref owner nameAndType isInterface =>
    recordText "MethodRef" [("class", classIndex owner),
      ("name_and_type", nameAndTypeIndex nameAndType), ("is_interface", toString isInterface)]
  | .nameAndType name descriptor =>
    recordText "NameAndType" [("name", textIndex name), ("descriptor", textIndex descriptor)]
  | .methodHandle kind member =>
    recordText "MethodHandle" [("handle_kind", kind.name), ("member", indexText none member)]
  | .methodType descriptor => recordText "MethodType" [("descriptor", textIndex descriptor)]
  | .dynamic bootstrap nameAndType =>
    recordText "Dynamic" [("bootstrap_method", toString bootstrap),
      ("name_and_type", nameAndTypeIndex nameAndType)]
  | .invokeDynamic bootstrap nameAndType =>
    recordText "InvokeDynamic" [("bootstrap_method", toString bootstrap),
      ("method_descriptor", nameAndTypeIndex nameAndType)]
  | .module name => tupleText "Module" [textIndex name]
  | .package name => tupleText "Package" [textIndex name]

def push (p : Pool) (e : PoolEntry) : Nat × Pool :=
  (p.next, { entries := p.entries ++ [(p.next, e)], next := p.next + e.width })

@[simp] theorem push_fst (p : Pool) (e : PoolEntry) : (p.push e).1 = p.next := rfl

@[simp] theorem push_entries (p : Pool) (e : PoolEntry) :
    (p.push e).2.entries = p.entries ++ [(p.next, e)] := rfl

@[simp] theorem push_next (p : Pool) (e : PoolEntry) : (p.push e).2.next = p.next + e.width := rfl

def pushConstant (p : Pool) (e : PoolEntry) : Except FormatError (UInt16 × Pool) :=
  if p.next + e.width > 65535 then .error (.constantPoolOverflow (describe e) p.next)
  else .ok ((p.push e).1.toUInt16, (p.push e).2)

/-- The index of `e`, appending it if the pool does not hold it yet. -/
def intern (p : Pool) (e : PoolEntry) : Except FormatError (UInt16 × Pool) :=
  match p.entries.find? (·.2 == e) with
  | some (i, _) => .ok (i.toUInt16, p)
  | none => p.pushConstant e

/-- The entry at `index`, or the error naming the pool. -/
def entry (p : Pool) (index : UInt16) : Except FormatError PoolEntry :=
  match p.get? index with
  | some e => .ok e
  | none => .error (.badConstantIndex index .pool)

def javaUtf8 (p : Pool) (index : UInt16) : Except FormatError JavaString :=
  match p.get? index with
  | some (.utf8 s) => .ok s
  | _ => .error (.badConstantIndex index .utf8)

def utf8 (p : Pool) (index : UInt16) : Except FormatError String := do
  let s ← p.javaUtf8 index
  match s.toString? with
  | some text => .ok text
  | none => .error (.invalidModifiedUtf8 (ModifiedUtf8.encode s))

def optionalUtf8 (p : Pool) (index : UInt16) : Except FormatError (Option String) :=
  if index = 0 then .ok none else (p.utf8 index).map some

def className (p : Pool) (index : UInt16) : Except FormatError String :=
  match p.get? index with
  | some (.classRef name) => p.utf8 name
  | _ => .error (.badConstantIndex index .classRef)

def optionalClassName (p : Pool) (index : UInt16) : Except FormatError (Option String) :=
  if index = 0 then .ok none else (p.className index).map some

/-- The name and descriptor at `index`. -/
def nameAndType (p : Pool) (index : UInt16) : Except FormatError (String × String) :=
  match p.get? index with
  | some (.nameAndType name descriptor) => do
    let n ← p.utf8 name
    let d ← p.utf8 descriptor
    pure (n, d)
  | _ => .error (.badConstantIndex index .nameAndType)

end Pool

end ClassPatch
