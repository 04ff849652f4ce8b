import ClassPatch.ClassFile.Reader
import ClassPatch.Text.ModifiedUtf8

namespace ClassPatch

/-- What a method handle does with the member it refers to. -/
inductive HandleKind where
  | getField
  | getStatic
  | putField
  | putStatic
  | invokeVirtual
  | invokeStatic
  | invokeSpecial
  | newInvokeSpecial
  | invokeInterface
  deriving DecidableEq, Repr, Inhabited, Hashable

namespace HandleKind

def all : List HandleKind :=
  [.getField, .getStatic, .putField, .putStatic, .invokeVirtual, .invokeStatic, .invokeSpecial,
   .newInvokeSpecial, .invokeInterface]

/-- The byte that stands for the kind. -/
def code : HandleKind → UInt8
  | .getField => 1
  | .getStatic => 2
  | .putField => 3
  | .putStatic => 4
  | .invokeVirtual => 5
  | .invokeStatic => 6
  | .invokeSpecial => 7
  | .newInvokeSpecial => 8
  | .invokeInterface => 9

def ofCode? (b : UInt8) : Option HandleKind :=
  all.find? (·.code == b)

def isField : HandleKind → Bool
  | .getField | .getStatic | .putField | .putStatic => true
  | _ => false

/-- The name of the kind in JSON forms. -/
def name : HandleKind → String
  | .getField => "GetField"
  | .getStatic => "GetStatic"
  | .putField => "PutField"
  | .putStatic => "PutStatic"
  | .invokeVirtual => "InvokeVirtual"
  | .invokeStatic => "InvokeStatic"
  | .invokeSpecial => "InvokeSpecial"
  | .newInvokeSpecial => "NewInvokeSpecial"
  | .invokeInterface => "InvokeInterface"

def ofName? (s : String) : Option HandleKind :=
  all.find? (·.name == s)

end HandleKind

/-- One entry of a constant pool, referring to other entries by their index. -/
inductive PoolEntry where
  | utf8 (text : JavaString)
  | integer (value : Int32)
  | float (bits : UInt32)
  | long (value : Int64)
  | double (bits : UInt64)
  | classRef (name : UInt16)
  | string (text : UInt16)
  | fieldref (owner : UInt16) (nameAndType : UInt16)
  /-- A method of a class, or of an interface when `isInterface` holds. -/
  | methodref (owner : UInt16) (nameAndType : UInt16) (isInterface : Bool)
  | nameAndType (name : UInt16) (descriptor : UInt16)
  | methodHandle (kind : HandleKind) (member : UInt16)
  | methodType (descriptor : UInt16)
  /-- A constant computed by the bootstrap method at index `bootstrap` of the table. -/
  | dynamic (bootstrap : UInt16) (nameAndType : UInt16)
  | invokeDynamic (bootstrap : UInt16) (nameAndType : UInt16)
  | module (name : UInt16)
  | package (name : UInt16)
  deriving DecidableEq, Repr, Inhabited

namespace PoolEntry

/-- Slots the entry takes in the pool. -/
def width : PoolEntry → Nat
  | .long _ | .double _ => 2
  | _ => 1

/-- The bytes of an entry: its tag, then its contents. The length of a text keeps the low 16 bits
of its byte count. -/
def encode : PoolEntry → List UInt8
  | .utf8 text =>
    let bytes := ModifiedUtf8.encode text
    1 :: BigEndian.u16 bytes.length.toUInt16 ++ bytes
  | .integer v => 3 :: BigEndian.u32 v.toUInt32
  | .float bits => 4 :: BigEndian.u32 bits
  | .long v => 5 :: BigEndian.u64 v.toUInt64
  | .double bits => 6 :: BigEndian.u64 bits
  | .classRef name => 7 :: BigEndian.u16 name
  | .string text => 8 :: BigEndian.u16 text
  | .fieldref owner nat => 9 :: BigEndian.u16 owner ++ BigEndian.u16 nat
  | .methodref owner nat isInterface =>
    (if isInterface then 11 else 10) :: BigEndian.u16 owner ++ BigEndian.u16 nat
  | .nameAndType name descriptor => 12 :: BigEndian.u16 name ++ BigEndian.u16 descriptor
  | .methodHandle kind member => 15 :: kind.code :: BigEndian.u16 member
  | .methodType descriptor => 16 :: BigEndian.u16 descriptor
  | .dynamic bootstrap nat => 17 :: BigEndian.u16 bootstrap ++ BigEndian.u16 nat
  | .invokeDynamic bootstrap nat => 18 :: BigEndian.u16 bootstrap ++ BigEndian.u16 nat
  | .module name => 19 :: BigEndian.u16 name
  | .package name => 20 :: BigEndian.u16 name

/-- Reads one entry. A text must be modified UTF-8. -/
def read : Reader PoolEntry := do
  let tag ← Reader.u8
  match tag with
  | 1 =>
    let len ← Reader.u16
    let bytes ← Reader.bytes len.toNat
    match ModifiedUtf8.decode? bytes with
    | some text => pure (.utf8 text)
    | none => Reader.fail (.invalidModifiedUtf8 bytes)
  | 3 => return .integer (← Reader.i32)
  | 4 => return .float (← Reader.u32)
  | 5 => return .long (← Reader.i64)
  | 6 => return .double (← Reader.u64)
  | 7 => return .classRef (← Reader.u16)
  | 8 => return .string (← Reader.u16)
  | 9 => do
    let owner ← Reader.u16
    let nat ← Reader.u16
    pure (.fieldref owner nat)
  | 10 | 11 => do
    let owner ← Reader.u16
    let nat ← Reader.u16
    pure (.methodref owner nat (tag == 11))
  | 12 => do
    let name ← Reader.u16
    let descriptor ← Reader.u16
    pure (.nameAndType name descriptor)
  | 15 => do
    let code ← Reader.u8
    match HandleKind.ofCode? code with
    | some kind => return .methodHandle kind (← Reader.u16)
    | none => Reader.fail (.unknownHandleKind code)
  | 16 => return .methodType (← Reader.u16)
  | 17 => do
    let bootstrap ← Reader.u16
    let nat ← Reader.u16
    pure (.dynamic bootstrap nat)
  | 18 => do
    let bootstrap ← Reader.u16
    let nat ← Reader.u16
    pure (.invokeDynamic bootstrap nat)
  | 19 => return .module (← Reader.u16)
  | 20 => return .package (← Reader.u16)
  | other => Reader.fail (.unknownConstantTag other)

end PoolEntry

end ClassPatch
