import ClassPatch.ClassFile.Pool
import ClassPatch.Bytecode.Frame

namespace ClassPatch

/-- A named blob of bytes attached to a class, field, method or code attribute. -/
structure RawAttribute where
  name : UInt16
  info : List UInt8
  deriving DecidableEq, Repr, Inhabited

namespace RawAttribute

/-- Reads the name index, a 32-bit length and that many bytes. -/
def read : Reader RawAttribute := do
  let name ← Reader.u16
  let len ← Reader.u32
  let info ← Reader.bytes len.toNat
  pure { name, info }

/-- The name index, the length of the info and the info. -/
def encode (a : RawAttribute) : List UInt8 :=
  BigEndian.u16 a.name ++ BigEndian.u32 a.info.length.toUInt32 ++ a.info

/-- Reads the attribute's info with `r`, ignoring bytes after what `r` reads. -/
def decode {α : Type} (a : RawAttribute) (r : Reader α) : Except FormatError α :=
  (r.run a.info).map (·.1)

end RawAttribute

/-- An entry of the exception table of a code attribute, as offsets into the code. -/
structure RawHandler where
  start : UInt16
  «end» : UInt16
  handler : UInt16
  /-- A class index, or 0 for a handler that catches everything. -/
  catchType : UInt16
  deriving DecidableEq, Repr, Inhabited

/-- The `Code` attribute: limits, bytecode, exception table and nested attributes. -/
structure CodeAttribute where
  maxStack : UInt16
  maxLocals : UInt16
  code : List UInt8
  handlers : List RawHandler
  attributes : List RawAttribute
  deriving Repr, Inhabited

namespace CodeAttribute

/-- Reads the limits, the 32-bit length of the code and the code, the table and attributes. -/
def read : Reader CodeAttribute := do
  let maxStack ← Reader.u16
  let maxLocals ← Reader.u16
  let len ← Reader.u32
  let code ← Reader.bytes len.toNat
  let handlers ← Reader.list do
    let start ← Reader.u16
    let stop ← Reader.u16
    let handler ← Reader.u16
    let catchType ← Reader.u16
    pure { start, «end» := stop, handler, catchType : RawHandler }
  let attributes ← Reader.list RawAttribute.read
  pure { maxStack, maxLocals, code, handlers, attributes }

/-- The bytes of a code attribute. -/
def encode (c : CodeAttribute) : List UInt8 :=
  BigEndian.u16 c.maxStack ++ BigEndian.u16 c.maxLocals ++
  BigEndian.u32 c.code.length.toUInt32 ++ c.code ++
  Writer.list (fun h => BigEndian.u16 h.start ++ BigEndian.u16 h.«end» ++
    BigEndian.u16 h.handler ++ BigEndian.u16 h.catchType) c.handlers ++
  Writer.list RawAttribute.encode c.attributes

end CodeAttribute

/-- A frame in a class file: its offset delta and its contents. -/
structure StackMapFrame where
  delta : UInt16
  frame : Frame UInt16 UInt16
  deriving DecidableEq, Repr, Inhabited

namespace VerificationType

/-- Reads a type: its tag, and a class index or an offset for the last two. -/
def read : Reader (VerificationType UInt16 UInt16) := do
  let tag ← Reader.u8
  match tag with
  | 0 => pure .top
  | 1 => pure .integer
  | 2 => pure .float
  | 3 => pure .double
  | 4 => pure .long
  | 5 => pure .null
  | 6 => pure .uninitializedThis
  | 7 => return .object (← Reader.u16)
  | 8 => return .uninitialized (← Reader.u16)
  | other => Reader.fail (.unknownVerificationType other)

/-- The bytes of a type. -/
def encode : VerificationType UInt16 UInt16 → List UInt8
  | .top => [0]
  | .integer => [1]
  | .float => [2]
  | .double => [3]
  | .long => [4]
  | .null => [5]
  | .uninitializedThis => [6]
  | .object c => 7 :: BigEndian.u16 c
  | .uninitialized u => 8 :: BigEndian.u16 u

end VerificationType

namespace StackMapFrame

/-- Reads a frame by its tag: 0 to 63 and 251 are `same`, 64 to 127 and 247 have one stack item,
248 to 250 chop, 252 to 254 append, and 255 is full. -/
def read : Reader StackMapFrame := do
  let tag ← Reader.u8
  if tag < 64 then pure ⟨tag.toUInt16, .same⟩
  else if tag < 128 then return ⟨(tag - 64).toUInt16, .sameLocalsOneStack (← VerificationType.read)⟩
  else if tag == 247 then do
    let delta ← Reader.u16
    return ⟨delta, .sameLocalsOneStack (← VerificationType.read)⟩
  else if 248 ≤ tag && tag ≤ 250 then return ⟨← Reader.u16, .chop (251 - tag)⟩
  else if tag == 251 then return ⟨← Reader.u16, .same⟩
  else if 252 ≤ tag && tag ≤ 254 then do
    let delta ← Reader.u16
    let locals ← Reader.times VerificationType.read (tag - 251).toNat
    pure ⟨delta, .append locals⟩
  else if tag == 255 then do
    let delta ← Reader.u16
    let locals ← Reader.list VerificationType.read
    let stack ← Reader.list VerificationType.read
    pure ⟨delta, .full locals stack⟩
  else Reader.fail (.unknownFrameType tag)

/-- The bytes of a frame, in the short form where the delta fits in it. -/
def encode (f : StackMapFrame) : List UInt8 :=
  match f.frame with
  | .same =>
    if f.delta ≤ 63 then [f.delta.toUInt8] else 251 :: BigEndian.u16 f.delta
  | .sameLocalsOneStack t =>
    (if f.delta ≤ 63 then [f.delta.toUInt8 + 64] else 247 :: BigEndian.u16 f.delta) ++
      VerificationType.encode t
  | .chop k => (251 - k) :: BigEndian.u16 f.delta
  | .append locals =>
    (251 + locals.length.toUInt8) :: BigEndian.u16 f.delta ++ locals.flatMap VerificationType.encode
  | .full locals stack =>
    255 :: BigEndian.u16 f.delta ++ Writer.list VerificationType.encode locals ++
      Writer.list VerificationType.encode stack

end StackMapFrame

/-- An entry of the bootstrap method table: a method handle and its static arguments. -/
structure BootstrapEntry where
  method : UInt16
  arguments : List UInt16
  deriving DecidableEq, Repr, Inhabited

namespace BootstrapEntry

/-- Reads the handle index and the list of argument indices. -/
def read : Reader BootstrapEntry := do
  let method ← Reader.u16
  let arguments ← Reader.list Reader.u16
  pure { method, arguments }

/-- The bytes of an entry. -/
def encode (b : BootstrapEntry) : List UInt8 :=
  BigEndian.u16 b.method ++ Writer.list BigEndian.u16 b.arguments

end BootstrapEntry

/-- An entry of the `InnerClasses` attribute, as pool indices. -/
structure RawInnerClass where
  inner : UInt16
  /-- 0 for local and anonymous classes. -/
  outer : UInt16
  /-- 0 for anonymous classes. -/
  name : UInt16
  access : UInt16
  deriving DecidableEq, Repr, Inhabited

namespace RawInnerClass

/-- Reads the four indices and flags. -/
def read : Reader RawInnerClass := do
  let inner ← Reader.u16
  let outer ← Reader.u16
  let name ← Reader.u16
  let access ← Reader.u16
  pure { inner, outer, name, access }

/-- The bytes of an entry. -/
def encode (c : RawInnerClass) : List UInt8 :=
  BigEndian.u16 c.inner ++ BigEndian.u16 c.outer ++ BigEndian.u16 c.name ++ BigEndian.u16 c.access

end RawInnerClass

/-- A line number entry: the offset where the line starts and the line. -/
structure RawLine where
  start : UInt16
  line : UInt16
  deriving DecidableEq, Repr, Inhabited

namespace RawLine

/-- Reads the offset and the line. -/
def read : Reader RawLine := do
  let start ← Reader.u16
  let line ← Reader.u16
  pure { start, line }

/-- The bytes of an entry. -/
def encode (l : RawLine) : List UInt8 := BigEndian.u16 l.start ++ BigEndian.u16 l.line

end RawLine

/-- An annotation element value as stored: tags and pool indices. -/
inductive RawElementValue where
  /-- A constant of tag `B`, `C`, `D`, `F`, `I`, `J`, `S`, `Z` or `s`. -/
  | constant (tag : UInt8) (index : UInt16)
  | enum (typeName : UInt16) (constName : UInt16)
  | classLiteral (descriptor : UInt16)
  | annotationValue (typeIndex : UInt16) (pairs : List (UInt16 × RawElementValue))
  | array (values : List RawElementValue)
  deriving Repr, Inhabited

namespace RawElementValue

def isConstantTag (tag : UInt8) : Bool :=
  [66, 67, 68, 70, 73, 74, 83, 90, 115].contains tag.toNat

/-- Reads a value; `fuel` bounds the nesting, and a value nested deeper than the input is long
runs out of input anyway. -/
def read : Nat → Reader RawElementValue
  | 0 => Reader.fail .truncated
  | fuel + 1 => do
    let tag ← Reader.u8
    if isConstantTag tag then return .constant tag (← Reader.u16)
    else if tag == 101 then do
      let typeName ← Reader.u16
      let constName ← Reader.u16
      pure (.enum typeName constName)
    else if tag == 99 then return .classLiteral (← Reader.u16)
    else if tag == 64 then do
      let typeIndex ← Reader.u16
      let pairs ← Reader.list do
        let name ← Reader.u16
        let value ← read fuel
        pure (name, value)
      pure (.annotationValue typeIndex pairs)
    else if tag == 91 then return .array (← Reader.list (read fuel))
    else Reader.fail (.unknownElementValueTag tag)

mutual

/-- The bytes of a value. -/
def encode : RawElementValue → List UInt8
  | .constant tag index => tag :: BigEndian.u16 index
  | .enum typeName constName => 101 :: BigEndian.u16 typeName ++ BigEndian.u16 constName
  | .classLiteral descriptor => 99 :: BigEndian.u16 descriptor
  | .annotationValue typeIndex pairs =>
    64 :: BigEndian.u16 typeIndex ++ BigEndian.u16 pairs.length.toUInt16 ++ encodePairs pairs
  | .array values => 91 :: BigEndian.u16 values.length.toUInt16 ++ encodeList values

def encodePairs : List (UInt16 × RawElementValue) → List UInt8
  | [] => []
  | (name, value) :: rest => BigEndian.u16 name ++ encode value ++ encodePairs rest

def encodeList : List RawElementValue → List UInt8
  | [] => []
  | value :: rest => encode value ++ encodeList rest

end

end RawElementValue

def readIndex : Reader UInt16 := Reader.u16

end ClassPatch
