import ClassPatch.Bytecode.Opcode
import ClassPatch.Text.Quoted

namespace ClassPatch

/-- The kind of constant that a pool index was expected to name. -/
inductive ConstantKind where
  /-- Any entry of the pool at all. -/
  | pool
  | utf8
  | classRef
  | nameAndType
  | fieldref
  | methodref
  | methodHandle
  | invokeDynamic
  /-- A constant that `ldc` can load. -/
  | loadable
  | integer
  | long
  | float
  | double
  deriving DecidableEq, Repr, Inhabited

namespace ConstantKind

/-- The name of the kind in messages. -/
def name : ConstantKind → String
  | .pool => "pool"
  | .utf8 => "Utf8"
  | .classRef => "Class"
  | .nameAndType => "NameAndType"
  | .fieldref => "Fieldref"
  | .methodref => "Methodref"
  | .methodHandle => "MethodHandle"
  | .invokeDynamic => "InvokeDynamic"
  | .loadable => "loadable"
  | .integer => "Integer"
  | .long => "Long"
  | .float => "Float"
  | .double => "Double"

end ConstantKind

/-- Why bytes are not a class file this library reads, or why a class model cannot be
written as one. -/
inductive FormatError where
  /-- The input ends in the middle of a structure. -/
  | truncated
  /-- The file does not start with `0xCAFEBABE`. -/
  | badMagic (magic : UInt32)
  /-- The pool would need an index past 65535 to hold `constant`. -/
  | constantPoolOverflow (constant : String) (offset : Nat)
  /-- The index is out of the pool, lands in the slot after a `long` or `double`, or names a
  constant of another kind. -/
  | badConstantIndex (index : UInt16) (expected : ConstantKind)
  | unknownConstantTag (tag : UInt8)
  | unknownHandleKind (kind : UInt8)
  | invalidModifiedUtf8 (bytes : List UInt8)
  /-- The index is outside the bootstrap method table, or dynamic constants nest too deep. -/
  | badBootstrapMethod (index : UInt16)
  | unknownOpcode (opcode : UInt8) (offset : Nat)
  /-- The offset is neither the start of an instruction nor the end of the code. -/
  | invalidCodeOffset (offset : Int)
  /-- A switch whose bounds or key count do not match its targets. -/
  | invalidSwitch (offset : Nat)
  | badDescriptor (descriptor : String)
  | unknownFrameType (tag : UInt8)
  | unknownVerificationType (tag : UInt8)
  | unknownElementValueTag (tag : UInt8)
  /-- A frame at or before the offset of the frame before it. -/
  | frameOrder (offset : Nat)
  /-- A frame that a stack map table cannot express. -/
  | invalidFrame (reason : String)
  | missingLabel (label : Nat)
  | duplicateLabel (label : Nat)
  /-- A jump whose offset does not fit its encoding. -/
  | jumpOverflow (opcode : Opcode) (offset : Nat) (target : Nat)
  /-- Code longer than the 65535 bytes that offsets can address. -/
  | methodCodeOverflow (length : Nat)
  | operandOverflow (opcode : Opcode) (operand : Int)
  deriving DecidableEq, Repr, Inhabited

namespace FormatError

def hex8 (n : Nat) : String :=
  let digits := (Nat.toDigits 16 n).map Char.toUpper
  String.ofList (List.replicate (8 - digits.length) '0' ++ digits)

def hex2 (n : Nat) : String :=
  let digits := Nat.toDigits 16 n
  String.ofList (List.replicate (2 - digits.length) '0' ++ digits)

def byteList (bytes : List UInt8) : String :=
  "[" ++ ", ".intercalate (bytes.map fun b => toString b.toNat) ++ "]"

def variant : FormatError → String
  | .truncated => "Truncated"
  | .badMagic _ => "BadMagic"
  | .constantPoolOverflow .. => "ConstantPoolOverflow"
  | .badConstantIndex .. => "BadConstantIndex"
  | .unknownConstantTag _ => "UnknownConstantTag"
  | .unknownHandleKind _ => "UnknownHandleKind"
  | .invalidModifiedUtf8 _ => "InvalidModifiedUtf8"
  | .badBootstrapMethod _ => "BadBootstrapMethod"
  | .unknownOpcode .. => "UnknownOpcode"
  | .invalidCodeOffset _ => "InvalidCodeOffset"
  | .invalidSwitch _ => "InvalidSwitch"
  | .badDescriptor _ => "BadDescriptor"
  | .unknownFrameType _ => "UnknownFrameType"
  | .unknownVerificationType _ => "UnknownVerificationType"
  | .unknownElementValueTag _ => "UnknownElementValueTag"
  | .frameOrder _ => "FrameOrder"
  | .invalidFrame _ => "InvalidFrame"
  | .missingLabel _ => "MissingLabel"
  | .duplicateLabel _ => "DuplicateLabel"
  | .jumpOverflow .. => "JumpOverflow"
  | .methodCodeOverflow _ => "MethodCodeOverflow"
  | .operandOverflow .. => "OperandOverflow"

def message : FormatError → String
  | .truncated => "class file is truncated"
  | .badMagic magic => "bad class file magic 0x" ++ hex8 magic.toNat
  | .constantPoolOverflow constant offset =>
    s!"constant pool overflow at {offset} inserting {constant}"
  | .badConstantIndex index expected =>
    s!"constant #{index.toNat} is not a valid {expected.name} constant"
  | .unknownConstantTag tag => s!"unknown constant tag {tag.toNat}"
  | .unknownHandleKind kind => s!"unknown method handle kind {kind.toNat}"
  | .invalidModifiedUtf8 bytes => "invalid modified UTF-8 string " ++ byteList bytes
  | .badBootstrapMethod index => s!"no bootstrap method {index.toNat}"
  | .unknownOpcode opcode offset => "unknown opcode 0x" ++ hex2 opcode.toNat ++ s!" at offset {offset}"
  | .invalidCodeOffset offset => s!"invalid code offset {offset}"
  | .invalidSwitch offset => s!"malformed switch at offset {offset}"
  | .badDescriptor descriptor => "bad method descriptor " ++ Quoted.string descriptor
  | .unknownFrameType tag => s!"unknown stack map frame type {tag.toNat}"
  | .unknownVerificationType tag => s!"unknown verification type {tag.toNat}"
  | .unknownElementValueTag tag => "unknown element value tag " ++ Quoted.char (Char.ofNat tag.toNat)
  | .frameOrder offset => s!"out of order frame at offset {offset}"
  | .invalidFrame reason => "invalid frame: " ++ reason
  | .missingLabel label => s!"label L{label} is never placed"
  | .duplicateLabel label => s!"label L{label} is placed twice"
  | .jumpOverflow opcode offset target =>
    opcode.mnemonic ++ s!" at offset {offset} cannot reach offset {target}"
  | .methodCodeOverflow length => s!"method code is too long ({length} bytes)"
  | .operandOverflow opcode operand => s!"operand {operand} does not fit in " ++ opcode.mnemonic

end FormatError

end ClassPatch
