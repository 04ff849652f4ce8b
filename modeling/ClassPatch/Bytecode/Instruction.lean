import ClassPatch.Bytecode.Opcode
import ClassPatch.Bytecode.Frame
import ClassPatch.Model.Constant

namespace ClassPatch

/-- A name for a position in one method body. -/
structure Label where
  id : Nat
  deriving DecidableEq, Repr, Inhabited, Hashable, Ord

/-- A field of a class. -/
structure FieldRef where
  owner : String
  name : String
  descriptor : String
  deriving DecidableEq, Repr, Inhabited, Hashable

/-- A method of a class, or of an interface when `isInterface` holds. -/
structure MethodRef where
  owner : String
  name : String
  descriptor : String
  isInterface : Bool
  deriving DecidableEq, Repr, Inhabited, Hashable

/-- One element of a method body, naming positions by `L`. -/
inductive Instruction (L : Type) where
  /-- An instruction without operands. -/
  | simple (op : Opcode)
  /-- `bipush`, `sipush` or `newarray` with its operand. -/
  | int (op : Opcode) (value : Int32)
  /-- A load, a store or `ret` of a local variable. -/
  | var (op : Opcode) (index : UInt16)
  /-- `new`, `anewarray`, `checkcast` or `instanceof` of a class. -/
  | type (op : Opcode) (name : String)
  | field (op : Opcode) (ref : FieldRef)
  | method (op : Opcode) (ref : MethodRef)
  | invokeDynamic (name : String) (descriptor : String) (bootstrap : MethodHandle)
      (arguments : List Constant)
  /-- A branch; `goto_w` and `jsr_w` are read as `goto` and `jsr`. -/
  | jump (op : Opcode) (target : L)
  | tableSwitch (low : Int32) (high : Int32) (default : L) (targets : List L)
  | lookupSwitch (default : L) (keys : List Int32) (targets : List L)
  | iinc (index : UInt16) (increment : Int16)
  | multiANewArray (descriptor : String) (dimensions : UInt8)
  /-- A load of a constant, by `ldc`, `ldc_w` or `ldc2_w`. -/
  | ldc (constant : Constant)
  /-- The marker where a label points. -/
  | label (l : L)
  /-- The marker of a source line starting at `start`. -/
  | lineNumber (line : UInt16) (start : L)
  /-- The marker of a stack map frame at this point. -/
  | frame (f : Frame String L)
  deriving BEq, Repr, Inhabited

def switchPadding (offset : Nat) : Nat := (4 - (offset + 1) % 4) % 4

/-- An exception handler: the positions of the covered range and of the handler, and the class
it catches, or every exception when `none`. -/
structure Handler (L : Type) where
  start : L
  «end» : L
  handler : L
  catchType : Option String
  deriving DecidableEq, BEq, Repr, Inhabited

namespace Instruction

variable {L L' ε : Type}

def opcode? : Instruction L → Option Opcode
  | .simple op | .int op _ | .var op _ | .type op _ | .field op _ | .method op _ | .jump op _ =>
    some op
  | .invokeDynamic .. => some Opcode.invokedynamic
  | .tableSwitch .. => some Opcode.tableswitch
  | .lookupSwitch .. => some Opcode.lookupswitch
  | .iinc .. => some Opcode.iinc
  | .multiANewArray .. => some Opcode.multianewarray
  | .ldc _ => some Opcode.ldc
  | .label _ | .lineNumber .. | .frame _ => none

def isMarker (i : Instruction L) : Bool := i.opcode?.isNone

/-- Whether the element is a frame marker. -/
def isFrame : Instruction L → Bool
  | .frame _ => true
  | _ => false

def kindIndex : Instruction L → Nat
  | .simple _ => 0
  | .int .. => 1
  | .var .. => 2
  | .type .. => 3
  | .field .. => 4
  | .method .. => 5
  | .invokeDynamic .. => 6
  | .jump .. => 7
  | .tableSwitch .. => 8
  | .lookupSwitch .. => 9
  | .iinc .. => 10
  | .multiANewArray .. => 11
  | .ldc _ => 12
  | .label _ => 13
  | .lineNumber .. => 14
  | .frame _ => 15

def targets : Instruction L → List L
  | .jump _ t => [t]
  | .tableSwitch _ _ d ts => d :: ts
  | .lookupSwitch d _ ts => d :: ts
  | _ => []

def mapLabelsM (f : L → Except ε L') : Instruction L → Except ε (Instruction L')
  | .simple op => .ok (.simple op)
  | .int op v => .ok (.int op v)
  | .var op i => .ok (.var op i)
  | .type op n => .ok (.type op n)
  | .field op r => .ok (.field op r)
  | .method op r => .ok (.method op r)
  | .invokeDynamic n d b a => .ok (.invokeDynamic n d b a)
  | .jump op t => (f t).map (.jump op)
  | .tableSwitch lo hi d ts => do
    let d' ← f d
    let ts' ← ts.mapM f
    pure (.tableSwitch lo hi d' ts')
  | .lookupSwitch d ks ts => do
    let d' ← f d
    let ts' ← ts.mapM f
    pure (.lookupSwitch d' ks ts')
  | .iinc i n => .ok (.iinc i n)
  | .multiANewArray d n => .ok (.multiANewArray d n)
  | .ldc c => .ok (.ldc c)
  | .label l => (f l).map .label
  | .lineNumber line s => (f s).map (.lineNumber line)
  | .frame fr => (fr.mapM (fun c => pure c) f).map .frame

/-- Renames every position. -/
def mapLabels (f : L → L') : Instruction L → Instruction L'
  | .simple op => .simple op
  | .int op v => .int op v
  | .var op i => .var op i
  | .type op n => .type op n
  | .field op r => .field op r
  | .method op r => .method op r
  | .invokeDynamic n d b a => .invokeDynamic n d b a
  | .jump op t => .jump op (f t)
  | .tableSwitch lo hi d ts => .tableSwitch lo hi (f d) (ts.map f)
  | .lookupSwitch d ks ts => .lookupSwitch (f d) ks (ts.map f)
  | .iinc i n => .iinc i n
  | .multiANewArray d n => .multiANewArray d n
  | .ldc c => .ldc c
  | .label l => .label (f l)
  | .lineNumber line s => .lineNumber line (f s)
  | .frame fr => .frame (fr.map id f)

end Instruction

end ClassPatch
