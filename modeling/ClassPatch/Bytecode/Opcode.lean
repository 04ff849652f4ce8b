namespace ClassPatch

/-- One byte of bytecode in the role of an operation. -/
structure Opcode where
  code : UInt8
  deriving DecidableEq, Repr, Inhabited, Hashable, Ord

namespace Opcode

def mnemonics : List String :=
  ["nop", "aconst_null", "iconst_m1", "iconst_0", "iconst_1", "iconst_2", "iconst_3", "iconst_4",
   "iconst_5", "lconst_0", "lconst_1", "fconst_0", "fconst_1", "fconst_2", "dconst_0", "dconst_1",
   "bipush", "sipush", "ldc", "ldc_w", "ldc2_w", "iload", "lload", "fload", "dload", "aload",
   "iload_0", "iload_1", "iload_2", "iload_3", "lload_0", "lload_1", "lload_2", "lload_3",
   "fload_0", "fload_1", "fload_2", "fload_3", "dload_0", "dload_1", "dload_2", "dload_3",
   "aload_0", "aload_1", "aload_2", "aload_3", "iaload", "laload", "faload", "daload", "aaload",
   "baload", "caload", "saload", "istore", "lstore", "fstore", "dstore", "astore", "istore_0",
   "istore_1", "istore_2", "istore_3", "lstore_0", "lstore_1", "lstore_2", "lstore_3", "fstore_0",
   "fstore_1", "fstore_2", "fstore_3", "dstore_0", "dstore_1", "dstore_2", "dstore_3", "astore_0",
   "astore_1", "astore_2", "astore_3", "iastore", "lastore", "fastore", "dastore", "aastore",
   "bastore", "castore", "sastore", "pop", "pop2", "dup", "dup_x1", "dup_x2", "dup2", "dup2_x1",
   "dup2_x2", "swap", "iadd", "ladd", "fadd", "dadd", "isub", "lsub", "fsub", "dsub", "imul",
   "lmul", "fmul", "dmul", "idiv", "ldiv", "fdiv", "ddiv", "irem", "lrem", "frem", "drem", "ineg",
   "lneg", "fneg", "dneg", "ishl", "lshl", "ishr", "lshr", "iushr", "lushr", "iand", "land",
   "ior", "lor", "ixor", "lxor", "iinc", "i2l", "i2f", "i2d", "l2i", "l2f", "l2d", "f2i", "f2l",
   "f2d", "d2i", "d2l", "d2f", "i2b", "i2c", "i2s", "lcmp", "fcmpl", "fcmpg", "dcmpl", "dcmpg",
   "ifeq", "ifne", "iflt", "ifge", "ifgt", "ifle", "if_icmpeq", "if_icmpne", "if_icmplt",
   "if_icmpge", "if_icmpgt", "if_icmple", "if_acmpeq", "if_acmpne", "goto", "jsr", "ret",
   "tableswitch", "lookupswitch", "ireturn", "lreturn", "freturn", "dreturn", "areturn", "return",
   "getstatic", "putstatic", "getfield", "putfield", "invokevirtual", "invokespecial",
   "invokestatic", "invokeinterface", "invokedynamic", "new", "newarray", "anewarray",
   "arraylength", "athrow", "checkcast", "instanceof", "monitorenter", "monitorexit", "wide",
   "multianewarray", "ifnull", "ifnonnull", "goto_w", "jsr_w"]

def isValid (op : Opcode) : Bool := op.code.toNat < 202

def mnemonic (op : Opcode) : String :=
  mnemonics.getD op.code.toNat "<invalid>"

def ofMnemonic? (name : String) : Option Opcode :=
  (mnemonics.idxOf? name).map fun i => ⟨i.toUInt8⟩

def invertedBranch? (op : Opcode) : Option Opcode :=
  if 0x99 ≤ op.code && op.code ≤ 0xA6 then some ⟨((op.code - 0x99) ^^^ 1) + 0x99⟩
  else if op.code == 0xC6 || op.code == 0xC7 then some ⟨op.code ^^^ 1⟩
  else none

def nop : Opcode := ⟨0x00⟩
def bipush : Opcode := ⟨0x10⟩
def sipush : Opcode := ⟨0x11⟩
def ldc : Opcode := ⟨0x12⟩
def ldcWide : Opcode := ⟨0x13⟩
def ldc2Wide : Opcode := ⟨0x14⟩
def iload : Opcode := ⟨0x15⟩
def istore : Opcode := ⟨0x36⟩
def iinc : Opcode := ⟨0x84⟩
def goto : Opcode := ⟨0xA7⟩
def jsr : Opcode := ⟨0xA8⟩
def ret : Opcode := ⟨0xA9⟩
def tableswitch : Opcode := ⟨0xAA⟩
def lookupswitch : Opcode := ⟨0xAB⟩
def invokeinterface : Opcode := ⟨0xB9⟩
def invokedynamic : Opcode := ⟨0xBA⟩
def newarray : Opcode := ⟨0xBC⟩
def wide : Opcode := ⟨0xC4⟩
def multianewarray : Opcode := ⟨0xC5⟩
def gotoWide : Opcode := ⟨0xC8⟩
def jsrWide : Opcode := ⟨0xC9⟩

/-- `goto_w` and `jsr_w`, whose offsets take four bytes. -/
def isWideJump (op : Opcode) : Bool := op == gotoWide || op == jsrWide

end Opcode

end ClassPatch
