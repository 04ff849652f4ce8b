import ClassPatch.Model.Constant
import ClassPatch.Bytecode.Instruction
import ClassPatch.ClassFile.Attribute

namespace ClassPatch

/-- A pool under construction with its bootstrap method table. -/
structure PoolBuilder where
  pool : Pool := {}
  bootstrap : List BootstrapEntry := []
  deriving Inhabited

/-- A step of building a pool, which fails when the pool overflows. -/
abbrev Build := StateT PoolBuilder (Except FormatError)

namespace Build

def fail {α : Type} (e : FormatError) : Build α := fun _ => .error e

/-- The index of an entry, appending it if needed. -/
def entry (e : PoolEntry) : Build UInt16 := fun b =>
  match b.pool.intern e with
  | .ok (i, pool) => .ok (i, { b with pool })
  | .error err => .error err

def javaUtf8 (s : JavaString) : Build UInt16 := entry (.utf8 s)

def utf8 (s : String) : Build UInt16 := javaUtf8 (JavaString.ofString s)

def classRef (name : String) : Build UInt16 := do
  let n ← utf8 name
  entry (.classRef n)

def string (s : JavaString) : Build UInt16 := do
  let t ← javaUtf8 s
  entry (.string t)

/-- A name and a descriptor. -/
def nameAndType (name descriptor : String) : Build UInt16 := do
  let n ← utf8 name
  let d ← utf8 descriptor
  entry (.nameAndType n d)

def fieldRef (f : FieldRef) : Build UInt16 := do
  let c ← classRef f.owner
  let nat ← nameAndType f.name f.descriptor
  entry (.fieldref c nat)

def methodRef (m : MethodRef) : Build UInt16 := do
  let c ← classRef m.owner
  let nat ← nameAndType m.name m.descriptor
  entry (.methodref c nat m.isInterface)

def handle (h : MethodHandle) : Build UInt16 := do
  let member ← if h.kind.isField then fieldRef ⟨h.owner, h.name, h.descriptor⟩
    else methodRef ⟨h.owner, h.name, h.descriptor, h.isInterface⟩
  entry (.methodHandle h.kind member)

def bootstrapEntry (e : BootstrapEntry) : Build UInt16 := fun b =>
  match b.bootstrap.idxOf? e with
  | some i => .ok (i.toUInt16, b)
  | none => .ok (b.bootstrap.length.toUInt16, { b with bootstrap := b.bootstrap ++ [e] })

mutual

def constant : Constant → Build UInt16
  | .integer v => entry (.integer v)
  | .float bits => entry (.float bits)
  | .long v => entry (.long v)
  | .double bits => entry (.double bits)
  | .string s => string s
  | .classRef name => classRef name
  | .methodType descriptor => do
    let d ← utf8 descriptor
    entry (.methodType d)
  | .methodHandle h => handle h
  | .dynamic name descriptor bootstrap arguments => do
    let h ← handle bootstrap
    let args ← constants arguments
    let b ← bootstrapEntry ⟨h, args⟩
    let nat ← nameAndType name descriptor
    entry (.dynamic b nat)

def constants : List Constant → Build (List UInt16)
  | [] => pure []
  | c :: rest => do
    let i ← constant c
    let is ← constants rest
    pure (i :: is)

end

def bootstrapMethod (h : MethodHandle) (arguments : List Constant) : Build UInt16 := do
  let hi ← handle h
  let args ← constants arguments
  bootstrapEntry ⟨hi, args⟩

def attributeNamed (name : String) (info : List UInt8) : Build RawAttribute := do
  let n ← utf8 name
  pure ⟨n, info⟩

end Build

end ClassPatch
