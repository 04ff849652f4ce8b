import ClassPatch.Model.Constant
import ClassPatch.Bytecode.Instruction
import ClassPatch.ClassFile.Attribute

namespace ClassPatch

/-- A pool with the bootstrap method table that its dynamic entries refer to. -/
structure Resolver where
  pool : Pool
  bootstrap : List BootstrapEntry
  deriving Inhabited

namespace Resolver

/-- How deep dynamic constants may nest through bootstrap arguments. -/
def maxDynamicDepth : Nat := 64

def fieldRef (r : Resolver) (index : UInt16) : Except FormatError FieldRef := do
  match ← r.pool.entry index with
  | .fieldref owner nat => do
    let (name, descriptor) ← r.pool.nameAndType nat
    let owner ← r.pool.className owner
    pure { owner, name, descriptor }
  | _ => throw (.badConstantIndex index .fieldref)

def methodRef (r : Resolver) (index : UInt16) : Except FormatError MethodRef := do
  match ← r.pool.entry index with
  | .methodref owner nat isInterface => do
    let (name, descriptor) ← r.pool.nameAndType nat
    let owner ← r.pool.className owner
    pure { owner, name, descriptor, isInterface }
  | _ => throw (.badConstantIndex index .methodref)

def handle (r : Resolver) (index : UInt16) : Except FormatError MethodHandle := do
  match ← r.pool.entry index with
  | .methodHandle kind member =>
    if kind.isField then do
      let f ← r.fieldRef member
      pure { kind, owner := f.owner, name := f.name, descriptor := f.descriptor,
             isInterface := false }
    else do
      let m ← r.methodRef member
      pure { kind, owner := m.owner, name := m.name, descriptor := m.descriptor,
             isInterface := m.isInterface }
  | _ => throw (.badConstantIndex index .methodHandle)

def bootstrapEntry (r : Resolver) (index : UInt16) : Except FormatError BootstrapEntry :=
  match r.bootstrap[index.toNat]? with
  | some e => .ok e
  | none => .error (.badBootstrapMethod index)

def loadableWithin (r : Resolver) (budget : Nat) (index : UInt16) : Except FormatError Constant := do
  match ← r.pool.entry index with
  | .integer v => pure (.integer v)
  | .float bits => pure (.float bits)
  | .long v => pure (.long v)
  | .double bits => pure (.double bits)
  | .string text => return .string (← r.pool.javaUtf8 text)
  | .classRef name => return .classRef (← r.pool.utf8 name)
  | .methodType descriptor => return .methodType (← r.pool.utf8 descriptor)
  | .methodHandle .. => return .methodHandle (← r.handle index)
  | .dynamic b nat =>
    match budget with
    | 0 => throw (.badBootstrapMethod b)
    | n + 1 => do
      let (name, descriptor) ← r.pool.nameAndType nat
      let entry ← r.bootstrapEntry b
      let bootstrap ← r.handle entry.method
      let arguments ← entry.arguments.mapM (r.loadableWithin n)
      pure (.dynamic name descriptor bootstrap arguments)
  | _ => throw (.badConstantIndex index .loadable)

/-- The loadable constant at `index`. -/
def loadable (r : Resolver) (index : UInt16) : Except FormatError Constant :=
  r.loadableWithin maxDynamicDepth index

/-- The call site at `index`: name, descriptor, bootstrap method and its arguments. -/
def invokeDynamic (r : Resolver) (index : UInt16) :
    Except FormatError (String × String × MethodHandle × List Constant) := do
  match ← r.pool.entry index with
  | .invokeDynamic b nat => do
    let (name, descriptor) ← r.pool.nameAndType nat
    let entry ← r.bootstrapEntry b
    let bootstrap ← r.handle entry.method
    let arguments ← entry.arguments.mapM (r.loadableWithin maxDynamicDepth)
    pure (name, descriptor, bootstrap, arguments)
  | _ => throw (.badConstantIndex index .invokeDynamic)

end Resolver

end ClassPatch
