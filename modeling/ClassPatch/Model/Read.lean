import ClassPatch.Bytecode.Decode
import ClassPatch.Model.ElementValue

namespace ClassPatch

namespace FieldModel

def withAttribute (r : Resolver) (f : FieldModel) (a : RawAttribute) :
    Except FormatError FieldModel := do
  match ← r.pool.utf8 a.name with
  | "Signature" => return { f with signature := some (← r.pool.utf8 (← a.decode readIndex)) }
  | "ConstantValue" => return { f with value := some (← r.loadable (← a.decode readIndex)) }
  | _ => pure f

/-- Reads a field: its attributes, then its name and descriptor. -/
def read (r : Resolver) (m : RawMember) : Except FormatError FieldModel := do
  let f ← m.attributes.foldlM (withAttribute r)
    { name := "", descriptor := "", access := m.access, signature := none, value := none }
  let name ← r.pool.utf8 m.name
  let descriptor ← r.pool.utf8 m.descriptor
  pure { f with name, descriptor }

end FieldModel

namespace MethodModel

def withAttribute (r : Resolver) (options : ReadOptions) (m : MethodModel) (a : RawAttribute) :
    Except FormatError MethodModel := do
  match ← r.pool.utf8 a.name with
  | "Code" => do
    let code ← a.decode CodeAttribute.read
    let (instructions, handlers) ← code.body r options
    pure { m with maxStack := code.maxStack, maxLocals := code.maxLocals, instructions, handlers }
  | "Signature" => return { m with signature := some (← r.pool.utf8 (← a.decode readIndex)) }
  | "Exceptions" => do
    let classes ← a.decode (Reader.list Reader.u16)
    return { m with exceptions := ← classes.mapM r.pool.className }
  | "AnnotationDefault" => do
    let value ← a.decode (RawElementValue.read (a.info.length + 1))
    return { m with annotationDefault := some (← r.elementValue value) }
  | _ => pure m

/-- Reads a method: its attributes, then its name and descriptor. -/
def read (r : Resolver) (options : ReadOptions) (m : RawMember) :
    Except FormatError MethodModel := do
  let start : MethodModel :=
    { name := "", descriptor := "", access := m.access, signature := none, exceptions := [],
      annotationDefault := none, maxStack := 0, maxLocals := 0, instructions := [],
      handlers := [] }
  let method ← m.attributes.foldlM (withAttribute r options) start
  let name ← r.pool.utf8 m.name
  let descriptor ← r.pool.utf8 m.descriptor
  pure { method with name, descriptor }

end MethodModel

def readEnclosing : Reader (UInt16 × UInt16) := do
  let cls ← Reader.u16
  let method ← Reader.u16
  pure (cls, method)

def sourceDebugText (bytes : List UInt8) : Except FormatError String :=
  match (ModifiedUtf8.decode? bytes).bind JavaString.toString? with
  | some text => .ok text
  | none => .error (.invalidModifiedUtf8 bytes)

namespace ClassModel

def withAttribute (r : Resolver) (c : ClassModel) (a : RawAttribute) :
    Except FormatError ClassModel := do
  match ← r.pool.utf8 a.name with
  | "Signature" => return { c with signature := some (← r.pool.utf8 (← a.decode readIndex)) }
  | "SourceFile" => return { c with sourceFile := some (← r.pool.utf8 (← a.decode readIndex)) }
  | "SourceDebugExtension" => return { c with sourceDebug := some (← sourceDebugText a.info) }
  | "EnclosingMethod" => do
    let (cls, method) ← a.decode readEnclosing
    let c := { c with outerClass := some (← r.pool.className cls) }
    if method = 0 then pure c
    else do
      let (name, descriptor) ← r.pool.nameAndType method
      pure { c with outerMethod := some name, outerMethodDescriptor := some descriptor }
  | "NestHost" => return { c with nestHost := some (← r.pool.className (← a.decode readIndex)) }
  | "NestMembers" => do
    let members ← a.decode (Reader.list Reader.u16)
    return { c with nestMembers := ← members.mapM r.pool.className }
  | "InnerClasses" => do
    let entries ← a.decode (Reader.list RawInnerClass.read)
    let inner ← entries.mapM fun e => do
      let name ← r.pool.className e.inner
      let outerName ← r.pool.optionalClassName e.outer
      let innerName ← r.pool.optionalUtf8 e.name
      pure { name, outerName, innerName, access := e.access : InnerClassEntry }
    pure { c with innerClasses := inner }
  | _ => pure c

def bootstrapTable (p : Pool) (attributes : List RawAttribute) :
    Except FormatError (List BootstrapEntry) :=
  attributes.foldlM (fun table a => do
    if (← p.utf8 a.name) == "BootstrapMethods" then a.decode (Reader.list BootstrapEntry.read)
    else pure table) []

def ofRaw (raw : RawClass) (options : ReadOptions) : Except FormatError ClassModel := do
  let bootstrap ← bootstrapTable raw.pool raw.attributes
  let r : Resolver := { pool := raw.pool, bootstrap }
  let name ← r.pool.className raw.this
  let superName ← r.pool.optionalClassName raw.super
  let interfaces ← raw.interfaces.mapM r.pool.className
  let fields ← raw.fields.mapM (FieldModel.read r)
  let methods ← raw.methods.mapM (MethodModel.read r options)
  let start : ClassModel :=
    { name, access := raw.access, version := raw.version, superName, interfaces,
      signature := none, sourceFile := none, sourceDebug := none, outerClass := none,
      outerMethod := none, outerMethodDescriptor := none, nestHost := none, nestMembers := [],
      innerClasses := [], fields, methods }
  raw.attributes.foldlM (withAttribute r) start

/-- Reads a class file into the model; bytes after the class file are ignored. -/
def parse (bytes : List UInt8) (options : ReadOptions) : Except FormatError ClassModel := do
  let (raw, _) ← RawClass.read.run bytes
  ofRaw raw options

end ClassModel

end ClassPatch
