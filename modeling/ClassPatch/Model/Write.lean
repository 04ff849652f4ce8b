import ClassPatch.Bytecode.Layout
import ClassPatch.Model.ElementValue

namespace ClassPatch

namespace Build

def indexAttribute (name : String) (index : UInt16) : Build RawAttribute :=
  attributeNamed name (BigEndian.u16 index)

def signature (text : String) : Build RawAttribute := do
  let index ← utf8 text
  indexAttribute "Signature" index

def present {α : Type} (f : α → Build RawAttribute) : Option α → Build (List RawAttribute)
  | some a => return [← f a]
  | none => pure []

end Build

namespace FieldModel

def write (f : FieldModel) : Build RawMember := do
  let name ← Build.utf8 f.name
  let descriptor ← Build.utf8 f.descriptor
  let value ← Build.present (fun c => do
    let index ← Build.constant c
    Build.indexAttribute "ConstantValue" index) f.value
  let signature ← Build.present Build.signature f.signature
  pure { access := f.access, name, descriptor, attributes := value ++ signature }

end FieldModel

namespace MethodModel

def write (m : MethodModel) : Build RawMember := do
  let name ← Build.utf8 m.name
  let descriptor ← Build.utf8 m.descriptor
  let code ← if m.instructions.isEmpty then pure [] else do
    let c ← m.code
    let a ← Build.attributeNamed "Code" c.encode
    pure [a]
  let exceptions ← if m.exceptions.isEmpty then pure [] else do
    let classes ← m.exceptions.mapM Build.classRef
    let a ← Build.attributeNamed "Exceptions" (Writer.list BigEndian.u16 classes)
    pure [a]
  let signature ← Build.present Build.signature m.signature
  let annotationDefault ← Build.present (fun v => do
    let stored ← Build.elementValue v
    Build.attributeNamed "AnnotationDefault" stored.encode) m.annotationDefault
  pure { access := m.access, name, descriptor,
         attributes := code ++ exceptions ++ signature ++ annotationDefault }

end MethodModel

namespace ClassModel

def enclosing (c : ClassModel) (outer : String) : Build RawAttribute := do
  let cls ← Build.classRef outer
  let method ← match c.outerMethod, c.outerMethodDescriptor with
    | some name, some descriptor => Build.nameAndType name descriptor
    | _, _ => pure 0
  Build.attributeNamed "EnclosingMethod" (BigEndian.u16 cls ++ BigEndian.u16 method)

def innerEntry (e : InnerClassEntry) : Build RawInnerClass := do
  let inner ← Build.classRef e.name
  let outer ← match e.outerName with
    | some name => Build.classRef name
    | none => pure 0
  let name ← match e.innerName with
    | some name => Build.utf8 name
    | none => pure 0
  pure { inner, outer, name, access := e.access }

/-- The attributes of a class, in order. -/
def attributes (c : ClassModel) : Build (List RawAttribute) := do
  let sourceFile ← Build.present (fun s => do
    let index ← Build.utf8 s
    Build.indexAttribute "SourceFile" index) c.sourceFile
  let sourceDebug ← Build.present (fun s =>
    Build.attributeNamed "SourceDebugExtension" (ModifiedUtf8.encode (JavaString.ofString s)))
    c.sourceDebug
  let signature ← Build.present Build.signature c.signature
  let enclosing ← Build.present c.enclosing c.outerClass
  let nestHost ← Build.present (fun s => do
    let index ← Build.classRef s
    Build.indexAttribute "NestHost" index) c.nestHost
  let nestMembers ← if c.nestMembers.isEmpty then pure [] else do
    let members ← c.nestMembers.mapM Build.classRef
    let a ← Build.attributeNamed "NestMembers" (Writer.list BigEndian.u16 members)
    pure [a]
  let innerClasses ← if c.innerClasses.isEmpty then pure [] else do
    let entries ← c.innerClasses.mapM innerEntry
    let a ← Build.attributeNamed "InnerClasses" (Writer.list RawInnerClass.encode entries)
    pure [a]
  let table := (← get).bootstrap
  let bootstrap ← if table.isEmpty then pure [] else do
    let a ← Build.attributeNamed "BootstrapMethods" (Writer.list BootstrapEntry.encode table)
    pure [a]
  pure (sourceFile ++ sourceDebug ++ signature ++ enclosing ++ nestHost ++ nestMembers ++
    innerClasses ++ bootstrap)

/-- The stored form of a class. -/
def toRaw (c : ClassModel) : Except FormatError RawClass := do
  let build : Build RawClass := do
    let this ← Build.classRef c.name
    let super ← match c.superName with
      | some name => Build.classRef name
      | none => pure 0
    let interfaces ← c.interfaces.mapM Build.classRef
    let fields ← c.fields.mapM FieldModel.write
    let methods ← c.methods.mapM MethodModel.write
    let attributes ← c.attributes
    pure { version := c.version, pool := {}, access := c.access, this, super, interfaces, fields,
           methods, attributes }
  let (raw, builder) ← build.run {}
  pure { raw with pool := builder.pool }

def toBytes (c : ClassModel) : Except FormatError (List UInt8) :=
  c.toRaw.map RawClass.encode

end ClassModel

end ClassPatch
