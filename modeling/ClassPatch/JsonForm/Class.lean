import ClassPatch.JsonForm.Code
import ClassPatch.Model.Class

namespace ClassPatch

namespace ClassVersion

def toJson (v : ClassVersion) : Json :=
  .obj [("major", .int v.major.toNat), ("minor", .int v.minor.toNat)]

/-- Reads a version; the minor version is 0 unless given. -/
def ofJson? (_ : String) (j : Json) : Except String ClassVersion := do
  let major ← j.need "major" Json.toUInt16
  let minor ← j.withDefault "minor" 0 Json.toUInt16
  pure { major, minor }

end ClassVersion

def Json.strings (items : List String) : Json := .arr (items.map .str)

def Json.stringsAt (j : Json) (key : String) : Except String (List String) :=
  j.withDefault key [] fun k v => Json.mapItems k (Json.toStr k) v

namespace InnerClassEntry

def toJson (e : InnerClassEntry) : Json :=
  .obj [("name", .str e.name), ("outer_name", Json.opt .str e.outerName),
    ("inner_name", Json.opt .str e.innerName), ("access", .int e.access.toNat)]

/-- Reads an inner classes entry. -/
def ofJson? (_ : String) (j : Json) : Except String InnerClassEntry := do
  let name ← j.need "name" Json.toStr
  let outerName ← j.optional "outer_name" Json.toStr
  let innerName ← j.optional "inner_name" Json.toStr
  let access ← j.withDefault "access" 0 Json.toUInt16
  pure { name, outerName, innerName, access }

end InnerClassEntry

namespace FieldModel

def toJson (f : FieldModel) : Json :=
  .obj [("name", .str f.name), ("descriptor", .str f.descriptor), ("access", .int f.access.toNat),
    ("signature", Json.opt .str f.signature), ("value", Json.opt Constant.toJson f.value)]

/-- Reads a field; it is private unless its access is given. -/
def ofJson? (_ : String) (j : Json) : Except String FieldModel := do
  let name ← j.need "name" Json.toStr
  let descriptor ← j.need "descriptor" Json.toStr
  let access ← j.withDefault "access" 2 Json.toUInt16
  let signature ← j.optional "signature" Json.toStr
  let value ← j.optional "value" Constant.ofJson?
  pure { name, descriptor, access, signature, value }

end FieldModel

namespace MethodModel

def toJson (m : MethodModel) : Json :=
  .obj [("name", .str m.name), ("descriptor", .str m.descriptor), ("access", .int m.access.toNat),
    ("signature", Json.opt .str m.signature), ("exceptions", Json.strings m.exceptions),
    ("annotation_default", Json.opt ElementValue.toJson m.annotationDefault),
    ("max_stack", .int m.maxStack.toNat), ("max_locals", .int m.maxLocals.toNat),
    ("instructions", .arr (m.instructions.map Instruction.toJson)),
    ("handlers", .arr (m.handlers.map Handler.toJson))]

def bodyOfJson? (j : Json) : Except String (List (Instruction Label) × List (Handler Label)) := do
  let instructions ← j.withDefault "instructions" [] fun k v =>
    Json.mapItems k (Instruction.ofJson? k) v
  let handlers ← j.withDefault "handlers" [] fun k v => Json.mapItems k (Handler.ofJson? k) v
  pure (instructions, handlers)

/-- Reads a method; it is public unless its access is given. -/
def ofJson? (_ : String) (j : Json) : Except String MethodModel := do
  let name ← j.need "name" Json.toStr
  let descriptor ← j.need "descriptor" Json.toStr
  let access ← j.withDefault "access" 1 Json.toUInt16
  let signature ← j.optional "signature" Json.toStr
  let exceptions ← j.stringsAt "exceptions"
  let annotationDefault ← j.optional "annotation_default" ElementValue.ofJson?
  let maxStack ← j.withDefault "max_stack" 0 Json.toUInt16
  let maxLocals ← j.withDefault "max_locals" 0 Json.toUInt16
  let (instructions, handlers) ← bodyOfJson? j
  pure { name, descriptor, access, signature, exceptions, annotationDefault, maxStack, maxLocals,
         instructions, handlers }

end MethodModel

namespace ClassModel

def toJson (c : ClassModel) : Json :=
  .obj [("name", .str c.name), ("access", .int c.access.toNat), ("version", c.version.toJson),
    ("super", Json.opt .str c.superName), ("interfaces", Json.strings c.interfaces),
    ("signature", Json.opt .str c.signature), ("source_file", Json.opt .str c.sourceFile),
    ("source_debug", Json.opt .str c.sourceDebug), ("outer_class", Json.opt .str c.outerClass),
    ("outer_method", Json.opt .str c.outerMethod),
    ("outer_method_descriptor", Json.opt .str c.outerMethodDescriptor),
    ("nest_host", Json.opt .str c.nestHost), ("nest_members", Json.strings c.nestMembers),
    ("inner_classes", .arr (c.innerClasses.map InnerClassEntry.toJson)),
    ("fields", .arr (c.fields.map FieldModel.toJson)),
    ("methods", .arr (c.methods.map MethodModel.toJson))]

def superOfJson? (j : Json) : Except String (Option String) :=
  match j.get? "super" with
  | none => .ok (some "java/lang/Object")
  | some .null => .ok none
  | some v => (Json.toStr "super" v).map some

/-- Reads a class. -/
def ofJson? (_ : String) (j : Json) : Except String ClassModel := do
  let name ← j.need "name" Json.toStr
  let access ← j.withDefault "access" 33 Json.toUInt16
  let version ← j.withDefault "version" ClassVersion.java8 ClassVersion.ofJson?
  let superName ← superOfJson? j
  let interfaces ← j.stringsAt "interfaces"
  let text (key : String) := j.optional key Json.toStr
  let signature ← text "signature"
  let sourceFile ← text "source_file"
  let sourceDebug ← text "source_debug"
  let outerClass ← text "outer_class"
  let outerMethod ← text "outer_method"
  let outerMethodDescriptor ← text "outer_method_descriptor"
  let nestHost ← text "nest_host"
  let nestMembers ← j.stringsAt "nest_members"
  let innerClasses ← j.withDefault "inner_classes" [] fun k v =>
    Json.mapItems k (InnerClassEntry.ofJson? k) v
  let fields ← j.withDefault "fields" [] fun k v => Json.mapItems k (FieldModel.ofJson? k) v
  let methods ← j.withDefault "methods" [] fun k v => Json.mapItems k (MethodModel.ofJson? k) v
  pure { name, access, version, superName, interfaces, signature, sourceFile, sourceDebug,
         outerClass, outerMethod, outerMethodDescriptor, nestHost, nestMembers, innerClasses,
         fields, methods }

end ClassModel

end ClassPatch
