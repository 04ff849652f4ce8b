import ClassPatch.Bytecode.Instruction
import ClassPatch.ClassFile.Raw

namespace ClassPatch

/-- An entry of the inner classes table. -/
structure InnerClassEntry where
  name : String
  /-- `none` for local and anonymous classes. -/
  outerName : Option String
  /-- `none` for anonymous classes. -/
  innerName : Option String
  access : UInt16
  deriving DecidableEq, Repr, Inhabited

/-- A field. -/
structure FieldModel where
  name : String
  descriptor : String
  access : UInt16
  signature : Option String
  /-- The constant the field starts with. -/
  value : Option Constant
  deriving BEq, Repr, Inhabited

/-- A method, with its body; the body is empty for abstract and native methods. -/
structure MethodModel where
  name : String
  descriptor : String
  access : UInt16
  signature : Option String
  exceptions : List String
  annotationDefault : Option ElementValue
  maxStack : UInt16
  maxLocals : UInt16
  instructions : List (Instruction Label)
  handlers : List (Handler Label)
  deriving BEq, Repr, Inhabited

def MethodModel.key (m : MethodModel) : String × String := (m.name, m.descriptor)

/-- A class. -/
structure ClassModel where
  /-- Internal name, such as `java/util/Map$Entry`. -/
  name : String
  access : UInt16
  version : ClassVersion
  /-- `none` only for `java/lang/Object` and module descriptors. -/
  superName : Option String
  interfaces : List String
  signature : Option String
  sourceFile : Option String
  sourceDebug : Option String
  /-- The class enclosing a local or anonymous class. -/
  outerClass : Option String
  /-- The method enclosing a local or anonymous class. -/
  outerMethod : Option String
  outerMethodDescriptor : Option String
  nestHost : Option String
  nestMembers : List String
  innerClasses : List InnerClassEntry
  fields : List FieldModel
  methods : List MethodModel
  deriving BEq, Repr, Inhabited

/-- What the class reader leaves out: line numbers, and stack map frames. -/
structure ReadOptions where
  skipDebug : Bool := false
  skipFrames : Bool := false
  deriving DecidableEq, Repr, Inhabited

end ClassPatch
