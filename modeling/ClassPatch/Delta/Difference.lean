import ClassPatch.Model.Class

namespace ClassPatch

/-- An added class, with the bytes it was read from when it came from a class file. Two added
classes are equal when their models are. -/
structure AddedClass where
  cls : ClassModel
  classFile : Option (List UInt8) := none
  deriving Repr, Inhabited

instance : BEq AddedClass := ⟨fun a b => a.cls == b.cls⟩

/-- The new value of a descriptive attribute that changed: `some none` when it was removed,
`none` when it did not change. -/
abbrev AttributeChange := Option (Option String)

/-- The descriptive attributes of a class that changed, with their new values. -/
structure MetadataChange where
  className : String
  outerClass : AttributeChange := none
  nestHost : AttributeChange := none
  outerMethod : AttributeChange := none
  outerMethodDescriptor : AttributeChange := none
  signature : AttributeChange := none
  sourceDebug : AttributeChange := none
  sourceFile : AttributeChange := none
  superName : AttributeChange := none
  deriving DecidableEq, Repr, Inhabited

def AttributeChange.between (old new : Option String) : AttributeChange :=
  if old = new then none else some new

def AttributeChange.applyTo (change : AttributeChange) (current : Option String) :
    Option String :=
  change.getD current

namespace MetadataChange

/-- Every attribute of the change, with its name as documents write it. -/
def entries (c : MetadataChange) : List (String × AttributeChange) :=
  [("outer_class", c.outerClass), ("nest_host", c.nestHost), ("outer_method", c.outerMethod),
   ("outer_method_descriptor", c.outerMethodDescriptor), ("signature", c.signature),
   ("source_debug", c.sourceDebug), ("source_file", c.sourceFile), ("super_name", c.superName)]

def isEmpty (c : MetadataChange) : Bool := c.entries.all fun (_, a) => a.isNone

def changesSuperClass (c : MetadataChange) : Bool := c.superName.isSome

def between (old new : ClassModel) : Option MetadataChange :=
  let change : MetadataChange :=
    { className := old.name
      outerClass := .between old.outerClass new.outerClass
      nestHost := .between old.nestHost new.nestHost
      outerMethod := .between old.outerMethod new.outerMethod
      outerMethodDescriptor := .between old.outerMethodDescriptor new.outerMethodDescriptor
      signature := .between old.signature new.signature
      sourceDebug := .between old.sourceDebug new.sourceDebug
      sourceFile := .between old.sourceFile new.sourceFile
      superName := .between old.superName new.superName }
  if change.isEmpty then none else some change

def applyTo (change : MetadataChange) (c : ClassModel) : ClassModel :=
  { c with
    outerClass := change.outerClass.applyTo c.outerClass
    nestHost := change.nestHost.applyTo c.nestHost
    outerMethod := change.outerMethod.applyTo c.outerMethod
    outerMethodDescriptor := change.outerMethodDescriptor.applyTo c.outerMethodDescriptor
    signature := change.signature.applyTo c.signature
    sourceDebug := change.sourceDebug.applyTo c.sourceDebug
    sourceFile := change.sourceFile.applyTo c.sourceFile
    superName := change.superName.applyTo c.superName }

end MetadataChange

/-- One change to one class. Members are named by the class, and methods also by their
descriptor; a difference carries the new value of what changed. -/
inductive Difference where
  | classAdded (added : AddedClass)
  | classRemoved (cls : String)
  | classAccessChanged (cls : String) (old new : UInt16)
  | classMetadataChanged (change : MetadataChange)
  | classVersionChanged (cls : String) (version : ClassVersion)
  | fieldAdded (cls : String) (field : FieldModel)
  | fieldRemoved (cls : String) (name : String)
  | fieldAccessChanged (cls : String) (name : String) (old new : UInt16)
  | fieldDescriptorChanged (cls : String) (name : String) (descriptor : String)
  | fieldSignatureChanged (cls : String) (name : String) (signature : Option String)
  | fieldValueChanged (cls : String) (name : String) (value : Option Constant)
  | methodAdded (cls : String) (method : MethodModel)
  | methodRemoved (cls : String) (name descriptor : String)
  | methodAccessChanged (cls : String) (name descriptor : String) (old new : UInt16)
  | methodSignatureChanged (cls : String) (name descriptor : String) (signature : Option String)
  | methodExceptionsChanged (cls : String) (name descriptor : String) (exceptions : List String)
  | methodAnnotationDefaultChanged (cls : String) (name descriptor : String)
      (value : Option ElementValue)
  | methodMaxsChanged (cls : String) (name descriptor : String) (maxStack maxLocals : UInt16)
  /-- The instructions and handlers of a method changed; the method carries the new ones. -/
  | methodInstructionsChanged (cls : String) (method : MethodModel)
  deriving BEq, Repr, Inhabited

def classKindFlags : UInt16 := 0x0200 ||| 0x4000

def hex4 (v : UInt16) : String :=
  let digits := Nat.toDigits 16 v.toNat
  "0x" ++ String.ofList (List.replicate (4 - digits.length) '0' ++ digits)

namespace Difference

def className : Difference → String
  | .classAdded added => added.cls.name
  | .classMetadataChanged change => change.className
  | .classRemoved c | .classAccessChanged c .. | .classVersionChanged c _ | .fieldAdded c _
  | .fieldRemoved c _ | .fieldAccessChanged c .. | .fieldDescriptorChanged c ..
  | .fieldSignatureChanged c .. | .fieldValueChanged c .. | .methodAdded c _
  | .methodRemoved c .. | .methodAccessChanged c .. | .methodSignatureChanged c ..
  | .methodExceptionsChanged c .. | .methodAnnotationDefaultChanged c ..
  | .methodMaxsChanged c .. | .methodInstructionsChanged c _ => c

def isRuntimeAppliable : Difference → Bool
  | .classAccessChanged _ old new => old &&& classKindFlags == new &&& classKindFlags
  | .classMetadataChanged change => !change.changesSuperClass
  | _ => true

def requiresSideChannel : Difference → Bool
  | .classAdded _ => true
  | _ => false

def display : Difference → String
  | .classAdded added => s!"added class {added.cls.name}"
  | .classRemoved c => s!"removed class {c}"
  | .classAccessChanged c old new => s!"access of class {c} changed from {hex4 old} to {hex4 new}"
  | .classMetadataChanged change =>
    if change.changesSuperClass then
      s!"metadata of class {change.className} changed (including its super class)"
    else s!"metadata of class {change.className} changed"
  | .classVersionChanged c v => s!"version of class {c} changed to {v.text}"
  | .fieldAdded c f => s!"added field {c}.{f.name}"
  | .fieldRemoved c n => s!"removed field {c}.{n}"
  | .fieldAccessChanged c n old new =>
    s!"access of field {c}.{n} changed from {hex4 old} to {hex4 new}"
  | .fieldDescriptorChanged c n d => s!"descriptor of field {c}.{n} changed to {d}"
  | .fieldSignatureChanged c n _ => s!"signature of field {c}.{n} changed"
  | .fieldValueChanged c n _ => s!"value of field {c}.{n} changed"
  | .methodAdded c m => s!"added method {c}#{m.name}{m.descriptor}"
  | .methodRemoved c n d => s!"removed method {c}#{n}{d}"
  | .methodAccessChanged c n d old new =>
    s!"access of method {c}#{n}{d} changed from {hex4 old} to {hex4 new}"
  | .methodSignatureChanged c n d _ => s!"signature of method {c}#{n}{d} changed"
  | .methodExceptionsChanged c n d _ => s!"exceptions of method {c}#{n}{d} changed"
  | .methodAnnotationDefaultChanged c n d _ => s!"annotation default of method {c}#{n}{d} changed"
  | .methodMaxsChanged c n d s l =>
    s!"maxs of method {c}#{n}{d} changed to stack {s.toNat} and locals {l.toNat}"
  | .methodInstructionsChanged c m => s!"instructions of method {c}#{m.name}{m.descriptor} changed"

end Difference

end ClassPatch
