import ClassPatch.Model.Read
import ClassPatch.Model.Write
import ClassPatch.Delta.Error
import ClassPatch.Delta.Difference

namespace ClassPatch

namespace Payload

def containerName : String := "jardelta/MethodContainer"

def container (m : MethodModel) : ClassModel :=
  { name := containerName, access := 0x0021, version := ClassVersion.java8,
    superName := some "java/lang/Object", interfaces := [], signature := none,
    sourceFile := none, sourceDebug := none, outerClass := none, outerMethod := none,
    outerMethodDescriptor := none, nestHost := none, nestMembers := [], innerClasses := [],
    fields := [], methods := [m] }

def ofBytes (hex : HexLibrary) (bytes : List UInt8) : String := hex.encode bytes

def ofClass (hex : HexLibrary) (c : ClassModel) : Except PatchError String :=
  match c.toBytes with
  | .ok bytes => .ok (hex.encode bytes)
  | .error e => .error (.badClass e)

def ofMethod (hex : HexLibrary) (m : MethodModel) : Except PatchError String :=
  ofClass hex (container m)

/-- The bytes of a payload. -/
def bytes (hex : HexLibrary) (payload : String) : Except PatchError (List UInt8) :=
  match hex.decode payload with
  | .ok bytes => .ok bytes
  | .error e => .error (.hex e)

def ofAdded (a : AddedClass) : Except PatchError (List UInt8) :=
  match a.classFile with
  | some bytes => .ok bytes
  | none =>
    match a.cls.toBytes with
    | .ok bytes => .ok bytes
    | .error e => .error (.badClass e)

def toClass (hex : HexLibrary) (options : ReadOptions) (payload : String) :
    Except PatchError (ClassModel × List UInt8) := do
  let bytes ← bytes hex payload
  match ClassModel.parse bytes options with
  | .ok c => pure (c, bytes)
  | .error e => throw (.badClass e)

def toMethod (hex : HexLibrary) (options : ReadOptions) (payload : String) :
    Except PatchError MethodModel := do
  let (c, _) ← toClass hex options payload
  match c.methods with
  | [m] => pure m
  | ms => throw (.badMethodContainer ms.length)

end Payload

end ClassPatch
