import ClassPatch.Json.Value
import ClassPatch.Model.Class
import ClassPatch.Delta.Flags
import ClassPatch.Delta.Difference

namespace ClassPatch

/-- Reading a JSON value into a value of the model; `none` when it has the wrong shape. -/
abbrev Shape (α : Type) := Json → Option α

namespace Shape

def fields (names : List String) : Json → Option (Bool × List (Option Json))
  | .obj members => do
    let values ← names.mapM fun name =>
      match members.filter (·.1 == name) with
      | [] => some none
      | [(_, v)] => some (some v)
      | _ => none
    pure (false, values)
  | .arr items =>
    if items.length > names.length then none
    else some (true, items.map some ++ List.replicate (names.length - items.length) none)
  | _ => none

def need {α : Type} (s : Shape α) : Option Json → Option α
  | some v => s v
  | none => none

def optional {α : Type} (positional : Bool) (s : Shape α) : Option Json → Option (Option α)
  | none => if positional then none else some none
  | some .null => some none
  | some v => (s v).map some

def str : Shape String
  | .str s => some s
  | _ => none

def bool : Shape Bool
  | .bool b => some b
  | _ => none

def intIn (lo hi : Int) : Shape Int
  | .int i => if lo ≤ i ∧ i < hi then some i else none
  | _ => none

def u16 : Shape UInt16 := fun j => (intIn 0 (Nat.pow 2 16 : Nat) j).map (·.toNat.toUInt16)

def u32 : Shape UInt32 := fun j => (intIn 0 (Nat.pow 2 32 : Nat) j).map (·.toNat.toUInt32)

def u64 : Shape UInt64 := fun j => (intIn 0 (Nat.pow 2 64 : Nat) j).map (·.toNat.toUInt64)

def i32 : Shape Int32 := fun j =>
  (intIn (-(Nat.pow 2 31 : Nat)) (Nat.pow 2 31 : Nat) j).map Int.toInt32

def i64 : Shape Int64 := fun j =>
  (intIn (-(Nat.pow 2 63 : Nat)) (Nat.pow 2 63 : Nat) j).map Int.toInt64

/-- An array of values of one shape. -/
def list {α : Type} (s : Shape α) : Shape (List α)
  | .arr items => items.mapM s
  | _ => none

def flags (names : FlagNames) : Shape UInt16 := fun j => (str j).bind names.parse?

/-- A Java string: a string, or an array of UTF-16 units. -/
def javaString : Shape JavaString
  | .str s => some (JavaString.ofString s)
  | .arr items => (items.mapM u16).map JavaString.ofUtf16
  | _ => none

def variantName : Shape String
  | .str s => some s
  | .obj [(s, .null)] => some s
  | .obj [(s, .obj [])] => some s
  | _ => none

def handleKind : Shape HandleKind := fun j => (variantName j).bind HandleKind.ofName?

def handle : Shape MethodHandle := fun j => do
  let (_, v) ← fields ["kind", "owner", "name", "descriptor", "is_interface"] j
  match v with
  | [kind, owner, name, descriptor, isInterface] =>
    pure { kind := ← need handleKind kind, owner := ← need str owner, name := ← need str name,
           descriptor := ← need str descriptor, isInterface := ← need bool isInterface }
  | _ => none

def version : Shape ClassVersion := fun j => do
  let (_, v) ← fields ["major_version", "minor_version"] j
  match v with
  | [major, minor] => pure ⟨← need u16 major, ← need u16 minor⟩
  | _ => none

def identifier (kinds : List String) : Shape String
  | .str s => if kinds.contains s then some s else none
  | .int i => if 0 ≤ i then kinds[i.toNat]? else none
  | _ => none

def tagged (kinds : List String) : Json → Option (String × Json)
  | .obj members =>
    match members.filter (·.1 == "type"), members.filter (·.1 == "value") with
    | [(_, t)], [(_, v)] => do pure (← (variantName t).filter kinds.contains, v)
    | _, _ => none
  | .arr [t, v] => do pure (← identifier kinds t, v)
  | _ => none

def constantKinds : List String :=
  ["integer", "float", "long", "double", "string", "class", "method_type", "method_handle",
   "dynamic"]

def constantWithin : Nat → Shape Constant
  | 0, _ => none
  | fuel + 1, j => do
    let (kind, v) ← tagged constantKinds j
    match kind with
    | "integer" => (i32 v).map .integer
    | "float" => (u32 v).map .float
    | "long" => (i64 v).map .long
    | "double" => (u64 v).map .double
    | "string" => (javaString v).map .string
    | "class" => (str v).map .classRef
    | "method_type" => (str v).map .methodType
    | "method_handle" => (handle v).map .methodHandle
    | _ => do
      let (_, members) ← fields ["name", "descriptor", "bootstrap_method", "bootstrap_arguments"] v
      match members with
      | [name, descriptor, bootstrap, arguments] =>
        pure (.dynamic (← need str name) (← need str descriptor) (← need handle bootstrap)
          (← need (list (constantWithin fuel)) arguments))
      | _ => none

def constant : Shape Constant := fun j => constantWithin (j.depth + 1) j

def elementKinds : List String :=
  ["byte", "char", "short", "boolean", "int", "long", "float", "double", "string", "enum",
   "class", "annotation", "array"]

def elementWithin : Nat → Shape ElementValue
  | 0, _ => none
  | fuel + 1, j => do
    let (kind, v) ← tagged elementKinds j
    match kind with
    | "byte" => (i32 v).map .byte
    | "char" => (i32 v).map .char
    | "short" => (i32 v).map .short
    | "boolean" => (i32 v).map .boolean
    | "int" => (i32 v).map .int
    | "long" => (i64 v).map .long
    | "float" => (u32 v).map .float
    | "double" => (u64 v).map .double
    | "string" => (javaString v).map .string
    | "enum" => do
      let (positional, members) ← fields ["descriptor", "name"] v
      match positional, members with
      | false, [descriptor, name] => pure (.enum (← need str descriptor) (← need str name))
      | _, _ => none
    | "class" => (str v).map .classLiteral
    | "annotation" => do
      let (_, members) ← fields ["descriptor", "elements"] v
      match members with
      | [descriptor, elements] =>
        let pair : Shape (String × ElementValue) := fun p =>
          match p with
          | .arr [name, value] => do pure (← str name, ← elementWithin fuel value)
          | _ => none
        pure (.annotationValue (← need str descriptor) (← need (list pair) elements))
      | _ => none
    | _ => (list (elementWithin fuel) v).map .array

def element : Shape ElementValue := fun j => elementWithin (j.depth + 1) j

def field : Shape FieldModel := fun j => do
  let (positional, v) ← fields ["name", "descriptor", "access_flags", "signature", "value"] j
  match v with
  | [name, descriptor, access, signature, value] =>
    pure { name := ← need str name, descriptor := ← need str descriptor,
           access := ← need (flags FlagNames.ofField) access,
           signature := ← optional positional str signature,
           value := ← optional positional constant value }
  | _ => none

def change : Option Json → Option AttributeChange
  | none => some none
  | some .null => some (some none)
  | some (.str s) => some (some (some s))
  | some _ => none

def metadataChange : Shape MetadataChange := fun j => do
  let (_, v) ← fields ["class", "outer_class", "nest_host", "outer_method",
    "outer_method_descriptor", "signature", "source_debug", "source_file", "super_name"] j
  match v with
  | [cls, outerClass, nestHost, outerMethod, outerMethodDescriptor, signature, sourceDebug,
      sourceFile, superName] =>
    pure { className := ← need str cls, outerClass := ← change outerClass,
           nestHost := ← change nestHost, outerMethod := ← change outerMethod,
           outerMethodDescriptor := ← change outerMethodDescriptor,
           signature := ← change signature, sourceDebug := ← change sourceDebug,
           sourceFile := ← change sourceFile, superName := ← change superName }
  | _ => none

end Shape

end ClassPatch
