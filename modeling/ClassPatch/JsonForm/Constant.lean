import ClassPatch.JsonForm.Text
import ClassPatch.Model.Constant

namespace ClassPatch

namespace MethodHandle

def toJson (h : MethodHandle) : Json :=
  .obj [("kind", .str h.kind.name), ("owner", .str h.owner), ("name", .str h.name),
    ("descriptor", .str h.descriptor), ("is_interface", .bool h.isInterface)]

/-- Reads a handle. -/
def ofJson? (what : String) (j : Json) : Except String MethodHandle := do
  let kindName ← j.need "kind" Json.toStr
  let kind ← match HandleKind.ofName? kindName with
    | some k => .ok k
    | none => .error s!"unknown handle kind {kindName} in {what}"
  let owner ← j.need "owner" Json.toStr
  let name ← j.need "name" Json.toStr
  let descriptor ← j.need "descriptor" Json.toStr
  let isInterface ← j.withDefault "is_interface" false Json.toBool
  pure { kind, owner, name, descriptor, isInterface }

end MethodHandle

def Json.tagged (type : String) (value : Json) : Json :=
  .obj [("type", .str type), ("value", value)]

namespace Constant

mutual

def toJson : Constant → Json
  | .integer v => Json.tagged "integer" (.int v.toInt)
  | .float bits => Json.tagged "float" (.int bits.toNat)
  | .long v => Json.tagged "long" (.int v.toInt)
  | .double bits => Json.tagged "double" (.int bits.toNat)
  | .string s => Json.tagged "string" s.toJson
  | .classRef name => Json.tagged "class" (.str name)
  | .methodType d => Json.tagged "method_type" (.str d)
  | .methodHandle h => Json.tagged "method_handle" h.toJson
  | .dynamic name descriptor bootstrap arguments =>
    Json.tagged "dynamic" (.obj [("name", .str name), ("descriptor", .str descriptor),
      ("bootstrap_method", bootstrap.toJson), ("bootstrap_arguments", .arr (listToJson arguments))])

def listToJson : List Constant → List Json
  | [] => []
  | c :: rest => toJson c :: listToJson rest

end

def ofJsonWithin : Nat → String → Json → Except String Constant
  | 0, what, _ => .error s!"{what} nests too deep"
  | fuel + 1, what, j => do
    match ← j.need "type" Json.toStr with
    | "integer" => return .integer (← j.need "value" Json.toInt32)
    | "float" => return .float (← j.need "value" Json.toUInt32)
    | "long" => return .long (← j.need "value" Json.toInt64)
    | "double" => return .double (← j.need "value" Json.toUInt64)
    | "string" => return .string (← j.need "value" JavaString.ofJson?)
    | "class" => return .classRef (← j.need "value" Json.toStr)
    | "method_type" => return .methodType (← j.need "value" Json.toStr)
    | "method_handle" => return .methodHandle (← j.need "value" MethodHandle.ofJson?)
    | "dynamic" => do
      let v ← j.need "value" Json.raw
      let name ← v.need "name" Json.toStr
      let descriptor ← v.need "descriptor" Json.toStr
      let bootstrap ← v.need "bootstrap_method" MethodHandle.ofJson?
      let arguments ← v.withDefault "bootstrap_arguments" []
        (fun k a => Json.mapItems k (ofJsonWithin fuel k) a)
      pure (.dynamic name descriptor bootstrap arguments)
    | other => .error s!"unknown constant type {other} in {what}"

/-- Reads a constant. -/
def ofJson? (what : String) (j : Json) : Except String Constant :=
  ofJsonWithin (j.depth + 1) what j

end Constant

namespace ElementValue

mutual

def toJson : ElementValue → Json
  | .byte v => Json.tagged "byte" (.int v.toInt)
  | .char v => Json.tagged "char" (.int v.toInt)
  | .short v => Json.tagged "short" (.int v.toInt)
  | .boolean v => Json.tagged "boolean" (.int v.toInt)
  | .int v => Json.tagged "int" (.int v.toInt)
  | .long v => Json.tagged "long" (.int v.toInt)
  | .float bits => Json.tagged "float" (.int bits.toNat)
  | .double bits => Json.tagged "double" (.int bits.toNat)
  | .string s => Json.tagged "string" s.toJson
  | .enum descriptor name =>
    Json.tagged "enum" (.obj [("descriptor", .str descriptor), ("name", .str name)])
  | .classLiteral descriptor => Json.tagged "class" (.str descriptor)
  | .annotationValue descriptor elements =>
    Json.tagged "annotation" (.obj [("descriptor", .str descriptor),
      ("elements", .arr (pairsToJson elements))])
  | .array values => Json.tagged "array" (.arr (listToJson values))

def pairsToJson : List (String × ElementValue) → List Json
  | [] => []
  | (name, v) :: rest => .arr [.str name, toJson v] :: pairsToJson rest

def listToJson : List ElementValue → List Json
  | [] => []
  | v :: rest => toJson v :: listToJson rest

end

def ofJsonWithin : Nat → String → Json → Except String ElementValue
  | 0, what, _ => .error s!"{what} nests too deep"
  | fuel + 1, what, j => do
    match ← j.need "type" Json.toStr with
    | "byte" => return .byte (← j.need "value" Json.toInt32)
    | "char" => return .char (← j.need "value" Json.toInt32)
    | "short" => return .short (← j.need "value" Json.toInt32)
    | "boolean" => return .boolean (← j.need "value" Json.toInt32)
    | "int" => return .int (← j.need "value" Json.toInt32)
    | "long" => return .long (← j.need "value" Json.toInt64)
    | "float" => return .float (← j.need "value" Json.toUInt32)
    | "double" => return .double (← j.need "value" Json.toUInt64)
    | "string" => return .string (← j.need "value" JavaString.ofJson?)
    | "enum" => do
      let v ← j.need "value" Json.raw
      let descriptor ← v.need "descriptor" Json.toStr
      let name ← v.need "name" Json.toStr
      pure (.enum descriptor name)
    | "class" => return .classLiteral (← j.need "value" Json.toStr)
    | "annotation" => do
      let v ← j.need "value" Json.raw
      let descriptor ← v.need "descriptor" Json.toStr
      let elements ← v.withDefault "elements" [] fun k e => Json.mapItems k (fun pair => do
        match pair with
        | .arr [name, value] => do
          let n ← Json.toStr k name
          let ev ← ofJsonWithin fuel k value
          pure (n, ev)
        | _ => .error s!"expected a name and a value in {k}") e
      pure (.annotationValue descriptor elements)
    | "array" => return .array (← j.need "value" fun k a => Json.mapItems k (ofJsonWithin fuel k) a)
    | other => .error s!"unknown element value type {other} in {what}"

/-- Reads an element value. -/
def ofJson? (what : String) (j : Json) : Except String ElementValue :=
  ofJsonWithin (j.depth + 1) what j

end ElementValue

end ClassPatch
