import ClassPatch.JsonForm.Constant
import ClassPatch.Bytecode.Instruction

namespace ClassPatch

namespace Opcode

def toJson (op : Opcode) : Json :=
  if op.isValid then .str op.mnemonic else .int op.code.toNat

/-- Reads a mnemonic or a byte. -/
def ofJson? (what : String) : Json → Except String Opcode
  | .str name => match ofMnemonic? name with
    | some op => .ok op
    | none => .error s!"unknown mnemonic {name} in {what}"
  | j => (Json.toUInt8 what j).map Opcode.mk

end Opcode

namespace Label

def maxId : Nat := 1000000

def toJson (l : Label) : Json := .int l.id

/-- Reads a label number. -/
def ofJson? (what : String) (j : Json) : Except String Label :=
  (Json.toNatBelow (maxId + 1) what j).map Label.mk

end Label

namespace VerificationType

def toJson : VerificationType String Label → Json
  | .top => .str "top"
  | .integer => .str "integer"
  | .float => .str "float"
  | .double => .str "double"
  | .long => .str "long"
  | .null => .str "null"
  | .uninitializedThis => .str "uninitialized_this"
  | .object c => .obj [("object", .str c)]
  | .uninitialized l => .obj [("uninitialized", l.toJson)]

/-- Reads a type of a method body. -/
def ofJson? (what : String) (j : Json) : Except String (VerificationType String Label) :=
  match j with
  | .str "top" => .ok .top
  | .str "integer" => .ok .integer
  | .str "float" => .ok .float
  | .str "double" => .ok .double
  | .str "long" => .ok .long
  | .str "null" => .ok .null
  | .str "uninitialized_this" => .ok .uninitializedThis
  | _ =>
    match j.member? "object", j.member? "uninitialized" with
    | some c, _ => (Json.toStr what c).map .object
    | none, some l => (Label.ofJson? what l).map .uninitialized
    | none, none => .error s!"unknown verification type in {what}"

end VerificationType

namespace Frame

def toJson : Frame String Label → Json
  | .same => .obj [("type", .str "same")]
  | .sameLocalsOneStack t => .obj [("type", .str "same1"), ("stack", t.toJson)]
  | .chop k => .obj [("type", .str "chop"), ("k", .int k.toNat)]
  | .append locals =>
    .obj [("type", .str "append"), ("locals", .arr (locals.map VerificationType.toJson))]
  | .full locals stack =>
    .obj [("type", .str "full"), ("locals", .arr (locals.map VerificationType.toJson)),
      ("stack", .arr (stack.map VerificationType.toJson))]

/-- Reads a frame of a method body. -/
def ofJson? (what : String) (j : Json) : Except String (Frame String Label) := do
  let types (key : String) := j.withDefault key [] fun k v =>
    Json.mapItems k (VerificationType.ofJson? k) v
  match ← j.need "type" Json.toStr with
  | "same" => pure .same
  | "same1" => return .sameLocalsOneStack (← j.need "stack" VerificationType.ofJson?)
  | "chop" => return .chop (← j.need "k" Json.toUInt8)
  | "append" => return .append (← types "locals")
  | "full" => do
    let locals ← types "locals"
    let stack ← types "stack"
    pure (.full locals stack)
  | other => .error s!"unknown frame type {other} in {what}"

end Frame

namespace Instruction

def toJson : Instruction Label → Json
  | .simple op => .obj [("k", .str "simple"), ("op", op.toJson)]
  | .int op v => .obj [("k", .str "int"), ("op", op.toJson), ("v", .int v.toInt)]
  | .var op v => .obj [("k", .str "var"), ("op", op.toJson), ("v", .int v.toNat)]
  | .type op n => .obj [("k", .str "type"), ("op", op.toJson), ("v", .str n)]
  | .field op r => .obj [("k", .str "field"), ("op", op.toJson), ("owner", .str r.owner),
      ("name", .str r.name), ("desc", .str r.descriptor)]
  | .method op r => .obj [("k", .str "method"), ("op", op.toJson), ("owner", .str r.owner),
      ("name", .str r.name), ("desc", .str r.descriptor), ("itf", .bool r.isInterface)]
  | .invokeDynamic name descriptor bootstrap arguments =>
    .obj [("k", .str "indy"), ("name", .str name), ("desc", .str descriptor),
      ("bsm", bootstrap.toJson), ("args", .arr (arguments.map Constant.toJson))]
  | .jump op l => .obj [("k", .str "jump"), ("op", op.toJson), ("l", l.toJson)]
  | .tableSwitch low high default targets =>
    .obj [("k", .str "tableswitch"), ("low", .int low.toInt), ("high", .int high.toInt),
      ("default", default.toJson), ("targets", .arr (targets.map Label.toJson))]
  | .lookupSwitch default keys targets =>
    .obj [("k", .str "lookupswitch"), ("default", default.toJson),
      ("keys", .arr (keys.map fun k => .int k.toInt)), ("targets", .arr (targets.map Label.toJson))]
  | .iinc index increment =>
    .obj [("k", .str "iinc"), ("index", .int index.toNat), ("inc", .int increment.toInt)]
  | .multiANewArray descriptor dimensions =>
    .obj [("k", .str "multianewarray"), ("desc", .str descriptor), ("dims", .int dimensions.toNat)]
  | .ldc c => .obj [("k", .str "ldc"), ("c", c.toJson)]
  | .label l => .obj [("k", .str "label"), ("l", l.toJson)]
  | .lineNumber line start =>
    .obj [("k", .str "line"), ("line", .int line.toNat), ("start", start.toJson)]
  | .frame f => .obj [("k", .str "frame"), ("frame", f.toJson)]

/-- Reads an instruction or marker. -/
def ofJson? (what : String) (j : Json) : Except String (Instruction Label) := do
  let labels (key : String) := j.need key fun k v => Json.mapItems k (Label.ofJson? k) v
  match ← j.need "k" Json.toStr with
  | "simple" => return .simple (← j.need "op" Opcode.ofJson?)
  | "int" => do
    let op ← j.need "op" Opcode.ofJson?
    return .int op (← j.need "v" Json.toInt32)
  | "var" => do
    let op ← j.need "op" Opcode.ofJson?
    return .var op (← j.need "v" Json.toUInt16)
  | "type" => do
    let op ← j.need "op" Opcode.ofJson?
    return .type op (← j.need "v" Json.toStr)
  | "field" => do
    let op ← j.need "op" Opcode.ofJson?
    let owner ← j.need "owner" Json.toStr
    let name ← j.need "name" Json.toStr
    let descriptor ← j.need "desc" Json.toStr
    pure (.field op { owner, name, descriptor })
  | "method" => do
    let op ← j.need "op" Opcode.ofJson?
    let owner ← j.need "owner" Json.toStr
    let name ← j.need "name" Json.toStr
    let descriptor ← j.need "desc" Json.toStr
    let isInterface ← j.withDefault "itf" false Json.toBool
    pure (.method op { owner, name, descriptor, isInterface })
  | "indy" => do
    let name ← j.need "name" Json.toStr
    let descriptor ← j.need "desc" Json.toStr
    let bootstrap ← j.need "bsm" MethodHandle.ofJson?
    let arguments ← j.withDefault "args" [] fun k v => Json.mapItems k (Constant.ofJson? k) v
    pure (.invokeDynamic name descriptor bootstrap arguments)
  | "jump" => do
    let op ← j.need "op" Opcode.ofJson?
    return .jump op (← j.need "l" Label.ofJson?)
  | "tableswitch" => do
    let low ← j.need "low" Json.toInt32
    let high ← j.need "high" Json.toInt32
    let default ← j.need "default" Label.ofJson?
    let targets ← labels "targets"
    pure (.tableSwitch low high default targets)
  | "lookupswitch" => do
    let default ← j.need "default" Label.ofJson?
    let keys ← j.need "keys" fun k v => Json.mapItems k (Json.toInt32 k) v
    let targets ← labels "targets"
    pure (.lookupSwitch default keys targets)
  | "iinc" => do
    let index ← j.need "index" Json.toUInt16
    let increment ← j.need "inc" Json.toInt16
    pure (.iinc index increment)
  | "multianewarray" => do
    let descriptor ← j.need "desc" Json.toStr
    let dimensions ← j.need "dims" Json.toUInt8
    pure (.multiANewArray descriptor dimensions)
  | "ldc" => return .ldc (← j.need "c" Constant.ofJson?)
  | "label" => return .label (← j.need "l" Label.ofJson?)
  | "line" => do
    let line ← j.need "line" Json.toUInt16
    return .lineNumber line (← j.need "start" Label.ofJson?)
  | "frame" => return .frame (← j.need "frame" Frame.ofJson?)
  | other => .error s!"unknown instruction kind {other} in {what}"

end Instruction

namespace Handler

def toJson (h : Handler Label) : Json :=
  .obj [("start", h.start.toJson), ("end", h.«end».toJson), ("handler", h.handler.toJson),
    ("catch_type", Json.opt .str h.catchType)]

/-- Reads an exception handler. -/
def ofJson? (_ : String) (j : Json) : Except String (Handler Label) := do
  let start ← j.need "start" Label.ofJson?
  let stop ← j.need "end" Label.ofJson?
  let handler ← j.need "handler" Label.ofJson?
  let catchType ← j.optional "catch_type" Json.toStr
  pure { start, «end» := stop, handler, catchType }

end Handler

end ClassPatch
