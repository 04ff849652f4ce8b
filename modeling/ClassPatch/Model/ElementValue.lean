import ClassPatch.Model.Resolve
import ClassPatch.Model.Intern

namespace ClassPatch

namespace Resolver

def elementConstant (r : Resolver) (tag : UInt8) (index : UInt16) :
    Except FormatError ElementValue := do
  let e ← r.pool.entry index
  let int : Except FormatError Int32 :=
    match e with
    | .integer v => .ok v
    | _ => .error (.badConstantIndex index .integer)
  match tag with
  | 66 => return .byte (← int)
  | 67 => return .char (← int)
  | 83 => return .short (← int)
  | 90 => return .boolean (← int)
  | 73 => return .int (← int)
  | 74 => match e with
    | .long v => pure (.long v)
    | _ => throw (.badConstantIndex index .long)
  | 70 => match e with
    | .float bits => pure (.float bits)
    | _ => throw (.badConstantIndex index .float)
  | 68 => match e with
    | .double bits => pure (.double bits)
    | _ => throw (.badConstantIndex index .double)
  | 115 => match e with
    | .utf8 s => pure (.string s)
    | _ => throw (.badConstantIndex index .utf8)
  | other => throw (.unknownElementValueTag other)

mutual

def elementValue (r : Resolver) : RawElementValue → Except FormatError ElementValue
  | .constant tag index => r.elementConstant tag index
  | .enum typeName constName => do
    let descriptor ← r.pool.utf8 typeName
    let name ← r.pool.utf8 constName
    pure (.enum descriptor name)
  | .classLiteral descriptor => return .classLiteral (← r.pool.utf8 descriptor)
  | .annotationValue typeIndex pairs => do
    let descriptor ← r.pool.utf8 typeIndex
    let elements ← r.elementPairs pairs
    pure (.annotationValue descriptor elements)
  | .array values => return .array (← r.elementValues values)

def elementPairs (r : Resolver) :
    List (UInt16 × RawElementValue) → Except FormatError (List (String × ElementValue))
  | [] => pure []
  | (name, value) :: rest => do
    let n ← r.pool.utf8 name
    let v ← r.elementValue value
    let more ← r.elementPairs rest
    pure ((n, v) :: more)

def elementValues (r : Resolver) : List RawElementValue → Except FormatError (List ElementValue)
  | [] => pure []
  | value :: rest => do
    let v ← r.elementValue value
    let more ← r.elementValues rest
    pure (v :: more)

end

end Resolver

namespace Build

mutual

def elementValue : ElementValue → Build RawElementValue
  | .byte v => return .constant 66 (← entry (.integer v))
  | .char v => return .constant 67 (← entry (.integer v))
  | .short v => return .constant 83 (← entry (.integer v))
  | .boolean v => return .constant 90 (← entry (.integer v))
  | .int v => return .constant 73 (← entry (.integer v))
  | .long v => return .constant 74 (← entry (.long v))
  | .float bits => return .constant 70 (← entry (.float bits))
  | .double bits => return .constant 68 (← entry (.double bits))
  | .string s => return .constant 115 (← javaUtf8 s)
  | .enum descriptor name => do
    let d ← utf8 descriptor
    let n ← utf8 name
    pure (.enum d n)
  | .classLiteral descriptor => return .classLiteral (← utf8 descriptor)
  | .annotationValue descriptor elements => do
    let d ← utf8 descriptor
    let pairs ← elementPairs elements
    pure (.annotationValue d pairs)
  | .array values => return .array (← elementValues values)

def elementPairs : List (String × ElementValue) → Build (List (UInt16 × RawElementValue))
  | [] => pure []
  | (name, value) :: rest => do
    let n ← utf8 name
    let v ← elementValue value
    let more ← elementPairs rest
    pure ((n, v) :: more)

def elementValues : List ElementValue → Build (List RawElementValue)
  | [] => pure []
  | value :: rest => do
    let v ← elementValue value
    let more ← elementValues rest
    pure (v :: more)

end

end Build

end ClassPatch
