import ClassPatch.Model.Class
import ClassPatch.Model.Intern

namespace ClassPatch

/-- The number of slots that the arguments of a method descriptor take, with one for the
receiver, as `invokeinterface` states it. `long` and `double` take two slots, every other type
one. Only the part in parentheses is checked. -/
inductive SlotScan where
  /-- Between two types. -/
  | start
  /-- Inside a class name, up to its `;`. -/
  | object
  /-- After the `[` of an array type. -/
  | array

/-- Counts argument slots from `n` over the rest of the argument types. -/
def SlotScan.count : SlotScan → Nat → List Char → Option Nat
  | .start, n, [] => some n
  | .start, n, c :: rest =>
    if c = 'J' ∨ c = 'D' then SlotScan.count .start (n + 2) rest
    else if c ∈ ['B', 'C', 'F', 'I', 'S', 'Z'] then SlotScan.count .start (n + 1) rest
    else if c = 'L' then SlotScan.count .object (n + 1) rest
    else if c = '[' then SlotScan.count .array (n + 1) rest
    else none
  | .object, _, [] => none
  | .object, n, c :: rest =>
    if c = ';' then SlotScan.count .start n rest else SlotScan.count .object n rest
  | .array, _, [] => none
  | .array, n, c :: rest =>
    if c = '[' then SlotScan.count .array n rest
    else if c = 'L' then SlotScan.count .object n rest
    else if c ∈ ['B', 'C', 'D', 'F', 'I', 'J', 'S', 'Z'] then SlotScan.count .start n rest
    else none

/-- The argument slots of a method descriptor, receiver included; the count must fit a byte. -/
def argumentSlots (descriptor : String) : Except FormatError UInt8 :=
  let bad := FormatError.badDescriptor descriptor
  match descriptor.toList with
  | '(' :: rest =>
    if ')' ∈ rest then
      match SlotScan.count .start 1 (rest.takeWhile (· ≠ ')')) with
      | some n => if n < 256 then .ok n.toUInt8 else .error bad
      | none => .error bad
    else .error bad
  | _ => .error bad

def fitsSigned (bits : Nat) (v : Int) : Bool :=
  -(Nat.pow 2 (bits - 1) : Nat) ≤ v && v < (Nat.pow 2 (bits - 1) : Nat)

namespace Build

def lift {α : Type} (r : Except FormatError α) : Build α := fun b => r.map (·, b)

/-- The bytes of one instruction at `offset`, where `wide` asks for the wide form of a branch
and `labelOffset` gives the offsets of labels; markers take no bytes. -/
def instruction (i : Instruction Label) (offset : Nat) (wide : Bool)
    (labelOffset : Label → Except FormatError Nat) : Build (List UInt8) := do
  let relative (l : Label) : Build Int := do
    let target ← lift (labelOffset l)
    pure (target - offset)
  match i with
  | .simple op => pure [op.code]
  | .int op v =>
    let value := v.toInt
    let overflow := FormatError.operandOverflow op value
    if op == Opcode.bipush then
      if fitsSigned 8 value then pure [op.code, (BigEndian.int 1 value).headD 0] else fail overflow
    else if op == Opcode.sipush then
      if fitsSigned 16 value then pure (op.code :: BigEndian.int 2 value) else fail overflow
    else if 0 ≤ value && value < 256 then pure [op.code, value.toNat.toUInt8]
    else fail overflow
  | .var op index =>
    let short : Option (UInt8 × UInt8) :=
      if 0x15 ≤ op.code && op.code ≤ 0x19 then some (Opcode.iload.code, 0x1A)
      else if 0x36 ≤ op.code && op.code ≤ 0x3A then some (Opcode.istore.code, 0x3B)
      else none
    match short with
    | some (base, shortBase) =>
      if index ≤ 3 then pure [shortBase + (op.code - base) * 4 + index.toUInt8]
      else if index < 256 then pure [op.code, index.toUInt8]
      else pure (Opcode.wide.code :: op.code :: BigEndian.u16 index)
    | none =>
      if index < 256 then pure [op.code, index.toUInt8]
      else pure (Opcode.wide.code :: op.code :: BigEndian.u16 index)
  | .type op name => return op.code :: BigEndian.u16 (← classRef name)
  | .field op ref => return op.code :: BigEndian.u16 (← fieldRef ref)
  | .method op ref => do
    let index ← methodRef ref
    if op == Opcode.invokeinterface then
      let slots ← lift (argumentSlots ref.descriptor)
      pure (op.code :: BigEndian.u16 index ++ [slots, 0])
    else pure (op.code :: BigEndian.u16 index)
  | .invokeDynamic name descriptor bootstrap arguments => do
    let b ← bootstrapMethod bootstrap arguments
    let nat ← nameAndType name descriptor
    let index ← entry (.invokeDynamic b nat)
    pure (Opcode.invokedynamic.code :: BigEndian.u16 index ++ [0, 0])
  | .jump op l => do
    let target ← lift (labelOffset l)
    let delta : Int := target - offset
    match wide, op.invertedBranch? with
    | true, some inverted =>
      pure (inverted.code :: BigEndian.int 2 8 ++ Opcode.gotoWide.code :: BigEndian.int 4 (delta - 3))
    | _, _ =>
      if wide || op.isWideJump then
        let wideOp := if op == Opcode.jsr || op == Opcode.jsrWide then Opcode.jsrWide
          else Opcode.gotoWide
        pure (wideOp.code :: BigEndian.int 4 delta)
      else if fitsSigned 16 delta then pure (op.code :: BigEndian.int 2 delta)
      else fail (.jumpOverflow op offset target)
  | .tableSwitch low high default targets => do
    if high.toInt - low.toInt + 1 ≠ targets.length then fail (.invalidSwitch offset)
    else
      let d ← relative default
      let ts ← targets.mapM relative
      pure (Opcode.tableswitch.code :: List.replicate (switchPadding offset) 0 ++
        BigEndian.int 4 d ++ BigEndian.int 4 low.toInt ++ BigEndian.int 4 high.toInt ++
        ts.flatMap (BigEndian.int 4))
  | .lookupSwitch default keys targets => do
    if keys.length ≠ targets.length then fail (.invalidSwitch offset)
    else
      let d ← relative default
      let ts ← targets.mapM relative
      pure (Opcode.lookupswitch.code :: List.replicate (switchPadding offset) 0 ++
        BigEndian.int 4 d ++ BigEndian.int 4 keys.length ++
        (keys.zip ts).flatMap fun (k, t) => BigEndian.int 4 k.toInt ++ BigEndian.int 4 t)
  | .iinc index increment =>
    if index < 256 && fitsSigned 8 increment.toInt then
      pure [Opcode.iinc.code, index.toUInt8, (BigEndian.int 1 increment.toInt).headD 0]
    else
      pure (Opcode.wide.code :: Opcode.iinc.code :: BigEndian.u16 index ++
        BigEndian.int 2 increment.toInt)
  | .multiANewArray descriptor dimensions => do
    let index ← classRef descriptor
    pure (Opcode.multianewarray.code :: BigEndian.u16 index ++ [dimensions])
  | .ldc c => do
    let index ← constant c
    if c.isWide then pure (Opcode.ldc2Wide.code :: BigEndian.u16 index)
    else if index < 256 then pure [Opcode.ldc.code, index.toUInt8]
    else pure (Opcode.ldcWide.code :: BigEndian.u16 index)
  | .label _ | .lineNumber .. | .frame _ => pure []

end Build

/-- Where the labels of a body are placed: each label with its position in the list. A label
placed twice is an error, reported where it is placed the second time. -/
def labelPositions (insns : List (Instruction Label)) : Except FormatError (List (Label × Nat)) :=
  (insns.zipIdx).foldlM (fun placed (i, position) =>
    match i with
    | .label l => if (placed.lookup l).isSome then .error (.duplicateLabel l.id)
      else .ok (placed ++ [(l, position)])
    | _ => .ok placed) []

/-- The offsets of the positions of a body, with the end of the code last, and where its labels
are placed. -/
structure Layout where
  offsets : List Nat
  positions : List (Label × Nat)

namespace Layout

/-- The offset of a label. -/
def labelOffset (lay : Layout) (l : Label) : Except FormatError Nat :=
  match lay.positions.lookup l with
  | some position => .ok (lay.offsets.getD position 0)
  | none => .error (.missingLabel l.id)

def offsetsFrom (wide : List Nat) (offset : Nat) :
    List (Instruction Label × Nat) → Build (List Nat)
  | [] => pure [offset]
  | (i, position) :: rest => do
    let bytes ← Build.instruction i offset (wide.contains position) (fun _ => .ok offset)
    let more ← offsetsFrom wide (offset + bytes.length) rest
    pure (offset :: more)

/-- The offsets of a body with the branches at positions `wide` in their wide forms, with the
end of the code last. The code must fit in 65535 bytes. -/
def measure (insns : List (Instruction Label)) (wide : List Nat) : Build (List Nat) := do
  let offsets ← offsetsFrom wide 0 insns.zipIdx
  let length := offsets.getLastD 0
  if length > 65535 then Build.fail (.methodCodeOverflow length)
  else pure offsets

end Layout

def frameFollows (insns : List (Instruction Label)) (position : Nat) : Bool :=
  ((insns.drop (position + 1)).takeWhile Instruction.isMarker).any Instruction.isFrame

def widenings (insns : List (Instruction Label)) (lay : Layout) (wide : List Nat)
    (hasFrames : Bool) : Except FormatError (List Nat) :=
  insns.zipIdx.foldlM (fun added (i, position) =>
    match i with
    | .jump op target => do
      let offset := lay.offsets.getD position 0
      let t ← lay.labelOffset target
      if fitsSigned 16 (Int.ofNat t - Int.ofNat offset) || wide.contains position ||
          op.isWideJump then pure added
      else
        let invertible := op.invertedBranch?.isSome && (!hasFrames || frameFollows insns position)
        if op == Opcode.goto || op == Opcode.jsr || invertible then pure (added ++ [position])
        else .error (.jumpOverflow op offset t)
    | _ => pure added) []

/-- Widens branches until the layout needs no more; `fuel` bounds the rounds. Gives the offsets
and the widened branches. -/
def settle (insns : List (Instruction Label)) (positions : List (Label × Nat)) (hasFrames : Bool) :
    Nat → List Nat → Build (List Nat × List Nat)
  | 0, wide => return (← Layout.measure insns wide, wide)
  | fuel + 1, wide => do
    let offsets ← Layout.measure insns wide
    let added ← Build.lift (widenings insns { offsets, positions } wide hasFrames)
    if added.isEmpty then pure (offsets, wide)
    else settle insns positions hasFrames fuel (wide ++ added)

def StackMapFrame.ofFrame (delta : UInt16) (f : Frame UInt16 UInt16) :
    Except FormatError StackMapFrame :=
  match f with
  | .chop k =>
    if 1 ≤ k && k ≤ 3 then .ok ⟨delta, f⟩ else .error (.invalidFrame s!"chop of {k.toNat} locals")
  | .append locals =>
    if 1 ≤ locals.length && locals.length ≤ 3 then .ok ⟨delta, f⟩
    else .error (.invalidFrame s!"append of {locals.length} locals")
  | _ => .ok ⟨delta, f⟩

def frameDelta (previous : Option Nat) (offset : Nat) : Except FormatError Nat :=
  match previous with
  | none => .ok offset
  | some p => if offset > p then .ok (offset - p - 1) else .error (.frameOrder offset)

def markerTables (lay : Layout) :
    Option Nat → List (Instruction Label × Nat) → Build (List RawLine × List StackMapFrame)
  | _, [] => pure ([], [])
  | previous, (i, position) :: rest =>
    match i with
    | .lineNumber line start => do
      let offset ← Build.lift (lay.labelOffset start)
      let (lines, frames) ← markerTables lay previous rest
      pure ({ start := offset.toUInt16, line } :: lines, frames)
    | .frame f => do
      let offset := lay.offsets.getD position 0
      let delta ← Build.lift (frameDelta previous offset)
      let stored ← f.mapM Build.classRef fun l => do
        let o ← Build.lift (lay.labelOffset l)
        pure o.toUInt16
      let frame ← Build.lift (StackMapFrame.ofFrame delta.toUInt16 stored)
      let (lines, frames) ← markerTables lay (some offset) rest
      pure (lines, frame :: frames)
    | _ => markerTables lay previous rest

def markerAttributes (lines : List RawLine) (frames : List StackMapFrame) :
    Build (List RawAttribute) := do
  let lineTable : List RawAttribute ← if lines.isEmpty then pure [] else do
    let a ← Build.attributeNamed "LineNumberTable" (Writer.list RawLine.encode lines)
    pure [a]
  let frameTable : List RawAttribute ← if frames.isEmpty then pure [] else do
    let a ← Build.attributeNamed "StackMapTable" (Writer.list StackMapFrame.encode frames)
    pure [a]
  pure (lineTable ++ frameTable)

namespace MethodModel

def encodeBody (m : MethodModel) (lay : Layout) (wide : List Nat) :
    Build (List UInt8 × List RawHandler) := do
  let bytes ← m.instructions.zipIdx.mapM fun p =>
    Build.instruction p.1 (lay.offsets.getD p.2 0) (wide.contains p.2) lay.labelOffset
  let handlers ← m.handlers.mapM fun h => do
    let start ← Build.lift (lay.labelOffset h.start)
    let stop ← Build.lift (lay.labelOffset h.«end»)
    let handler ← Build.lift (lay.labelOffset h.handler)
    let catchType ← match h.catchType with
      | some name => Build.classRef name
      | none => pure 0
    pure { start := start.toUInt16, «end» := stop.toUInt16, handler := handler.toUInt16,
           catchType : RawHandler }
  pure (bytes.flatten, handlers)

/-- The `Code` attribute of a method body. -/
def code (m : MethodModel) : Build CodeAttribute := do
  let insns := m.instructions
  let positions ← Build.lift (labelPositions insns)
  let (offsets, wide) ← settle insns positions (insns.any Instruction.isFrame) (insns.length + 1) []
  let lay : Layout := { offsets, positions }
  let (code, handlers) ← m.encodeBody lay wide
  let (lines, frames) ← markerTables lay none insns.zipIdx
  let attributes ← markerAttributes lines frames
  pure { maxStack := m.maxStack, maxLocals := m.maxLocals, code, handlers, attributes }

end MethodModel

end ClassPatch
