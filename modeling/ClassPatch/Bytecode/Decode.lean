import ClassPatch.Model.Resolve
import ClassPatch.Model.Class

namespace ClassPatch

namespace Opcode

def isSimple (code : UInt8) : Bool :=
  code ≤ 0x0F || (0x2E ≤ code && code ≤ 0x35) || (0x4F ≤ code && code ≤ 0x83) ||
    (0x85 ≤ code && code ≤ 0x98) || (0xAC ≤ code && code ≤ 0xB1) ||
    code == 0xBE || code == 0xBF || code == 0xC2 || code == 0xC3

def isVariable (code : UInt8) : Bool :=
  (0x15 ≤ code && code ≤ 0x19) || (0x36 ≤ code && code ≤ 0x3A) || code == 0xA9

def isShortJump (code : UInt8) : Bool :=
  (0x99 ≤ code && code ≤ 0xA8) || code == 0xC6 || code == 0xC7

end Opcode

namespace Reader

def relativeOffsets (base : Nat) (n : Nat) : Reader (List Int) := fun input =>
  if input.length < 4 * n then .error .truncated
  else (times (do let d ← i32; pure (base + d.toInt)) n).run input

def keyedOffsets (base : Nat) (n : Nat) : Reader (List (Int32 × Int)) := fun input =>
  if input.length < 8 * n then .error .truncated
  else (times (do let k ← i32; let d ← i32; pure (k, base + d.toInt)) n).run input

end Reader

namespace Resolver

def instructionAt (r : Resolver) (offset : Nat) : Reader (Instruction Int) := do
  let code ← Reader.u8
  let op : Opcode := ⟨code⟩
  let target (delta : Int) : Int := offset + delta
  if Opcode.isSimple code then pure (.simple op)
  else if code == 0x10 then return .int op (← Reader.i8).toInt32
  else if code == 0x11 then return .int op (← Reader.i16).toInt32
  else if code == 0xBC then return .int op (Int32.ofNat (← Reader.u8).toNat)
  else if code == 0x12 then return .ldc (← r.loadable (← Reader.u8).toUInt16)
  else if code == 0x13 || code == 0x14 then return .ldc (← r.loadable (← Reader.u16))
  else if Opcode.isVariable code then return .var op (← Reader.u8).toUInt16
  else if 0x1A ≤ code && code ≤ 0x2D then
    let n := code - 0x1A
    pure (.var ⟨Opcode.iload.code + n / 4⟩ (n % 4).toUInt16)
  else if 0x3B ≤ code && code ≤ 0x4E then
    let n := code - 0x3B
    pure (.var ⟨Opcode.istore.code + n / 4⟩ (n % 4).toUInt16)
  else if code == 0x84 then do
    let index ← Reader.u8
    let increment ← Reader.i8
    pure (.iinc index.toUInt16 increment.toInt16)
  else if Opcode.isShortJump code then return .jump op (target (← Reader.i16).toInt)
  else if code == 0xC8 then return .jump Opcode.goto (target (← Reader.i32).toInt)
  else if code == 0xC9 then return .jump Opcode.jsr (target (← Reader.i32).toInt)
  else if code == 0xAA then do
    let _ ← Reader.bytes (switchPadding offset)
    let default := target (← Reader.i32).toInt
    let low ← Reader.i32
    let high ← Reader.i32
    if high < low then Reader.fail (.invalidSwitch offset)
    else
      let targets ← Reader.relativeOffsets offset (high.toInt - low.toInt + 1).toNat
      pure (.tableSwitch low high default targets)
  else if code == 0xAB then do
    let _ ← Reader.bytes (switchPadding offset)
    let default := target (← Reader.i32).toInt
    let pairs ← Reader.i32
    if pairs < 0 then Reader.fail (.invalidSwitch offset)
    else
      let entries ← Reader.keyedOffsets offset pairs.toInt.toNat
      pure (.lookupSwitch default (entries.map (·.1)) (entries.map (·.2)))
  else if 0xB2 ≤ code && code ≤ 0xB5 then return .field op (← r.fieldRef (← Reader.u16))
  else if 0xB6 ≤ code && code ≤ 0xB8 then return .method op (← r.methodRef (← Reader.u16))
  else if code == 0xB9 then do
    let index ← Reader.u16
    let _ ← Reader.u8
    let _ ← Reader.u8
    return .method op (← r.methodRef index)
  else if code == 0xBA then do
    let index ← Reader.u16
    let _ ← Reader.u16
    let (name, descriptor, bootstrap, arguments) ← r.invokeDynamic index
    pure (.invokeDynamic name descriptor bootstrap arguments)
  else if code == 0xBB || code == 0xBD || code == 0xC0 || code == 0xC1 then
    return .type op (← r.pool.className (← Reader.u16))
  else if code == 0xC5 then do
    let descriptor ← r.pool.className (← Reader.u16)
    let dimensions ← Reader.u8
    pure (.multiANewArray descriptor dimensions)
  else if code == 0xC4 then do
    let modified ← Reader.u8
    if modified == 0x84 then do
      let index ← Reader.u16
      let increment ← Reader.i16
      pure (.iinc index increment)
    else if Opcode.isVariable modified then return .var ⟨modified⟩ (← Reader.u16)
    else Reader.fail (.unknownOpcode modified (offset + 1))
  else Reader.fail (.unknownOpcode code offset)

def instructionsFrom (r : Resolver) (length : Nat) :
    Nat → List UInt8 → Except FormatError (List (Nat × Instruction Int))
  | 0, _ => .ok []
  | _, [] => .ok []
  | fuel + 1, input@(_ :: _) => do
    let offset := length - input.length
    let (i, rest) ← (r.instructionAt offset).run input
    let more ← r.instructionsFrom length fuel rest
    pure ((offset, i) :: more)

/-- The instructions of a code array with their offsets. -/
def instructions (r : Resolver) (code : List UInt8) :
    Except FormatError (List (Nat × Instruction Int)) :=
  r.instructionsFrom code.length code.length code

end Resolver

/-- The offsets of the frames of one stack map table: the first at its delta, each next one its
delta plus one after the one before. -/
def frameOffsets : Option Nat → List StackMapFrame → List (Nat × Frame UInt16 UInt16)
  | _, [] => []
  | previous, f :: rest =>
    let offset := match previous with
      | none => f.delta.toNat
      | some p => p + f.delta.toNat + 1
    (offset, f.frame) :: frameOffsets (some offset) rest

/-- What a method body's side tables say: line numbers as (offset, line) in table order, and
frames by offset in table order. -/
structure SideTables where
  lines : List (Nat × UInt16) := []
  frames : List (Nat × Frame UInt16 UInt16) := []
  deriving Inhabited

/-- Reads the line number and stack map tables among the attributes of a `Code` attribute. The
name of every attribute must be text; tables that `options` skip are not read. -/
def SideTables.read (p : Pool) (options : ReadOptions) :
    List RawAttribute → Except FormatError SideTables
  | [] => .ok {}
  | a :: rest => do
    let name ← p.utf8 a.name
    let here ←
      if name == "LineNumberTable" && !options.skipDebug then do
        let entries ← a.decode (Reader.list RawLine.read)
        pure { lines := entries.map fun e => (e.start.toNat, e.line) : SideTables }
      else if name == "StackMapTable" && !options.skipFrames then do
        let frames ← a.decode (Reader.list StackMapFrame.read)
        pure { frames := frameOffsets none frames : SideTables }
      else pure {}
    let more ← SideTables.read p options rest
    pure { lines := here.lines ++ more.lines, frames := here.frames ++ more.frames }

def insertSorted (n : Nat) : List Nat → List Nat
  | [] => [n]
  | m :: rest => if n < m then n :: m :: rest else if n = m then m :: rest
    else m :: insertSorted n rest

def sortedDistinct (ns : List Nat) : List Nat := ns.foldr insertSorted []

namespace SideTables

def frameKeys (t : SideTables) : List Nat := sortedDistinct (t.frames.map (·.1))

/-- The frame at an offset: the last one the tables give for it. -/
def frameAt? (t : SideTables) (offset : Nat) : Option (Frame UInt16 UInt16) :=
  (t.frames.reverse.find? (·.1 == offset)).map (·.2)

def lineKeys (t : SideTables) : List Nat := sortedDistinct (t.lines.map (·.1))

/-- The lines that start at an offset, in table order. -/
def linesAt (t : SideTables) (offset : Nat) : List UInt16 :=
  (t.lines.filter (·.1 == offset)).map (·.2)

end SideTables

def checkOffsets (boundaries : List Nat) : List Int → Except FormatError Unit
  | [] => .ok ()
  | t :: rest =>
    if 0 ≤ t && boundaries.contains t.toNat then checkOffsets boundaries rest
    else .error (.invalidCodeOffset t)

namespace CodeAttribute

/-- Decodes the body of a method: its instructions with markers, and its exception handlers. -/
def body (c : CodeAttribute) (r : Resolver) (options : ReadOptions) :
    Except FormatError (List (Instruction Label) × List (Handler Label)) := do
  let tables ← SideTables.read r.pool options c.attributes
  let decoded ← r.instructions c.code
  let boundaries := decoded.map (·.1) ++ [c.code.length]
  let frameKeys := tables.frameKeys
  let frameSites := frameKeys.flatMap fun o =>
    ((tables.frameAt? o).map Frame.sites).getD []
  let targets : List Int :=
    decoded.flatMap (fun (_, i) => i.targets) ++
    c.handlers.flatMap (fun h => [Int.ofNat h.start.toNat, Int.ofNat h.«end».toNat,
      Int.ofNat h.handler.toNat]) ++
    tables.lineKeys.map Int.ofNat ++
    frameSites.map (fun s => Int.ofNat s.toNat)
  checkOffsets boundaries (frameKeys.map Int.ofNat)
  checkOffsets boundaries targets
  let labelled := sortedDistinct (targets.map Int.toNat)
  let labelOf (offset : Nat) : Label := ⟨labelled.idxOf offset⟩
  let place (offset : Nat) (insn : Option (Instruction Int)) :
      Except FormatError (List (Instruction Label)) := do
    let label := if labelled.contains offset then [.label (labelOf offset)] else []
    let lines := (tables.linesAt offset).map fun line => .lineNumber line (labelOf offset)
    let frame ← match tables.frameAt? offset with
      | some f => do
        let f' ← f.mapM r.pool.className (fun site => pure (labelOf site.toNat))
        pure [Instruction.frame f']
      | none => pure []
    let own := (insn.map fun i => i.mapLabels fun t => labelOf t.toNat).toList
    pure (label ++ lines ++ frame ++ own)
  let steps := decoded.map (fun (o, i) => (o, some i)) ++ [(c.code.length, none)]
  let instructions ← steps.mapM fun (o, i) => place o i
  let handlers ← c.handlers.mapM fun h => do
    let catchType ← r.pool.optionalClassName h.catchType
    pure { start := labelOf h.start.toNat, «end» := labelOf h.«end».toNat,
           handler := labelOf h.handler.toNat, catchType : Handler Label }
  pure (instructions.flatten, handlers)

end CodeAttribute

end ClassPatch
