import ClassPatch.Json.Scan

namespace ClassPatch

/-- A reader of JSON text: the bytes not read yet are its state, and whether the source broke
past them is its context. -/
abbrev Cursor := StateT (List UInt8) (ReaderT Bool (Except ScanFault))

namespace Cursor

def step {α : Type} (f : Bool → List UInt8 → Except ScanFault (α × List UInt8)) : Cursor α :=
  fun input broken => f broken input

/-- Runs a reader on bytes and whether their source broke past them. -/
def run {α : Type} (r : Cursor α) (bytes : List UInt8) (broken : Bool) :
    Except ScanFault (α × List UInt8) :=
  (StateT.run r bytes).run broken

def peek : Cursor (Option UInt8) := step Scan.peekAfterBlank

def bump : Cursor Unit := modify List.tail

def word (rest : List UInt8) : Cursor Unit :=
  step fun broken input => (Scan.word broken rest input).map ((), ·)

def string : Cursor String := step Scan.string

def skipString : Cursor Unit :=
  step fun broken input => (Scan.skipString broken input).map ((), ·)

def number (positive : Bool) : Cursor Json := step fun broken input => Scan.number broken positive input

def skipNumber : Cursor Unit :=
  step fun broken input => (Scan.skipNumber broken input).map ((), ·)

def scalar (b : UInt8) : Cursor (Option Json) := do
  if b == 0x6E then do bump; word [0x75, 0x6C, 0x6C]; pure (some .null)
  else if b == 0x74 then do bump; word [0x72, 0x75, 0x65]; pure (some (.bool true))
  else if b == 0x66 then do bump; word [0x61, 0x6C, 0x73, 0x65]; pure (some (.bool false))
  else if b == 0x2D then do bump; let n ← number false; pure (some n)
  else if Scan.isDigit b then do let n ← number true; pure (some n)
  else if b == 0x22 then do bump; let s ← string; pure (some (.str s))
  else if b == 0x5B || b == 0x7B then pure none
  else throw .grammar

def wrongKind {α : Type} (b : UInt8) : Cursor α := do
  let _ ← scalar b
  throw .data

def expectValue : Cursor UInt8 := do
  match ← peek with
  | some b => pure b
  | none => throw .eof

def enter (depth : Nat) : Cursor Nat :=
  if depth ≤ 1 then throw .grammar else pure (depth - 1)

def nextElement (first : Bool) : Cursor Bool := do
  match ← peek with
  | none => throw .eof
  | some 0x5D => pure false
  | some b =>
    if first then pure true
    else if b == 0x2C then do
      bump
      match ← peek with
      | some 0x5D => throw .grammar
      | some _ => pure true
      | none => throw .eof
    else throw .grammar

def nextKey (first : Bool) : Cursor Bool := do
  match ← peek with
  | none => throw .eof
  | some 0x7D => pure false
  | some b =>
    if first then (if b == 0x22 then pure true else throw .grammar)
    else if b == 0x2C then do
      bump
      match ← peek with
      | some 0x22 => pure true
      | some _ => throw .grammar
      | none => throw .eof
    else throw .grammar

def key : Cursor String := do bump; string

def colon : Cursor Unit := do
  match ← peek with
  | some 0x3A => bump
  | some _ => throw .grammar
  | none => throw .eof

def endArray : Cursor Unit := do
  match ← peek with
  | some 0x5D => bump
  | some _ => throw .grammar
  | none => throw .eof

def endObject : Cursor Unit := do
  match ← peek with
  | some 0x7D => bump
  | some _ => throw .grammar
  | none => throw .eof

def finish : Cursor Unit := do
  match ← peek with
  | some _ => throw .grammar
  | none => pure ()

def expectString : Cursor String := do
  let b ← expectValue
  if b == 0x22 then do bump; string else wrongKind b

def expectNat (bound : Nat) : Cursor Nat := do
  let b ← expectValue
  if b == 0x2D then do
    bump
    let _ ← number false
    throw .data
  else if Scan.isDigit b then do
    match ← number true with
    | .int n => if n < bound then pure n.toNat else throw .data
    | _ => throw .data
  else wrongKind b

mutual

/-- Reads any value, with `depth` levels of nesting left. -/
def value : Nat → Nat → Cursor Json
  | 0, _ => throw .grammar
  | fuel + 1, depth => do
    let b ← expectValue
    if b == 0x5B then do
      let inner ← enter depth
      bump
      let items ← elements fuel inner true []
      endArray
      pure (.arr items)
    else if b == 0x7B then do
      let inner ← enter depth
      bump
      let entries ← members fuel inner true []
      endObject
      pure (.obj entries)
    else do
      match ← scalar b with
      | some j => pure j
      | none => throw .grammar

/-- Reads the elements of an array up to its closing bracket, which is left for the caller. -/
def elements : Nat → Nat → Bool → List Json → Cursor (List Json)
  | 0, _, _, _ => throw .grammar
  | fuel + 1, depth, first, acc => do
    if ← nextElement first then do
      let v ← value fuel depth
      elements fuel depth false (v :: acc)
    else pure acc.reverse

def members : Nat → Nat → Bool → List (String × Json) → Cursor (List (String × Json))
  | 0, _, _, _ => throw .grammar
  | fuel + 1, depth, first, acc => do
    if ← nextKey first then do
      let k ← key
      colon
      let v ← value fuel depth
      members fuel depth false ((k, v) :: acc)
    else pure acc.reverse

end

def restOfArray (fuel depth : Nat) (first : Bool) : Cursor (List Json) := do
  let items ← elements fuel depth first []
  endArray
  pure items

/-- Where skipping a value stands: before a value, inside the containers `outer` and `enclosing`
(the innermost), or after a value or an opening bracket of the container `frame`, where a comma
is allowed only after a value. -/
inductive SkipState where
  | before (outer : List UInt8) (enclosing : Option UInt8)
  | after (outer : List UInt8) (comma : Bool) (frame : UInt8)

def SkipState.closeTo : List UInt8 → Option SkipState
  | [] => none
  | frame :: outer => some (.after outer true frame)

def memberStart (frame : UInt8) : Cursor Unit := do
  if frame == 0x7B then do
    let b ← expectValue
    if b == 0x22 then do bump; skipString else throw .grammar
    colon

def skipRun : Nat → SkipState → Cursor Unit
  | 0, _ => throw .grammar
  | fuel + 1, .before outer enclosing => do
    let b ← expectValue
    if b == 0x5B || b == 0x7B then do
      bump
      skipRun fuel (.after (enclosing.toList ++ outer) false b)
    else do
      if b == 0x6E then do bump; word [0x75, 0x6C, 0x6C]
      else if b == 0x74 then do bump; word [0x72, 0x75, 0x65]
      else if b == 0x66 then do bump; word [0x61, 0x6C, 0x73, 0x65]
      else if b == 0x2D then do bump; skipNumber
      else if Scan.isDigit b then skipNumber
      else if b == 0x22 then do bump; skipString
      else throw .grammar
      match enclosing with
      | some frame => skipRun fuel (.after outer true frame)
      | none =>
        match SkipState.closeTo outer with
        | some next => skipRun fuel next
        | none => pure ()
  | fuel + 1, .after outer comma frame => do
    match ← peek with
    | none => throw .eof
    | some b =>
      if b == 0x2C && comma then do
        bump
        memberStart frame
        skipRun fuel (.before outer (some frame))
      else if (b == 0x5D && frame == 0x5B) || (b == 0x7D && frame == 0x7B) then do
        bump
        match SkipState.closeTo outer with
        | some next => skipRun fuel next
        | none => pure ()
      else if comma then throw .grammar
      else do
        memberStart frame
        skipRun fuel (.before outer (some frame))

def skip (fuel : Nat) : Cursor Unit := skipRun fuel (.before [] none)

def whole (fuel depth : Nat) : Cursor Json := do
  let v ← value fuel depth
  finish
  pure v

end Cursor

def Json.ofText (bytes : List UInt8) : Except ScanFault Json :=
  ((Cursor.whole (4 * bytes.length + 4) 128).run bytes false).map (·.1)

end ClassPatch
