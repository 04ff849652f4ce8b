namespace ClassPatch

/-- How decoding a deflate stream stopped. -/
inductive InflateStop where
  /-- The final block ended; `next` is the offset of the first byte after the stream. -/
  | done (next : Nat)
  /-- The input ran out. -/
  | truncated
  /-- The stream broke a rule. -/
  | corrupt
  deriving DecidableEq, Repr, Inhabited

/-- The state of a decoder: the input, the position of the next bit, and the output so far. -/
structure Inflater where
  input : Array UInt8
  position : Nat := 0
  output : Array UInt8 := #[]
  deriving Inhabited

/-- A step of decoding; a stop is thrown with the output kept in the state. -/
abbrev InflateM := ExceptT InflateStop (StateM Inflater)

/-- A canonical Huffman code: how many codes each length from 1 to 15 has, the symbols in order
of their codes, and the longest length that has a code (0 when none has). -/
structure Huffman where
  counts : Array Nat
  symbols : Array Nat
  longest : Nat
  deriving Inhabited

namespace Huffman

def maxLength : Nat := 15

def ofLengths (tolerant : Bool) (lengths : List Nat) : Option Huffman :=
  let counts := (List.range (maxLength + 1)).map fun len =>
    if len == 0 then 0 else (lengths.filter (· == len)).length
  let used := lengths.countP (· != 0)
  let space := (List.range (maxLength + 1)).foldl
    (fun acc len => acc + counts.getD len 0 * Nat.pow 2 (maxLength + 1 - len)) 0
  let sparse := used == 0 || (used == 1 && counts.getD 1 0 == 1)
  if space != Nat.pow 2 (maxLength + 1) && !(tolerant && sparse) then none
  else
    let indexed := lengths.zipIdx
    let symbols := (List.range (maxLength + 1)).flatMap fun len =>
      if len == 0 then [] else (indexed.filter (·.1 == len)).map (·.2)
    let longest := (List.range (maxLength + 1)).foldl
      (fun acc len => if counts.getD len 0 != 0 then len else acc) 0
    some { counts := counts.toArray, symbols := symbols.toArray, longest }

def fixedLiterals : Huffman :=
  (ofLengths true ((List.range 288).map fun s =>
    if s < 144 then 8 else if s < 256 then 9 else if s < 280 then 7 else 8)).getD default

def fixedDistances : Huffman := (ofLengths true (List.replicate 32 5)).getD default

end Huffman

namespace Inflate

def bit : InflateM Nat := do
  let s ← get
  match s.input[s.position / 8]? with
  | some byte =>
    set { s with position := s.position + 1 }
    pure ((byte.toNat >>> (s.position % 8)) % 2)
  | none => throw .truncated

def bits : Nat → InflateM Nat
  | 0 => pure 0
  | n + 1 => do
    let low ← bit
    let high ← bits n
    pure (low + 2 * high)

/-- Appends a byte to the output. -/
def emit (b : UInt8) : InflateM Unit :=
  modify fun s => { s with output := s.output.push b }

def decodeFrom (h : Huffman) : Nat → Nat → Nat → Nat → Nat → InflateM Nat
  | 0, _, _, _, _ => throw .corrupt
  | left + 1, len, code, first, index => do
    let code := code + (← bit)
    let count := h.counts.getD len 0
    if code < first + count then pure (h.symbols.getD (index + (code - first)) 0)
    else if h.longest ≤ len then throw .corrupt
    else decodeFrom h left (len + 1) (code * 2) ((first + count) * 2) (index + count)

/-- Decodes one symbol. -/
def decode (h : Huffman) : InflateM Nat := decodeFrom h Huffman.maxLength 1 0 0 0

def lengthBase : Array Nat :=
  #[3, 4, 5, 6, 7, 8, 9, 10, 11, 13, 15, 17, 19, 23, 27, 31, 35, 43, 51, 59, 67, 83, 99, 115,
    131, 163, 195, 227, 258]

def lengthExtra : Array Nat :=
  #[0, 0, 0, 0, 0, 0, 0, 0, 1, 1, 1, 1, 2, 2, 2, 2, 3, 3, 3, 3, 4, 4, 4, 4, 5, 5, 5, 5, 0]

def distanceBase : Array Nat :=
  #[1, 2, 3, 4, 5, 7, 9, 13, 17, 25, 33, 49, 65, 97, 129, 193, 257, 385, 513, 769, 1025, 1537,
    2049, 3073, 4097, 6145, 8193, 12289, 16385, 24577]

def distanceExtra : Array Nat :=
  #[0, 0, 0, 0, 1, 1, 2, 2, 3, 3, 4, 4, 5, 5, 6, 6, 7, 7, 8, 8, 9, 9, 10, 10, 11, 11, 12, 12, 13,
    13]

def copy (distance : Nat) : Nat → InflateM Unit
  | 0 => pure ()
  | n + 1 => do
    let s ← get
    let size := s.output.size
    let b := if distance ≤ size then s.output.getD (size - distance) 0 else 0
    emit b
    copy distance n

def symbols (literals distances : Huffman) : Nat → InflateM Unit
  | 0 => throw .corrupt
  | fuel + 1 => do
    let sym ← decode literals
    if sym < 256 then do
      emit sym.toUInt8
      symbols literals distances fuel
    else if sym == 256 then pure ()
    else if sym - 257 < lengthBase.size then do
      let i := sym - 257
      let length := lengthBase.getD i 0 + (← bits (lengthExtra.getD i 0))
      let d ← decode distances
      if d < distanceBase.size then do
        let distance := distanceBase.getD d 0 + (← bits (distanceExtra.getD d 0))
        copy distance length
        symbols literals distances fuel
      else throw .corrupt
    else throw .corrupt

def storedBytes : Nat → InflateM Unit
  | 0 => pure ()
  | n + 1 => do
    let b ← bits 8
    emit b.toUInt8
    storedBytes n

/-- Decodes a stored block: from the next byte, a length and its complement, then the bytes. -/
def stored : InflateM Unit := do
  modify fun s => { s with position := (s.position + 7) / 8 * 8 }
  let length ← bits 16
  let complement ← bits 16
  if length + complement != 0xFFFF then throw .corrupt
  storedBytes length

def codeLengthOrder : List Nat := [16, 17, 18, 0, 8, 7, 9, 6, 10, 5, 11, 4, 12, 3, 13, 2, 14, 1, 15]

def threeBitLengths : Nat → InflateM (List Nat)
  | 0 => pure []
  | n + 1 => do
    let l ← bits 3
    let rest ← threeBitLengths n
    pure (l :: rest)

def codeLengths (h : Huffman) (total : Nat) : Nat → List Nat → InflateM (List Nat)
  | 0, _ => throw .corrupt
  | fuel + 1, acc => do
    if acc.length ≥ total then pure acc
    else
      let sym ← decode h
      let (value, times) ← if sym < 16 then pure (sym, 1)
        else if sym == 16 then do
          match acc with
          | last :: _ => pure (last, 3 + (← bits 2))
          | [] => throw .corrupt
        else if sym == 17 then do pure (0, 3 + (← bits 3))
        else do pure (0, 11 + (← bits 7))
      if acc.length + times > total then throw .corrupt
      codeLengths h total fuel (List.replicate times value ++ acc)

def dynamicCodes (fuel : Nat) : InflateM (Huffman × Huffman) := do
  let literalCount := (← bits 5) + 257
  let distanceCount := (← bits 5) + 1
  let lengthCount := (← bits 4) + 4
  if literalCount > 286 || distanceCount > 30 then throw .corrupt
  let given ← threeBitLengths lengthCount
  let order := codeLengthOrder.zip (given ++ List.replicate (19 - lengthCount) 0)
  let lengthLengths := (List.range 19).map fun sym => (order.lookup sym).getD 0
  let lengthCode ← match Huffman.ofLengths false lengthLengths with
    | some h => pure h
    | none => throw .corrupt
  let reversed ← codeLengths lengthCode (literalCount + distanceCount) fuel []
  let lengths := reversed.reverse
  match Huffman.ofLengths true (lengths.take literalCount),
      Huffman.ofLengths true (lengths.drop literalCount) with
  | some literals, some distances => pure (literals, distances)
  | _, _ => throw .corrupt

/-- Decodes blocks up to the final one. -/
def blocks (fuel : Nat) : Nat → InflateM Unit
  | 0 => throw .corrupt
  | left + 1 => do
    let final ← bits 1
    let kind ← bits 2
    if kind == 0 then stored
    else if kind == 1 then symbols Huffman.fixedLiterals Huffman.fixedDistances fuel
    else if kind == 2 then do
      let (literals, distances) ← dynamicCodes fuel
      symbols literals distances fuel
    else throw .corrupt
    if final == 1 then pure () else blocks fuel left

end Inflate

def inflate (input : Array UInt8) (start : Nat) : Array UInt8 × InflateStop :=
  let fuel := 8 * input.size + 8
  let run : InflateM Nat := do
    Inflate.blocks fuel fuel
    let s ← get
    pure ((s.position + 7) / 8)
  match (run.run).run { input, position := 8 * start } with
  | (.ok next, s) => (s.output, .done next)
  | (.error stop, s) => (s.output, stop)

end ClassPatch
