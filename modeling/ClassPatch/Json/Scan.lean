import ClassPatch.Json.Value

namespace ClassPatch

/-- Why reading JSON text stopped. -/
inductive ScanFault where
  /-- The source of the bytes failed. -/
  | io
  /-- The text breaks the grammar. -/
  | grammar
  /-- The text ends in the middle of a value. -/
  | eof
  /-- A value has the wrong shape. -/
  | data
  deriving DecidableEq, Repr, Inhabited

/-- The name of a fault in answers. -/
def ScanFault.name : ScanFault → String
  | .io => "io"
  | .grammar => "syntax"
  | .eof => "eof"
  | .data => "data"

namespace Scan

def endFault (broken : Bool) (clean : ScanFault) : ScanFault := if broken then .io else clean

def isBlank (b : UInt8) : Bool := b == 0x20 || b == 0x09 || b == 0x0A || b == 0x0D

def isDigit (b : UInt8) : Bool := 0x30 ≤ b && b ≤ 0x39

def hexDigit? (b : UInt8) : Option Nat :=
  if isDigit b then some (b - 0x30).toNat
  else if 0x61 ≤ b && b ≤ 0x66 then some (b - 0x61 + 10).toNat
  else if 0x41 ≤ b && b ≤ 0x46 then some (b - 0x41 + 10).toNat
  else none

def hex4 (a b c d : UInt8) : Option Nat := do
  let w ← hexDigit? a
  let x ← hexDigit? b
  let y ← hexDigit? c
  let z ← hexDigit? d
  pure (((w * 16 + x) * 16 + y) * 16 + z)

def utf8Bytes (n : Nat) : List UInt8 := (String.singleton (Char.ofNat n)).toUTF8.toList

def simpleEscape? (b : UInt8) : Option UInt8 :=
  if b == 0x22 then some 0x22
  else if b == 0x5C then some 0x5C
  else if b == 0x2F then some 0x2F
  else if b == 0x62 then some 0x08
  else if b == 0x66 then some 0x0C
  else if b == 0x6E then some 0x0A
  else if b == 0x72 then some 0x0D
  else if b == 0x74 then some 0x09
  else none

def isHighSurrogate (n : Nat) : Bool := 0xD800 ≤ n && n ≤ 0xDBFF

def isLowSurrogate (n : Nat) : Bool := 0xDC00 ≤ n && n ≤ 0xDFFF

def stringBytes (broken : Bool) (acc : List UInt8) : List UInt8 →
    Except ScanFault (List UInt8 × List UInt8)
  | [] => .error (endFault broken .eof)
  | 0x22 :: rest => .ok (acc.reverse, rest)
  | [0x5C] => .error (endFault broken .eof)
  | 0x5C :: 0x75 :: a :: b :: c :: d :: rest =>
    match hex4 a b c d with
    | none => .error .grammar
    | some n =>
      if isLowSurrogate n then .error .grammar
      else if !isHighSurrogate n then stringBytes broken ((utf8Bytes n).reverse ++ acc) rest
      else
        match rest with
        | [] | [0x5C] => .error (endFault broken .eof)
        | 0x5C :: 0x75 :: a' :: b' :: c' :: d' :: rest' =>
          match hex4 a' b' c' d' with
          | none => .error .grammar
          | some n' =>
            if isLowSurrogate n' then
              let code := 0x10000 + (n - 0xD800) * 0x400 + (n' - 0xDC00)
              stringBytes broken ((utf8Bytes code).reverse ++ acc) rest'
            else .error .grammar
        | 0x5C :: 0x75 :: _ => .error (endFault broken .eof)
        | _ => .error .grammar
  | 0x5C :: 0x75 :: _ => .error (endFault broken .eof)
  | 0x5C :: e :: rest =>
    match simpleEscape? e with
    | some byte => stringBytes broken (byte :: acc) rest
    | none => .error .grammar
  | b :: rest => if b < 0x20 then .error .grammar else stringBytes broken (b :: acc) rest

def string (broken : Bool) (input : List UInt8) : Except ScanFault (String × List UInt8) := do
  let (bytes, rest) ← stringBytes broken [] input
  match String.fromUTF8? ⟨bytes.toArray⟩ with
  | some s => pure (s, rest)
  | none => throw .grammar

def skipString (broken : Bool) : List UInt8 → Except ScanFault (List UInt8)
  | [] => .error (endFault broken .eof)
  | 0x22 :: rest => .ok rest
  | [0x5C] => .error (endFault broken .eof)
  | 0x5C :: 0x75 :: a :: b :: c :: d :: rest =>
    if (hex4 a b c d).isSome then skipString broken rest else .error .grammar
  | 0x5C :: 0x75 :: _ => .error (endFault broken .eof)
  | 0x5C :: e :: rest =>
    if (simpleEscape? e).isSome then skipString broken rest else .error .grammar
  | b :: rest => if b < 0x20 then .error .grammar else skipString broken rest

def word (broken : Bool) : List UInt8 → List UInt8 → Except ScanFault (List UInt8)
  | [], input => .ok input
  | _ :: _, [] => .error (endFault broken .eof)
  | w :: ws, b :: rest => if b == w then word broken ws rest else .error .grammar

def peekAfterBlank (broken : Bool) (input : List UInt8) :
    Except ScanFault (Option UInt8 × List UInt8) :=
  match input.dropWhile isBlank with
  | [] => if broken then .error .io else .ok (none, [])
  | b :: rest => .ok (some b, b :: rest)

def peekByte (broken : Bool) : List UInt8 → Except ScanFault (Option UInt8)
  | [] => if broken then .error .io else .ok none
  | b :: _ => .ok (some b)

def skipDigits (input : List UInt8) : List UInt8 := input.dropWhile isDigit

def afterDigits (broken : Bool) (input : List UInt8) : Except ScanFault (Option UInt8 × List UInt8) :=
  let rest := skipDigits input
  (peekByte broken rest).map (·, rest)

def skipExponent (broken : Bool) (input : List UInt8) : Except ScanFault (List UInt8) := do
  let input ← match ← peekByte broken input with
    | some 0x2B | some 0x2D => pure input.tail
    | _ => pure input
  match input with
  | [] => throw (endFault broken .grammar)
  | d :: rest =>
    if isDigit d then do
      let (_, rest') ← afterDigits broken rest
      pure rest'
    else throw .grammar

def skipNumber (broken : Bool) (input : List UInt8) : Except ScanFault (List UInt8) := do
  let rest ← match input with
    | [] => throw (endFault broken .grammar)
    | 0x30 :: rest => do
      match ← peekByte broken rest with
      | some d => if isDigit d then throw .grammar else pure rest
      | none => pure rest
    | d :: rest => if 0x31 ≤ d && d ≤ 0x39 then pure (skipDigits rest) else throw .grammar
  match ← peekByte broken rest with
  | some 0x2E =>
    let fraction := rest.tail
    let after := skipDigits fraction
    if after.length == fraction.length then do
      let _ ← peekByte broken after
      throw .grammar
    else
      match ← peekByte broken after with
      | some 0x65 | some 0x45 => skipExponent broken after.tail
      | _ => pure after
  | some 0x65 | some 0x45 => skipExponent broken rest.tail
  | _ => pure rest

/-! ### Floating point range -/

def bitLength (n : Nat) : Nat := (Nat.toDigits 2 n).length

def nearestDouble (n : Nat) : Nat :=
  let len := bitLength n
  if len ≤ 53 then n
  else
    let shift := len - 53
    let q := n / Nat.pow 2 shift
    let r := n % Nat.pow 2 shift
    let half := Nat.pow 2 (shift - 1)
    let q' := if r > half || (r == half && q % 2 == 1) then q + 1 else q
    q' * Nat.pow 2 shift

def outOfRange (significand : Nat) (exponent : Int) : Bool :=
  if significand == 0 || exponent < 0 then false
  else if exponent > 308 then true
  else
    nearestDouble significand * nearestDouble (Nat.pow 10 exponent.toNat) ≥
      Nat.pow 2 1024 - Nat.pow 2 970

def floatValue (positive : Bool) (significand : Nat) (exponent : Int) : Json :=
  let m : Int := if positive then significand else -(significand : Int)
  if significand == 0 || exponent < -400 then .float 0 0
  else if exponent < 0 then .float m exponent.natAbs
  else if exponent ≤ 308 then .float (m * (Nat.pow 10 exponent.toNat : Nat)) 0
  else .float m 0

def u64Max : Nat := Nat.pow 2 64 - 1

def float (positive : Bool) (significand : Nat) (exponent : Int) : Except ScanFault Json :=
  if outOfRange significand exponent then .error .grammar
  else .ok (floatValue positive significand exponent)

def fitting (s : Nat) : List UInt8 → Nat
  | [] => 0
  | b :: rest =>
    let s' := s * 10 + (b - 0x30).toNat
    if s' ≤ u64Max then fitting s' rest + 1 else 0

def appendDigits (s : Nat) (digits : List UInt8) : Nat :=
  digits.foldl (fun acc b => acc * 10 + (b - 0x30).toNat) s

def exponentPart (broken : Bool) (positive : Bool) (significand : Nat) (start : Int)
    (input : List UInt8) : Except ScanFault (Json × List UInt8) := do
  let (positiveExp, input) ← match ← peekByte broken input with
    | some 0x2B => pure (true, input.tail)
    | some 0x2D => pure (false, input.tail)
    | _ => pure (true, input)
  match input with
  | [] => throw (endFault broken .eof)
  | d :: rest =>
    if !isDigit d then throw .grammar
    else
      let digits := d :: rest.takeWhile isDigit
      let rest' := rest.dropWhile isDigit
      let value := appendDigits 0 digits
      if value > 2147483647 && significand != 0 && positiveExp then throw .grammar
      else
        let _ ← peekByte broken rest'
        if value > 2147483647 then pure (floatValue positive 0 0, rest')
        else
          let e : Int := if positiveExp then start + value else start - value
          let e := max (-2147483648) (min 2147483647 e)
          let j ← float positive significand e
          pure (j, rest')

def fractionPart (broken : Bool) (positive : Bool) (significand : Nat) (start : Int)
    (input : List UInt8) : Except ScanFault (Json × List UInt8) := do
  let digits := input.takeWhile isDigit
  let rest := input.dropWhile isDigit
  if digits.isEmpty then
    match ← peekByte broken rest with
    | some _ => throw .grammar
    | none => throw .eof
  else
    let used := fitting significand digits
    let sig := appendDigits significand (digits.take used)
    let exponent := start - used
    match ← peekByte broken rest with
    | some 0x65 | some 0x45 => exponentPart broken positive sig exponent rest.tail
    | _ => do
      let j ← float positive sig exponent
      pure (j, rest)

def numberTail (broken : Bool) (positive : Bool) (significand : Nat) (dropped : Nat)
    (rest : List UInt8) : Except ScanFault (Json × List UInt8) := do
  match ← peekByte broken rest with
  | some 0x2E => fractionPart broken positive significand dropped rest.tail
  | some 0x65 | some 0x45 => exponentPart broken positive significand dropped rest.tail
  | _ =>
    if dropped > 0 then do
      let j ← float positive significand dropped
      pure (j, rest)
    else if positive then pure (.int significand, rest)
    else if significand == 0 || significand > Nat.pow 2 63 then
      pure (floatValue false significand 0, rest)
    else pure (.int (-(significand : Int)), rest)

def number (broken : Bool) (positive : Bool) (input : List UInt8) :
    Except ScanFault (Json × List UInt8) := do
  match input with
  | [] => throw (endFault broken .eof)
  | first :: rest =>
    if first == 0x30 then
      match ← peekByte broken rest with
      | some d => if isDigit d then throw .grammar else numberTail broken positive 0 0 rest
      | none => numberTail broken positive 0 0 rest
    else if 0x31 ≤ first && first ≤ 0x39 then
      let digits := first :: rest.takeWhile isDigit
      let rest' := rest.dropWhile isDigit
      let used := fitting 0 digits
      numberTail broken positive (appendDigits 0 (digits.take used)) (digits.length - used) rest'
    else throw .grammar

end Scan

end ClassPatch
