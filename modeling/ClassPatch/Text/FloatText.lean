namespace ClassPatch

namespace FloatText

/-- A binary interchange format: the widths of the fraction and of the exponent, and the bit
patterns of its nearest values to `10^-4` and to `10^16`, where the notation changes. -/
structure Format where
  fractionBits : Nat
  exponentBits : Nat
  smallBits : Nat
  largeBits : Nat

def single : Format := ⟨23, 8, 0x38D1B717, 0x5A0E1BCA⟩

def double : Format := ⟨52, 11, 0x3F1A36E2EB1C432D, 0x4341C37937E08000⟩

/-- A positive finite number `f·2^e` together with the numbers that read back as it: from
`(f - below)·2^e` to `(f + above)·2^e`, the ends included when `inclusive`. -/
structure Interval where
  f : Nat
  e : Int
  below : Nat
  above : Nat
  inclusive : Bool

def fraction (a : Nat) (p q : Int) : Nat × Nat :=
  (a * Nat.pow 2 p.toNat * Nat.pow 10 q.toNat, Nat.pow 2 (-p).toNat * Nat.pow 10 (-q).toNat)

def under (orEqual : Bool) (x y : Nat × Nat) : Bool :=
  if orEqual then x.1 * y.2 ≤ y.1 * x.2 else x.1 * y.2 < y.1 * x.2

def interval (fmt : Format) (exponent fractionField : Nat) : Interval :=
  let shift : Int := (Nat.pow 2 (fmt.exponentBits - 1) - 1 + fmt.fractionBits : Nat)
  if exponent == 0 then
    { f := 2 * fractionField, e := -shift, below := 1, above := 1, inclusive := true }
  else
    let f := fractionField + Nat.pow 2 fmt.fractionBits
    let e : Int := (exponent : Int) - shift
    if fractionField == 0 then
      { f := 4 * f, e := e - 2, below := 1, above := 2, inclusive := f % 2 == 0 }
    else { f := 2 * f, e := e - 1, below := 1, above := 1, inclusive := f % 2 == 0 }

namespace Interval

/-- The number itself as a fraction. -/
def value (i : Interval) : Nat × Nat := fraction i.f i.e 0

def low (i : Interval) : Nat × Nat := fraction (i.f - i.below) i.e 0

def high (i : Interval) : Nat × Nat := fraction (i.f + i.above) i.e 0

/-- Whether `d·10^k` reads back as the number. -/
def contains (i : Interval) (d : Nat) (k : Int) : Bool :=
  under i.inclusive i.low (fraction d 0 k) && under i.inclusive (fraction d 0 k) i.high

def magnitude (i : Interval) : Int :=
  let bits : Int := (Nat.log2 i.f + 1 : Nat) + i.e
  let estimate := bits * 30103 / 100000
  let candidates := (List.range 6).map fun (j : Nat) => estimate - 2 + j
  (candidates.find? fun k => under false i.value (fraction 1 0 k)).getD (estimate + 4)

def nearestWith (i : Interval) (k : Int) (n : Nat) : Option Nat :=
  let step : Int := k - n
  let (num, den) := fraction i.f i.e (-step)
  let d := num / den
  let up := under true (fraction (2 * d + 1) 0 step) (fraction (2 * i.f) i.e 0)
  let down := i.contains d step
  let upper := i.contains (d + 1) step
  if down && upper then some (if up then d + 1 else d)
  else if down then some d
  else if upper then some (d + 1)
  else none

def shortest (i : Interval) (fuel : Nat) : List Char × Int :=
  let k := i.magnitude
  if i.contains 1 k then (['1'], k + 1)
  else
    let found := (List.range fuel).findSome? fun j =>
      (i.nearestWith k (j + 1)).map fun d => (d, j + 1)
    match found with
    | some (d, n) =>
      let text := Nat.toDigits 10 d
      let digits := (text.reverse.dropWhile (· == '0')).reverse
      (digits, k + (text.length - n : Nat))
    | none => (Nat.toDigits 10 i.f, k)

end Interval

def positional (digits : List Char) (k : Int) : String :=
  if k ≤ 0 then String.ofList (['0', '.'] ++ List.replicate k.natAbs '0' ++ digits)
  else if k.toNat < digits.length then
    String.ofList (digits.take k.toNat ++ '.' :: digits.drop k.toNat)
  else String.ofList (digits ++ List.replicate (k.toNat - digits.length) '0' ++ ['.', '0'])

def scientific (digits : List Char) (k : Int) : String :=
  match digits with
  | [] => "0e0"
  | [first] => String.ofList [first] ++ "e" ++ toString (k - 1)
  | first :: rest => String.ofList (first :: '.' :: rest) ++ "e" ++ toString (k - 1)

def ofBits (fmt : Format) (bits : Nat) : String :=
  let magnitudeBits := bits % Nat.pow 2 (fmt.fractionBits + fmt.exponentBits)
  let negative := bits / Nat.pow 2 (fmt.fractionBits + fmt.exponentBits) % 2 == 1
  let exponent := magnitudeBits / Nat.pow 2 fmt.fractionBits
  let fractionField := magnitudeBits % Nat.pow 2 fmt.fractionBits
  let sign := if negative then "-" else ""
  if exponent == Nat.pow 2 fmt.exponentBits - 1 then
    if fractionField == 0 then sign ++ "inf" else "NaN"
  else if magnitudeBits == 0 then sign ++ "0.0"
  else
    let (digits, k) := (interval fmt exponent fractionField).shortest 17
    if magnitudeBits < fmt.smallBits || fmt.largeBits ≤ magnitudeBits then
      sign ++ scientific digits k
    else sign ++ positional digits k

def ofSingle (bits : UInt32) : String := ofBits single bits.toNat

def ofDouble (bits : UInt64) : String := ofBits double bits.toNat

end FloatText

end ClassPatch
