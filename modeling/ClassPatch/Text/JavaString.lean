namespace ClassPatch

namespace Utf16

def isHigh (unit : UInt16) : Bool := 0xD800 ≤ unit && unit < 0xDC00

def isLow (unit : UInt16) : Bool := 0xDC00 ≤ unit && unit < 0xE000

def ofChar (c : Char) : List UInt16 :=
  let code := c.toNat
  if code < 0x10000 then [code.toUInt16]
  else
    let rest := code - 0x10000
    [(0xD800 + rest / 0x400).toUInt16, (0xDC00 + rest % 0x400).toUInt16]

/-- The UTF-16 units of a list of characters. -/
def encode (chars : List Char) : List UInt16 :=
  chars.flatMap ofChar

def pairChar (high low : UInt16) : Char :=
  Char.ofNat (0x10000 + (high.toNat - 0xD800) * 0x400 + (low.toNat - 0xDC00))

/-- The characters of well-formed UTF-16, or `none` if a surrogate is unpaired. -/
def decode? : List UInt16 → Option (List Char)
  | [] => some []
  | unit :: rest =>
    if isHigh unit then
      match rest with
      | low :: rest' =>
        if isLow low then (decode? rest').map (pairChar unit low :: ·) else none
      | [] => none
    else if isLow unit then none
    else (decode? rest).map (Char.ofNat unit.toNat :: ·)

def decodeEach : List UInt16 → List (Except UInt16 Char)
  | [] => []
  | [unit] => [if isHigh unit || isLow unit then .error unit else .ok (Char.ofNat unit.toNat)]
  | unit :: tail@(next :: rest) =>
    if isHigh unit && isLow next then .ok (pairChar unit next) :: decodeEach rest
    else if isHigh unit || isLow unit then .error unit :: decodeEach tail
    else .ok (Char.ofNat unit.toNat) :: decodeEach tail

end Utf16

namespace JavaString

/-- How a Java string is held: as an ordinary string, or as its units. -/
inductive Form where
  | text (text : String)
  | units (units : List UInt16)
  deriving DecidableEq, Repr, Hashable

def Form.Canonical : Form → Prop
  | .text _ => True
  | .units us => Utf16.decode? us = none

end JavaString

/-- A string as the JVM holds it: UTF-16 code units, which need not pair up. Well-formed units
are held as an ordinary string, so a sequence of units has one form. -/
structure JavaString where
  form : JavaString.Form
  canonical : form.Canonical
  deriving DecidableEq, Repr, Hashable

namespace JavaString

/-- The Java string of UTF-16 units: an ordinary string when they are well-formed. -/
def ofUtf16 (units : List UInt16) : JavaString :=
  match h : Utf16.decode? units with
  | some chars => ⟨.text (String.ofList chars), trivial⟩
  | none => ⟨.units units, h⟩

def ofString (s : String) : JavaString := ⟨.text s, trivial⟩

instance : Coe String JavaString := ⟨ofString⟩

instance : Inhabited JavaString := ⟨ofString ""⟩

/-- The UTF-16 units of the string. -/
def units (s : JavaString) : List UInt16 :=
  match s.form with
  | .text text => Utf16.encode text.toList
  | .units us => us

/-- The ordinary string, if the units are well-formed UTF-16. -/
def toString? (s : JavaString) : Option String :=
  match s.form with
  | .text text => some text
  | .units _ => none

def isWellFormed (s : JavaString) : Bool := s.toString?.isSome

end JavaString

end ClassPatch
