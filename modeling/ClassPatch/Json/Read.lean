import ClassPatch.Json.Value

namespace ClassPatch

namespace Json

def toIntIn (lo hi : Int) (what : String) : Json → Except String Int
  | .int i => if lo ≤ i ∧ i ≤ hi then .ok i else .error s!"{what} out of range: {i}"
  | _ => .error s!"expected an integer for {what}"

def toNatBelow (bound : Nat) (what : String) (j : Json) : Except String Nat :=
  (toIntIn 0 (bound - 1 : Nat) what j).map Int.toNat

def toUInt8 (what : String) (j : Json) : Except String UInt8 :=
  (toNatBelow 256 what j).map Nat.toUInt8

/-- A `u16` value. -/
def toUInt16 (what : String) (j : Json) : Except String UInt16 :=
  (toNatBelow 65536 what j).map Nat.toUInt16

def toUInt32 (what : String) (j : Json) : Except String UInt32 :=
  (toNatBelow 4294967296 what j).map Nat.toUInt32

def toUInt64 (what : String) (j : Json) : Except String UInt64 :=
  (toNatBelow 18446744073709551616 what j).map Nat.toUInt64

def toInt32 (what : String) (j : Json) : Except String Int32 :=
  (toIntIn (-2147483648) 2147483647 what j).map Int.toInt32

def toInt16 (what : String) (j : Json) : Except String Int16 :=
  (toIntIn (-32768) 32767 what j).map Int.toInt16

def toInt64 (what : String) (j : Json) : Except String Int64 :=
  (toIntIn (-9223372036854775808) 9223372036854775807 what j).map Int.toInt64

def toStr (what : String) : Json → Except String String
  | .str s => .ok s
  | _ => .error s!"expected a string for {what}"

def toBool (what : String) : Json → Except String Bool
  | .bool b => .ok b
  | _ => .error s!"expected a boolean for {what}"

def toList (what : String) : Json → Except String (List Json)
  | .arr items => .ok items
  | _ => .error s!"expected an array for {what}"

def mapItems {α : Type} (what : String) (f : Json → Except String α) (j : Json) :
    Except String (List α) := do
  let items ← j.toList what
  items.mapM f

def member? (j : Json) (key : String) : Option Json :=
  match j.get? key with
  | some .null => none
  | other => other

/-- The value itself, for members read later. -/
def raw (_ : String) (j : Json) : Except String Json := .ok j

def need {α : Type} (j : Json) (key : String) (f : String → Json → Except String α) :
    Except String α :=
  match j.member? key with
  | some v => f key v
  | none => .error s!"missing member {key}"

def withDefault {α : Type} (j : Json) (key : String) (default : α)
    (f : String → Json → Except String α) : Except String α :=
  match j.member? key with
  | some v => f key v
  | none => .ok default

def optional {α : Type} (j : Json) (key : String) (f : String → Json → Except String α) :
    Except String (Option α) :=
  match j.member? key with
  | some v => (f key v).map some
  | none => .ok none

end Json

end ClassPatch
