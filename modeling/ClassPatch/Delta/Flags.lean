import ClassPatch.Text.Blank

namespace ClassPatch

/-- The named flags of one kind of member, in the order they are written. -/
structure FlagNames where
  names : List (String × UInt16)

namespace FlagNames

def ofClass : FlagNames :=
  ⟨[("PUBLIC", 0x0001), ("FINAL", 0x0010), ("SUPER", 0x0020), ("INTERFACE", 0x0200),
    ("ABSTRACT", 0x0400), ("SYNTHETIC", 0x1000), ("ANNOTATION", 0x2000), ("ENUM", 0x4000),
    ("MODULE", 0x8000)]⟩

def ofMethod : FlagNames :=
  ⟨[("PUBLIC", 0x0001), ("PRIVATE", 0x0002), ("PROTECTED", 0x0004), ("STATIC", 0x0008),
    ("FINAL", 0x0010), ("SYNCHRONIZED", 0x0020), ("BRIDGE", 0x0040), ("VARARGS", 0x0080),
    ("NATIVE", 0x0100), ("ABSTRACT", 0x0400), ("STRICT", 0x0800), ("SYNTHETIC", 0x1000)]⟩

def ofField : FlagNames :=
  ⟨[("PUBLIC", 0x0001), ("PRIVATE", 0x0002), ("PROTECTED", 0x0004), ("STATIC", 0x0008),
    ("FINAL", 0x0010), ("VOLATILE", 0x0040), ("TRANSIENT", 0x0080), ("SYNTHETIC", 0x1000),
    ("ENUM", 0x4000)]⟩

def known (t : FlagNames) : UInt16 := t.names.foldl (fun acc (_, b) => acc ||| b) 0

def render (t : FlagNames) (bits : UInt16) : String :=
  let set := (t.names.filter fun (_, b) => bits &&& b == b).map (·.1)
  let rest := bits &&& ~~~t.known
  let extra := if rest == 0 then [] else ["0x" ++ String.ofList (Nat.toDigits 16 rest.toNat)]
  " | ".intercalate (set ++ extra)

def hexValue? (digits : List Char) : Option UInt16 :=
  let body := match digits with
    | '+' :: rest => rest
    | other => other
  if body.isEmpty then none
  else
    let value? := body.foldlM (fun acc c =>
      if '0' ≤ c && c ≤ '9' then some (acc * 16 + (c.toNat - '0'.toNat))
      else if 'a' ≤ c && c ≤ 'f' then some (acc * 16 + (c.toNat - 'a'.toNat + 10))
      else if 'A' ≤ c && c ≤ 'F' then some (acc * 16 + (c.toNat - 'A'.toNat + 10))
      else none) 0
    match value? with
    | some v => if v < 65536 then some v.toUInt16 else none
    | none => none

def part? (t : FlagNames) (part : String) : Option UInt16 :=
  match part.toList with
  | '0' :: 'x' :: digits => hexValue? digits
  | [] => none
  | _ => t.names.lookup part

def parse? (t : FlagNames) (text : String) : Option UInt16 :=
  if (Blank.trim text).isEmpty then some 0
  else (text.toList.splitOn '|').foldlM
    (fun acc part => (t.part? (Blank.trim (String.ofList part))).map (acc ||| ·)) 0

end FlagNames

end ClassPatch
