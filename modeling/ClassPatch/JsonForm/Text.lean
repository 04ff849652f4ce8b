import ClassPatch.Json.Read
import ClassPatch.Text.JavaString

namespace ClassPatch

namespace JavaString

def toJson (s : JavaString) : Json :=
  match s.toString? with
  | some text => .str text
  | none => .arr (s.units.map fun u => .int u.toNat)

/-- A JSON string, or an array of `u16` units. -/
def ofJson? (what : String) : Json → Except String JavaString
  | .str text => .ok (ofString text)
  | .arr items => (items.mapM (Json.toUInt16 what)).map JavaString.ofUtf16
  | _ => .error s!"expected a string or an array of units for {what}"

end JavaString

end ClassPatch
