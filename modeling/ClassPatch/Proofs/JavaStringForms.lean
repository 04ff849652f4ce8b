import ClassPatch.Proofs.DocumentShapes

/-!
Java strings have one form per sequence of units. Units that are well-formed UTF-16 are held as
an ordinary string and only others as they are, so two Java strings are equal exactly when their
units are, a Java string is ordinary text exactly when its units are the UTF-16 form of some
characters, and building a Java string from its own units gives it back. The readers of the JSON
form, for requests and for patch documents alike, read the array of a string's units as that
string whichever form it is held in, so the two JSON forms of well-formed text are one value.
-/

namespace ClassPatch

namespace Json

theorem toUInt16_int (what : String) (u : UInt16) : toUInt16 what (.int u.toNat) = .ok u := by
  have hlt := u.toNat_lt
  have hle : u.toNat ≤ 65535 := by
    change _ < 65536 at hlt
    omega
  simp [toUInt16, toNatBelow, toIntIn, hle, Except.map]

theorem mapM_toUInt16_units (what : String) (us : List UInt16) :
    (us.map fun u => Json.int u.toNat).mapM (toUInt16 what) = .ok us := by
  induction us with
  | nil => rfl
  | cons u us ih =>
    rw [List.map_cons, List.mapM_cons, toUInt16_int, ih]
    rfl

end Json

namespace JavaString

theorem toString?_isSome_iff (s : JavaString) :
    s.toString?.isSome ↔ ∃ chars, Utf16.encode chars = s.units := by
  rw [toString?_eq_decode?, Option.isSome_map, Option.isSome_iff_exists]
  simp only [Utf16.decode?_eq_some_iff]

theorem ofJson?_units (what : String) (s : JavaString) :
    ofJson? what (.arr (s.units.map fun u => .int u.toNat)) = .ok s := by
  simp only [ofJson?, Json.mapM_toUInt16_units]
  exact congrArg Except.ok (ofUtf16_units s)

/-- A Java string is determined by its units, whichever way it was built: it is ordinary text
exactly when they are well-formed UTF-16, the Java string of its units is itself and keeps them,
and an array of its units reads back as it. -/
theorem determined_by_units :
    (∀ s t : JavaString, s = t ↔ s.units = t.units) ∧
    (∀ s : JavaString, s.toString?.isSome ↔ ∃ chars, Utf16.encode chars = s.units) ∧
    (∀ s : JavaString, ofUtf16 s.units = s) ∧
    (∀ units : List UInt16, (ofUtf16 units).units = units) ∧
    ∀ (what : String) (s : JavaString),
      ofJson? what (.arr (s.units.map fun u => .int u.toNat)) = .ok s ∧
      Shape.javaString (.arr (s.units.map fun u => .int u.toNat)) = some s :=
  ⟨fun _ _ => units_injective.eq_iff.symm, toString?_isSome_iff, ofUtf16_units, units_ofUtf16,
    fun what s => ⟨ofJson?_units what s, Shape.javaString_units s⟩⟩

example : ofUtf16 [0x61, 0xD83D, 0xDE00] = ofString "a😀" := by decide

end JavaString

end ClassPatch
