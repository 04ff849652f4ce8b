import ClassPatch.ClassFile.Pool

namespace ClassPatch

namespace Pool

section Search

variable {slots : List Nat} {offset : Nat}

theorem getElem_le_of_le (hs : slots.Pairwise (· < ·)) {i j : Nat} (hij : i ≤ j)
    (hj : j < slots.length) : slots[i] ≤ slots[j] := by
  rcases Nat.lt_or_eq_of_le hij with hlt | rfl
  · exact Nat.le_of_lt (List.pairwise_iff_getElem.mp hs i j (by omega) hj hlt)
  · exact Nat.le_refl _

/-- The `size` slots from `base` lie among the slots and hold every position of `offset`. -/
structure Window (slots : List Nat) (offset base size : Nat) : Prop where
  nonempty : 1 ≤ size
  bounded : base + size ≤ slots.length
  holds : ∀ i (h : i < slots.length), slots[i] = offset → base ≤ i ∧ i < base + size

theorem Window.whole (h : slots ≠ []) : Window slots offset 0 slots.length :=
  ⟨List.length_pos_iff.mpr h, by omega, fun i hi _ => ⟨Nat.zero_le i, by omega⟩⟩

theorem Window.halve (hs : slots.Pairwise (· < ·)) {base size : Nat}
    (hw : Window slots offset base size) (hsize : 2 ≤ size) :
    Window slots offset
      (if offset < slots.getD (base + size / 2) 0 then base else base + size / 2)
      (size - size / 2) := by
  have hbounded := hw.bounded
  have hmid : base + size / 2 < slots.length := by omega
  rw [List.getD_eq_getElem?_getD, List.getElem?_eq_getElem hmid, Option.getD_some]
  refine ⟨by omega, by split <;> omega, fun i hi hoff => ?_⟩
  obtain ⟨hlo, hhi⟩ := hw.holds i hi hoff
  split
  · next hbelow =>
    have hbefore : i < base + size / 2 := Nat.lt_of_not_le fun hge => by
      have := getElem_le_of_le hs hge hi
      omega
    omega
  · next habove =>
    have hafter : base + size / 2 ≤ i := Nat.le_of_not_lt fun hlt => by
      have := List.pairwise_iff_getElem.mp hs i _ hi hmid hlt
      omega
    omega

theorem Window.narrow (hs : slots.Pairwise (· < ·)) (fuel : Nat) {base size : Nat}
    (hw : Window slots offset base size) (hfuel : size ≤ fuel + 1) :
    Window slots offset (Pool.narrow slots offset fuel base size) 1 := by
  induction fuel generalizing base size with
  | zero =>
    obtain rfl : size = 1 := by
      have := hw.nonempty
      omega
    exact hw
  | succ fuel ih =>
    rw [Pool.narrow]
    split
    · obtain rfl : size = 1 := by
        have := hw.nonempty
        omega
      exact hw
    · exact ih (hw.halve hs (by omega)) (by omega)

theorem Window.single {base : Nat} (hw : Window slots offset base 1) :
    base < slots.length ∧ ∀ i (h : i < slots.length), slots[i] = offset → i = base :=
  ⟨by have := hw.bounded; omega, fun i hi hoff => by have := hw.holds i hi hoff; omega⟩

theorem search_eq_ok_iff (hs : slots.Pairwise (· < ·)) {position : Nat} :
    search slots offset = .ok position ↔ slots[position]? = some offset := by
  by_cases hnil : slots = []
  · subst hnil
    simp [search]
  have hwhole : Window slots offset 0 slots.length := Window.whole hnil
  obtain ⟨hbase, hunique⟩ := (hwhole.narrow hs slots.length (by omega)).single
  have hslot : slots.getD (Pool.narrow slots offset slots.length 0 slots.length) 0 =
      slots[Pool.narrow slots offset slots.length 0 slots.length] := by
    rw [List.getD_eq_getElem?_getD, List.getElem?_eq_getElem hbase, Option.getD_some]
  simp only [search, List.isEmpty_iff, hnil, if_false, hslot]
  constructor
  · intro h
    split at h
    · next heq =>
      cases h
      rw [List.getElem?_eq_getElem hbase, heq]
    · split at h <;> cases h
  · intro h
    obtain ⟨hpos, hoff⟩ := List.getElem?_eq_some_iff.mp h
    obtain rfl := hunique position hpos hoff
    rw [if_pos hoff]

end Search

variable {p : Pool}

theorem getOffset?_eq_some_iff (hs : p.entries.Pairwise (fun a b => a.1 < b.1)) {offset : Nat}
    {e : PoolEntry} : p.getOffset? offset = some e ↔ (offset, e) ∈ p.entries := by
  have hslots : (p.entries.map (·.1)).Pairwise (· < ·) := List.pairwise_map.mpr hs
  unfold getOffset?
  constructor
  · intro h
    split at h
    · next position hpos =>
      obtain ⟨x, hx, rfl⟩ := Option.map_eq_some_iff.mp h
      have hfirst := (search_eq_ok_iff hslots).mp hpos
      rw [List.getElem?_map, hx, Option.map_some, Option.some_inj] at hfirst
      rw [← hfirst]
      exact List.mem_of_getElem? hx
    · cases h
  · intro h
    obtain ⟨position, hpos⟩ := List.mem_iff_getElem?.mp h
    have hfirst : (p.entries.map (·.1))[position]? = some offset := by
      simp [List.getElem?_map, hpos]
    rw [(search_eq_ok_iff hslots).mpr hfirst]
    simp [hpos]

theorem get?_eq_some_iff (hs : p.entries.Pairwise (fun a b => a.1 < b.1)) {index : UInt16}
    {e : PoolEntry} : p.get? index = some e ↔ (index.toNat, e) ∈ p.entries :=
  getOffset?_eq_some_iff hs

end Pool

end ClassPatch
