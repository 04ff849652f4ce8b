import Mathlib
import ClassPatch.Patch.Record
import ClassPatch.Proofs.Utf
import ClassPatch.Proofs.TextForms

namespace ClassPatch

theorem Constant.listToJson_eq_map (cs : List Constant) : listToJson cs = cs.map toJson := by
  induction cs with
  | nil => rfl
  | cons c cs ih => simp [listToJson, ih]

theorem ElementValue.listToJson_eq_map (vs : List ElementValue) :
    listToJson vs = vs.map toJson := by
  induction vs with
  | nil => rfl
  | cons v vs ih => simp [listToJson, ih]

theorem ElementValue.pairsToJson_eq_map (es : List (String × ElementValue)) :
    pairsToJson es = es.map fun e => .arr [.str e.1, e.2.toJson] := by
  induction es with
  | nil => rfl
  | cons e es ih => simp [pairsToJson, ih]

theorem Constant.toJson_ne_null (c : Constant) : c.toJson ≠ .null := by
  cases c <;> simp [toJson, Json.tagged]

theorem ElementValue.toJson_ne_null (v : ElementValue) : v.toJson ≠ .null := by
  cases v <;> simp [toJson, Json.tagged]

theorem Json.depth_lt_of_mem {items : List Json} {d : Nat} (h : depthItems items < d) :
    ∀ j ∈ items, j.depth < d := by
  induction items with
  | nil => simp
  | cons j items ih =>
    simp only [depthItems] at h
    simp only [List.mem_cons, forall_eq_or_imp]
    exact ⟨by omega, ih (by omega)⟩

/-! ### Values that read back as they are -/

namespace Json

@[simp] theorem readable_null : Readable .null := trivial

@[simp] theorem readable_bool (b : Bool) : Readable (.bool b) := trivial

@[simp] theorem readable_str (s : String) : Readable (.str s) := trivial

@[simp] theorem readable_arr (items : List Json) : Readable (.arr items) ↔ ReadableItems items :=
  Iff.rfl

@[simp] theorem readable_obj (ms : List (String × Json)) :
    Readable (.obj ms) ↔ ReadableMembers ms :=
  Iff.rfl

@[simp] theorem readableItems_nil : ReadableItems [] := trivial

@[simp] theorem readableItems_cons (j : Json) (items : List Json) :
    ReadableItems (j :: items) ↔ Readable j ∧ ReadableItems items :=
  Iff.rfl

@[simp] theorem readableMembers_nil : ReadableMembers [] := trivial

@[simp] theorem readableMembers_cons (k : String) (v : Json) (ms : List (String × Json)) :
    ReadableMembers ((k, v) :: ms) ↔ Readable v ∧ ReadableMembers ms :=
  Iff.rfl

theorem readableItems_iff {items : List Json} : ReadableItems items ↔ ∀ j ∈ items, Readable j := by
  induction items with
  | nil => simp
  | cons j items ih => simp [ih]

theorem readableMembers_iff {ms : List (String × Json)} :
    ReadableMembers ms ↔ ∀ m ∈ ms, Readable m.2 := by
  induction ms with
  | nil => simp
  | cons m ms ih =>
    obtain ⟨k, v⟩ := m
    simp [ih]

theorem readable_nat {n : Nat} (h : n ≤ Scan.u64Max) : Readable (.int n) := by
  have h63 : Nat.pow 2 63 = 9223372036854775808 := rfl
  simp only [Readable, h63]
  omega

theorem readable_int {i : Int} (hlo : -9223372036854775808 ≤ i) (hhi : i < 9223372036854775808) :
    Readable (.int i) := by
  have h63 : Nat.pow 2 63 = 9223372036854775808 := rfl
  have h64 : Scan.u64Max = 18446744073709551615 := rfl
  simp only [Readable, h63, h64]
  omega

@[simp] theorem readable_uint16 (u : UInt16) : Readable (.int u.toNat) :=
  readable_nat (by have := u.toNat_lt; change _ ≤ 18446744073709551615; omega)

@[simp] theorem readable_uint32 (u : UInt32) : Readable (.int u.toNat) :=
  readable_nat (by have := u.toNat_lt; change _ ≤ 18446744073709551615; omega)

@[simp] theorem readable_uint64 (u : UInt64) : Readable (.int u.toNat) :=
  readable_nat (by have := u.toNat_lt; change _ ≤ 18446744073709551615; omega)

@[simp] theorem readable_int32 (v : Int32) : Readable (.int v.toInt) :=
  readable_int (by have := v.le_toInt; omega) (by have := v.toInt_lt; omega)

@[simp] theorem readable_int64 (v : Int64) : Readable (.int v.toInt) :=
  readable_int (by have := v.le_toInt; omega) (by have := v.toInt_lt; omega)

theorem readable_opt {α : Type} {f : α → Json} (hf : ∀ a, Readable (f a)) (o : Option α) :
    Readable (opt f o) := by
  cases o with
  | none => trivial
  | some a => exact hf a

end Json

theorem JavaString.readable_toJson (s : JavaString) : Json.Readable s.toJson := by
  unfold toJson
  split
  · trivial
  · simp [Json.readableItems_iff]

theorem MethodHandle.readable_toJson (h : MethodHandle) : Json.Readable h.toJson := by
  simp [toJson]

theorem Constant.readable_toJson : (c : Constant) → Json.Readable c.toJson
  | .dynamic _ _ h args => by
    simp [toJson, Json.tagged, h.readable_toJson, readable_listToJson args]
  | .integer _ | .float _ | .long _ | .double _ | .classRef _ | .methodType _ => by
    simp [toJson, Json.tagged]
  | .string s => by simp [toJson, Json.tagged, s.readable_toJson]
  | .methodHandle h => by simp [toJson, Json.tagged, h.readable_toJson]
where
  readable_listToJson : (cs : List Constant) → Json.ReadableItems (listToJson cs)
    | [] => trivial
    | c :: cs => ⟨readable_toJson c, readable_listToJson cs⟩

theorem ElementValue.readable_toJson : (v : ElementValue) → Json.Readable v.toJson
  | .annotationValue _ es => by simp [toJson, Json.tagged, readable_pairsToJson es]
  | .array vs => by simp [toJson, Json.tagged, readable_listToJson vs]
  | .string s => by simp [toJson, Json.tagged, s.readable_toJson]
  | .byte _ | .char _ | .short _ | .boolean _ | .int _ | .long _ | .float _ | .double _
  | .enum _ _ | .classLiteral _ => by simp [toJson, Json.tagged]
where
  readable_pairsToJson : (es : List (String × ElementValue)) → Json.ReadableItems (pairsToJson es)
    | [] => trivial
    | (_, v) :: es => ⟨⟨trivial, readable_toJson v, trivial⟩, readable_pairsToJson es⟩
  readable_listToJson : (vs : List ElementValue) → Json.ReadableItems (listToJson vs)
    | [] => trivial
    | v :: vs => ⟨readable_toJson v, readable_listToJson vs⟩

namespace Shape

/-! ### Reading a list and an object -/

theorem mapM_eq_some_map {α β : Type} {f : α → Option β} {g : α → β} :
    ∀ {l : List α}, (∀ a ∈ l, f a = some (g a)) → l.mapM f = some (l.map g)
  | [], _ => rfl
  | a :: l, h => by
    have ha := h a List.mem_cons_self
    have hl := mapM_eq_some_map (fun b hb => h b (List.mem_cons_of_mem _ hb))
    simp [ha, hl]

theorem mapM_eq_some_self {α : Type} {f : α → Option α} {l : List α}
    (h : ∀ a ∈ l, f a = some a) : l.mapM f = some l := by
  simpa using mapM_eq_some_map (g := id) h

theorem filter_key {ms : List (String × Json)} (hms : (ms.map (·.1)).Nodup) (k : String) :
    ms.filter (·.1 == k) = ((ms.lookup k).map (k, ·)).toList := by
  induction ms with
  | nil => rfl
  | cons m ms ih =>
    obtain ⟨k', v⟩ := m
    simp only [List.map_cons, List.nodup_cons] at hms
    by_cases hk : k' = k
    · subst hk
      have hnone : ms.filter (·.1 == k') = [] := by
        rw [List.filter_eq_nil_iff]
        intro m hm hkey
        exact hms.1 (List.mem_map.2 ⟨m, hm, by simpa using hkey⟩)
      simp [hnone]
    · simp [List.lookup_cons, hk, beq_eq_false_iff_ne.2 (Ne.symm hk), ih hms.2]

theorem fields_obj {ms : List (String × Json)} (hms : (ms.map (·.1)).Nodup)
    (names : List String) :
    fields names (.obj ms) = some (false, names.map fun name => ms.lookup name) := by
  rw [fields, mapM_eq_some_map (g := fun name => ms.lookup name)]
  · rfl
  · intro name _
    rw [filter_key hms]
    cases ms.lookup name <;> rfl

theorem optional_opt {α : Type} {s : Shape α} {f : α → Json} (hf : ∀ a, f a ≠ .null)
    (hs : ∀ a, s (f a) = some a) (positional : Bool) (o : Option α) :
    optional positional s (some (Json.opt f o)) = some o := by
  cases o with
  | none => rfl
  | some a =>
    have h := hf a
    simp only [Json.opt]
    cases hfa : f a with
    | null => exact absurd hfa h
    | _ => simp [optional, ← hfa, hs]

/-! ### Numbers, strings and flags -/

theorem intIn_int {lo hi i : Int} (hlo : lo ≤ i) (hhi : i < hi) :
    intIn lo hi (.int i) = some i := by
  simp [intIn, hlo, hhi]

theorem u16_int (u : UInt16) : u16 (.int u.toNat) = some u := by
  have h := u.toNat_lt
  rw [u16, intIn_int (by omega) (by change _ < ((65536 : Nat) : Int); omega)]
  simp

theorem u32_int (u : UInt32) : u32 (.int u.toNat) = some u := by
  have h := u.toNat_lt
  rw [u32, intIn_int (by omega) (by change _ < ((4294967296 : Nat) : Int); omega)]
  simp

theorem u64_int (u : UInt64) : u64 (.int u.toNat) = some u := by
  have h := u.toNat_lt
  rw [u64, intIn_int (by omega) (by change _ < ((18446744073709551616 : Nat) : Int); omega)]
  simp

theorem i32_int (v : Int32) : i32 (.int v.toInt) = some v := by
  have h1 := v.le_toInt
  have h2 := v.toInt_lt
  rw [i32, intIn_int (by change -((2147483648 : Nat) : Int) ≤ _; omega)
    (by change _ < ((2147483648 : Nat) : Int); omega)]
  simp [Int.toInt32]

theorem i64_int (v : Int64) : i64 (.int v.toInt) = some v := by
  have h1 := v.le_toInt
  have h2 := v.toInt_lt
  rw [i64, intIn_int (by change -((9223372036854775808 : Nat) : Int) ≤ _; omega)
    (by change _ < ((9223372036854775808 : Nat) : Int); omega)]
  simp [Int.toInt64]

theorem javaString_units (s : JavaString) :
    javaString (.arr (s.units.map fun u => .int u.toNat)) = some s := by
  have hunits : s.units.mapM (fun u => u16 (.int u.toNat)) = some s.units :=
    mapM_eq_some_self fun u _ => u16_int u
  simp [javaString, List.mapM_map, Function.comp_def, hunits]

theorem javaString_toJson (s : JavaString) : javaString s.toJson = some s := by
  unfold JavaString.toJson
  split
  · next text h => simp [javaString, JavaString.ofString_of_toString? h]
  · exact javaString_units s

theorem flags_render {t : FlagNames} (ht : t.WellFormed) (bits : UInt16) :
    flags t (.str (t.render bits)) = some bits := by
  simp [flags, str, FlagNames.parse?_render ht]

/-! ### Handles, constants and element values -/

theorem handleKind_name (k : HandleKind) : handleKind (.str k.name) = some k := by
  cases k <;> rfl

theorem handle_toJson (h : MethodHandle) : handle h.toJson = some h := by
  simp [handle, MethodHandle.toJson, fields, need, str, bool, handleKind_name]

theorem tagged_tagged {kinds : List String} {k : String} (hk : k ∈ kinds) (v : Json) :
    tagged kinds (Json.tagged k v) = some (k, v) := by
  simp [tagged, Json.tagged, variantName, Option.filter, hk]

theorem constantWithin_succ_toJson {fuel : Nat}
    (ih : ∀ c : Constant, c.toJson.depth < fuel → constantWithin fuel c.toJson = some c)
    (c : Constant) (hd : c.toJson.depth < fuel + 1) :
    constantWithin (fuel + 1) c.toJson = some c := by
  cases c with
  | float bits =>
    -- the number stays a variable while the kind is matched: matching on the number itself
    -- makes the kernel unfold the range test of `u32`
    have key : ∀ v, u32 v = some bits →
        constantWithin (fuel + 1) (Json.tagged "float" v) = some (.float bits) := by
      intro v hv
      simp [constantWithin, tagged_tagged, constantKinds, hv]
    exact key _ (u32_int bits)
  | double bits =>
    have key : ∀ v, u64 v = some bits →
        constantWithin (fuel + 1) (Json.tagged "double" v) = some (.double bits) := by
      intro v hv
      simp [constantWithin, tagged_tagged, constantKinds, hv]
    exact key _ (u64_int bits)
  | dynamic n d h args =>
    have hargs : Json.depthItems (args.map Constant.toJson) < fuel := by
      simp [Constant.toJson, Json.tagged, Json.depth, Json.depthMembers,
        Constant.listToJson_eq_map] at hd
      omega
    have hread : (args.map Constant.toJson).mapM (constantWithin fuel) = some args := by
      rw [List.mapM_map]
      refine mapM_eq_some_self fun c hc => ih c ?_
      exact Json.depth_lt_of_mem hargs _ (List.mem_map_of_mem hc)
    simp [constantWithin, Constant.toJson, tagged_tagged, constantKinds, fields, need, str,
      handle_toJson, list, Constant.listToJson_eq_map, hread]
  | _ => simp [constantWithin, Constant.toJson, tagged_tagged, constantKinds, i32_int, i64_int,
    javaString_toJson, str, handle_toJson]

theorem constantWithin_toJson : ∀ (fuel : Nat) (c : Constant), c.toJson.depth < fuel →
    constantWithin fuel c.toJson = some c
  | 0, _, hd => absurd hd (Nat.not_lt_zero _)
  | fuel + 1, c, hd => constantWithin_succ_toJson (constantWithin_toJson fuel) c hd

theorem constant_toJson (c : Constant) : constant c.toJson = some c :=
  constantWithin_toJson _ c (Nat.lt_succ_self _)

theorem elementWithin_succ_toJson {fuel : Nat}
    (ih : ∀ v : ElementValue, v.toJson.depth < fuel → elementWithin fuel v.toJson = some v)
    (v : ElementValue) (hd : v.toJson.depth < fuel + 1) :
    elementWithin (fuel + 1) v.toJson = some v := by
  cases v with
  | float bits =>
    have key : ∀ j, u32 j = some bits →
        elementWithin (fuel + 1) (Json.tagged "float" j) = some (.float bits) := by
      intro j hj
      simp [elementWithin, tagged_tagged, elementKinds, hj]
    exact key _ (u32_int bits)
  | double bits =>
    have key : ∀ j, u64 j = some bits →
        elementWithin (fuel + 1) (Json.tagged "double" j) = some (.double bits) := by
      intro j hj
      simp [elementWithin, tagged_tagged, elementKinds, hj]
    exact key _ (u64_int bits)
  | enum d n =>
    simp [elementWithin, ElementValue.toJson, tagged_tagged, elementKinds, fields, need, str]
  | annotationValue d es =>
    have hes : Json.depthItems (es.map fun e => Json.arr [.str e.1, e.2.toJson]) + 1 < fuel := by
      simp [ElementValue.toJson, Json.tagged, Json.depth, Json.depthMembers,
        ElementValue.pairsToJson_eq_map] at hd
      omega
    have hpair : ∀ e ∈ es, e.2.toJson.depth < fuel := by
      intro e he
      have h := Json.depth_lt_of_mem (Nat.lt_of_succ_lt hes) _
        (List.mem_map_of_mem (f := fun e : String × ElementValue => Json.arr [.str e.1, e.2.toJson]) he)
      simp [Json.depth, Json.depthItems] at h
      omega
    simp only [elementWithin, ElementValue.toJson, ElementValue.pairsToJson_eq_map]
    simp [tagged_tagged, elementKinds, fields, need, str, list, Function.comp_def]
    rw [mapM_eq_some_self]
    · rfl
    · intro e he
      simp [ih _ (hpair e he)]
  | array vs =>
    have hvs : Json.depthItems (vs.map ElementValue.toJson) < fuel := by
      simp [ElementValue.toJson, Json.tagged, Json.depth, Json.depthMembers,
        ElementValue.listToJson_eq_map] at hd
      omega
    have hread : (vs.map ElementValue.toJson).mapM (elementWithin fuel) = some vs := by
      rw [List.mapM_map]
      refine mapM_eq_some_self fun v hv => ih v ?_
      exact Json.depth_lt_of_mem hvs _ (List.mem_map_of_mem hv)
    simp [elementWithin, ElementValue.toJson, tagged_tagged, elementKinds, list,
      ElementValue.listToJson_eq_map, hread]
  | _ => simp [elementWithin, ElementValue.toJson, tagged_tagged, elementKinds, i32_int, i64_int,
    javaString_toJson, str]

theorem elementWithin_toJson : ∀ (fuel : Nat) (v : ElementValue), v.toJson.depth < fuel →
    elementWithin fuel v.toJson = some v
  | 0, _, hd => absurd hd (Nat.not_lt_zero _)
  | fuel + 1, v, hd => elementWithin_succ_toJson (elementWithin_toJson fuel) v hd

theorem element_toJson (v : ElementValue) : element v.toJson = some v :=
  elementWithin_toJson _ v (Nat.lt_succ_self _)

/-! ### Fields, versions and changes of descriptive attributes -/

theorem field_fieldRecord (f : FieldModel) : field (Difference.fieldRecord f) = some f := by
  have hsig := optional_opt (s := str) (f := Json.str) (fun _ => by simp) (fun _ => rfl) false
    f.signature
  have hval := optional_opt (s := constant) (f := Constant.toJson) Constant.toJson_ne_null
    constant_toJson false f.value
  -- the text of the flags stays a variable while the members are found, so that the kernel
  -- does not evaluate the reading of the text
  have key : ∀ t, flags FlagNames.ofField t = some f.access →
      field (.obj [("name", .str f.name), ("descriptor", .str f.descriptor), ("access_flags", t),
        ("signature", Json.opt .str f.signature), ("value", Json.opt Constant.toJson f.value)]) =
        some f := by
    intro t ht
    simp [field, fields, need, str, ht, hsig, hval]
  exact key _ (flags_render FlagNames.wellFormed_ofField f.access)

theorem version_obj (v : ClassVersion) :
    version (.obj [("major_version", .int v.major.toNat), ("minor_version", .int v.minor.toNat)]) =
      some v := by
  have key : ∀ j j', u16 j = some v.major → u16 j' = some v.minor →
      version (.obj [("major_version", j), ("minor_version", j')]) = some v := by
    intro j j' h h'
    simp [version, fields, need, h, h']
  exact key _ _ (u16_int _) (u16_int _)

theorem map_fst_filterMap_sublist {β : Type} {g : β → Json}
    {F : String × Option β → Option (String × Json)} (hF : ∀ k a, F (k, a) = a.map fun v => (k, g v)) :
    ∀ l : List (String × Option β), ((l.filterMap F).map (·.1)).Sublist (l.map (·.1))
  | [] => List.Sublist.slnil
  | (k, a) :: l => by
    cases a with
    | none => simpa [hF] using (map_fst_filterMap_sublist hF l).cons k
    | some v => simpa [hF] using (map_fst_filterMap_sublist hF l).cons_cons k

theorem lookup_filterMap {β : Type} {g : β → Json}
    {F : String × Option β → Option (String × Json)} (hF : ∀ k a, F (k, a) = a.map fun v => (k, g v)) :
    ∀ {l : List (String × Option β)}, (l.map (·.1)).Nodup → ∀ k,
      (l.filterMap F).lookup k = (l.lookup k).bind (·.map g)
  | [], _, _ => rfl
  | (k', a) :: l, hl, k => by
    simp only [List.map_cons, List.nodup_cons] at hl
    have ih := lookup_filterMap hF hl.2 k
    rw [List.filterMap_cons, hF]
    by_cases hk : k = k'
    · -- the change named `k` is this one, and no later one has its name
      subst hk
      have hnone : l.lookup k = none := by
        rw [List.lookup_eq_none_iff]
        intro p hp
        have hp1 : p.1 ≠ k := fun h => hl.1 (List.mem_map.2 ⟨p, hp, h⟩)
        exact bne_iff_ne.2 (Ne.symm hp1)
      cases a <;> simp [ih, hnone]
    · have hne : (k == k') = false := beq_eq_false_iff_ne.2 hk
      cases a <;> simp [List.lookup_cons, hne, ih]

theorem change_map_opt (a : AttributeChange) : change (a.map (Json.opt .str)) = some a := by
  rcases a with _ | _ | _ <;> rfl

theorem metadataChange_toJson (c : MetadataChange) : metadataChange c.toJson = some c := by
  let F : String × AttributeChange → Option (String × Json) := fun entry =>
    entry.2.map fun value => (entry.1, Json.opt .str value)
  have hF : ∀ k a, F (k, a) = a.map fun v => (k, Json.opt .str v) := fun _ _ => rfl
  have hentries : (c.entries.map (·.1)).Nodup := by simp [MetadataChange.entries]
  have hkeys : ((("class", Json.str c.className) :: c.entries.filterMap F).map (·.1)).Nodup := by
    refine List.nodup_cons.2 ⟨fun h => ?_, hentries.sublist (map_fst_filterMap_sublist hF _)⟩
    have := (map_fst_filterMap_sublist hF c.entries).subset h
    simp [MetadataChange.entries] at this
  have hlookup := lookup_filterMap hF hentries
  simp only [metadataChange, MetadataChange.toJson]
  rw [fields_obj hkeys]
  simp only [List.map, List.lookup_cons, hlookup]
  simp [MetadataChange.entries, List.lookup_cons, need, str, change_map_opt]

end Shape

end ClassPatch
