import Mathlib
import ClassPatch.Proofs.PatchRecords
import ClassPatch.Proofs.StoredBlocks

/-!
Patches read back from the bytes they are written as, with gzip, JSON and hexadecimal libraries
that each read back what they write. The JSON reader of this project reads a written document
once through its compact text: the name, the format version, then the array of records, each
object read whole with its kind first and checked once its closing brace is met. With fuel from
the length of the text, every record reads back as the record it was written from as long as the
document nests less deeply than the reader's nesting budget: without a limit it is such a
library, and with the program's limit of 128 levels it is not.
-/

namespace ClassPatch

open Json

namespace Cursor

variable {α β : Type}

theorem Gives.run_bind {x : Cursor α} {f : α → Cursor β} {input mid : List UInt8} {a : α}
    (hx : Gives x input a mid) (broken : Bool) :
    (x >>= f).run input broken = (f a).run mid broken := by
  have h := hx broken
  change x input broken = _ at h
  change (x input broken >>= fun p => f p.1 p.2 broken) = _
  rw [h]
  rfl

theorem gives_expectString (s : String) (rest : List UInt8) :
    Gives expectString (utf8 (render (.str s)) ++ rest) s rest := by
  have htext : utf8 (render (.str s)) ++ rest =
      0x22 :: (utf8 (s.toList.flatMap escapeChar) ++ 0x22 :: rest) := by
    simp [render, quote, utf8EncodeChar_of_lt]
  rw [htext, expectString]
  refine (gives_expectValue (by decide)).bind ?_
  simp only [beq_self_eq_true, if_true]
  exact (gives_bump _ _).bind (gives_string _ _)

theorem utf8_toDigits (n : Nat) :
    ∃ d ds, utf8 (Nat.toDigits 10 n) = d :: ds ∧ Scan.isDigit d = true := by
  obtain ⟨c, cs, hc⟩ := List.exists_cons_of_ne_nil (Nat.toDigits_ne_nil (b := 10) (n := n))
  have hcd : c.isDigit := Nat.isDigit_of_mem_toDigits (by decide) (by decide)
    (hc ▸ List.mem_cons_self)
  have hlt := Scan.toNat_le_of_isDigit hcd
  refine ⟨c.toNat.toUInt8, utf8 cs, ?_, Scan.isDigit_toUInt8 hcd⟩
  rw [hc, utf8_cons, utf8EncodeChar_of_lt (by omega)]
  rfl

theorem gives_expectNat {bound n : Nat} (hn : n < bound) (hmax : n ≤ Scan.u64Max) {b : UInt8}
    {r : List UInt8} (hb : b = 0x2C ∨ b = 0x5D ∨ b = 0x7D) :
    Gives (expectNat bound) (utf8 (render (.int n)) ++ b :: r) n (b :: r) := by
  have htext : utf8 (render (.int (n : Int))) = utf8 (Nat.toDigits 10 n) := by
    simp [render, toString, Int.repr]
  obtain ⟨d, ds, hfirst, hdigit⟩ := utf8_toDigits n
  obtain ⟨-, -, -, hminus, -, -, hblank, -⟩ := digit_starts_number hdigit
  rw [htext, hfirst, List.cons_append, expectNat]
  refine (gives_expectValue hblank).bind ?_
  simp only [hminus, hdigit, Bool.false_eq_true, if_false, if_true]
  rw [← List.cons_append, ← hfirst]
  refine (gives_number true hmax hb).bind ?_
  simp [hn]

end Cursor

open Cursor

theorem Json.length_le_utf8 (cs : List Char) : cs.length ≤ (utf8 cs).length := by
  induction cs with
  | nil => simp
  | cons c cs ih =>
    have := c.utf8Size_pos
    simp [String.length_utf8EncodeChar]
    omega

theorem Record.Reads.readable {j : Json} {r : Record} (h : Record.Reads j r) : Readable j := by
  cases h with
  | intro _ hms _ _ => exact ⟨trivial, hms⟩

namespace Document

theorem gives_recordKind {k : String} (hk : k ∈ Record.kinds) (rest : List UInt8) :
    Gives recordKind (utf8 (render (.str k)) ++ rest) k rest := by
  unfold recordKind
  refine (gives_expectString k rest).bind ?_
  simp [hk]

theorem gives_recordMembers (kind : String) : ∀ (ms : List (String × Json)) {fuel depth : Nat}
    {acc : List (String × Json)} {rest : List UInt8}, ReadableMembers ms →
    (∀ m ∈ ms, m.1 ≠ "kind") → (commaMembers ms).length < fuel → depthMembers ms < depth →
    Gives (recordMembers fuel depth false (some kind) acc) (utf8 (commaMembers ms) ++ 0x7D :: rest)
      (kind, acc.reverse ++ ms) (0x7D :: rest)
  | [], fuel + 1, _, acc, rest, _, _, _, _ => by
    rw [recordMembers]
    refine (gives_nextKey_close false rest).bind ?_
    simp
  | (k, v) :: ms, fuel + 1, depth, acc, rest, ⟨hv, hms⟩, hkeys, hf, hd => by
    have hk : (k == "kind") = false := beq_eq_false_iff_ne.2 (hkeys (k, v) List.mem_cons_self)
    have hdepth : v.depth < depth ∧ depthMembers ms < depth := by
      simp only [depthMembers] at hd; omega
    have hq : 2 ≤ (quote k).length := by simp [quote]
    have hlen : (quote k).length + (render v).length + (commaMembers ms).length < fuel := by
      simp only [commaMembers_cons, List.length_append, List.length_cons] at hf; omega
    have htext : utf8 (commaMembers ((k, v) :: ms)) =
        [0x2C] ++ utf8 (quote k) ++ (0x3A :: utf8 (render v) ++ utf8 (commaMembers ms)) := by
      simp [commaMembers_cons, utf8EncodeChar_of_lt]
    rw [htext, recordMembers, List.append_assoc]
    refine (gives_nextKey_member k false _).bind ?_
    simp only [if_true]
    refine (gives_key k _).bind ?_
    simp only [hk, Bool.false_eq_true, if_false]
    refine (gives_colon _).bind ?_
    simp only [List.append_eq, List.append_assoc]
    refine (gives_value v hv (by omega) hdepth.1 (follows_commaMembers ms rest)).bind ?_
    simpa using @gives_recordMembers kind ms _ _ ((k, v) :: acc) _ hms
      (fun m hm => hkeys m (List.mem_cons_of_mem _ hm)) (by omega) hdepth.2
  | _, 0, _, _, _, _, _, hf, _ => absurd hf (Nat.not_lt_zero _)

theorem gives_recordMembers_kind {kind : String} (hkind : kind ∈ Record.kinds)
    {ms : List (String × Json)} {fuel depth : Nat} {rest : List UInt8} (hms : ReadableMembers ms)
    (hkeys : ∀ m ∈ ms, m.1 ≠ "kind") (hf : (commaMembers ms).length < fuel)
    (hd : depthMembers ms < depth) :
    Gives (recordMembers (fuel + 1) depth true none [])
      ((if true then [] else [0x2C]) ++ utf8 (quote "kind") ++
        (0x3A :: (utf8 (render (.str kind)) ++ (utf8 (commaMembers ms) ++ 0x7D :: rest))))
      (kind, ms) (0x7D :: rest) := by
  rw [recordMembers]
  refine (gives_nextKey_member "kind" true _).bind ?_
  simp only [if_true]
  refine (gives_key "kind" _).bind ?_
  simp only [beq_self_eq_true, if_true, Option.isSome_none, Bool.false_eq_true, if_false]
  refine (gives_colon _).bind <| (gives_recordKind hkind _).bind ?_
  simpa using @gives_recordMembers kind ms _ _ [] _ hms hkeys hf hd

theorem gives_record {j : Json} {r : Record} (hj : Record.Reads j r) {fuel depth : Nat}
    {rest : List UInt8} (hf : (render j).length ≤ fuel) (hd : j.depth < depth) :
    Gives (record fuel depth) (utf8 (render j) ++ rest) r rest := by
  cases hj with
  | @intro kind ms r hkind hms hkeys hr =>
  have hdepth : depthMembers ms < depth - 1 := by
    simp only [Json.depth, depthMembers, Json.depth] at hd; omega
  have hlen : (quote kind).length + (commaMembers ms).length + 9 ≤ fuel := by
    have hq : (quote "kind").length = 6 := by simp [quote, escapeChar]
    simp only [render, renderMembers_cons, List.length_cons, List.length_append] at hf
    omega
  obtain ⟨f, rfl⟩ : ∃ f, fuel = f + 1 := ⟨fuel - 1, by omega⟩
  have htext : utf8 (render (.obj (("kind", .str kind) :: ms))) ++ rest =
      0x7B :: ((if true then [] else [0x2C]) ++ utf8 (quote "kind") ++
        (0x3A :: (utf8 (render (.str kind)) ++ (utf8 (commaMembers ms) ++ 0x7D :: rest)))) := by
    simp [render, renderMembers_cons, utf8EncodeChar_of_lt]
  rw [htext, record]
  refine (gives_expectValue (by decide)).bind ?_
  simp only [beq_self_eq_true, if_true]
  refine (gives_enter (by simp only [Json.depth] at hd; omega) _).bind <| (gives_bump _ _).bind ?_
  refine (gives_recordMembers_kind hkind hms hkeys (by omega) hdepth).bind ?_
  refine (gives_endObject _).bind ?_
  simp [checkRecord, hr]

theorem gives_recordList {js : List Json} {rs : List Record} (h : List.Forall₂ Record.Reads js rs) :
    ∀ (first : Bool) {fuel depth : Nat} {acc : List Record} {rest : List UInt8},
    (if first then renderItems js else commaItems js).length < fuel → depthItems js < depth →
    Gives (recordList fuel depth first acc)
      (utf8 (if first then renderItems js else commaItems js) ++ 0x5D :: rest)
      (acc.reverse ++ rs) (0x5D :: rest) := by
  -- one record per step; the fuel and the text shrink together, and the accumulator grows
  induction h with
  | nil =>
    intro first fuel depth acc rest hf _
    obtain ⟨f, rfl⟩ : ∃ f, fuel = f + 1 := ⟨fuel - 1, by omega⟩
    have : (if first then renderItems [] else commaItems []) = [] := by
      cases first <;> simp [renderItems, commaItems]
    rw [this, recordList]
    refine (gives_nextElement_close first rest).bind ?_
    simp
  | @cons j r js rs hj hjs ih =>
    intro first fuel depth acc rest hf hd
    obtain ⟨f, rfl⟩ : ∃ f, fuel = f + 1 := ⟨fuel - 1, by omega⟩
    have hdepth : j.depth < depth ∧ depthItems js < depth := by
      simp only [depthItems] at hd; omega
    have htext : utf8 (if first then renderItems (j :: js) else commaItems (j :: js)) =
        (if first then [] else [0x2C]) ++ utf8 (render j) ++ utf8 (commaItems js) := by
      cases first <;> simp [renderItems_cons, commaItems, utf8EncodeChar_of_lt]
    have hpos := length_render_pos hj.readable
    have hlen : (render j).length + (commaItems js).length < f + 1 := by
      cases first <;>
        simp only [renderItems_cons, commaItems_cons, if_true, Bool.false_eq_true, if_false,
          List.length_append, List.length_cons] at hf <;> omega
    rw [htext, recordList, List.append_assoc]
    refine (gives_nextElement_item hj.readable first _).bind ?_
    simp only [if_true]
    refine (gives_record hj (by omega) hdepth.1).bind ?_
    simpa using @ih false _ _ (r :: acc) rest (by simpa using by omega) hdepth.2

theorem gives_recordArray {js : List Json} {rs : List Record} (h : List.Forall₂ Record.Reads js rs)
    {fuel depth : Nat} {rest : List UInt8} (hf : (render (.arr js)).length ≤ fuel)
    (hd : (Json.arr js).depth < depth) :
    Gives (recordArray fuel depth) (utf8 (render (.arr js)) ++ rest) rs rest := by
  have htext : utf8 (render (.arr js)) ++ rest =
      0x5B :: (utf8 (if true then renderItems js else commaItems js) ++ 0x5D :: rest) := by
    simp [render, utf8EncodeChar_of_lt]
  have hlen : (if true then renderItems js else commaItems js).length < fuel := by
    simp only [render, List.length_cons, List.length_append] at hf
    simp only [if_true]
    omega
  rw [htext, recordArray]
  refine (gives_expectValue (by decide)).bind ?_
  simp only [beq_self_eq_true, if_true]
  refine (gives_enter (by simp only [Json.depth] at hd; omega) _).bind <| (gives_bump _ _).bind ?_
  have hlist : Gives (recordList fuel (depth - 1) true []) (utf8 (renderItems js) ++ 0x5D :: rest)
      rs (0x5D :: rest) := by
    simpa using @gives_recordList js rs h true fuel (depth - 1) [] rest hlen
      (by simp only [Json.depth] at hd; omega)
  refine hlist.bind ?_
  exact (gives_endArray _).bind (gives_pure _ _)

theorem versionNumber_gives (version : UInt32) {b : UInt8} {r : List UInt8}
    (hb : b = 0x2C ∨ b = 0x5D ∨ b = 0x7D) :
    Gives versionNumber (utf8 (render (.int version.toNat)) ++ b :: r) version (b :: r) := by
  have hlt := version.toNat_lt
  unfold versionNumber
  refine (gives_expectNat (by change _ < 4294967296; omega)
    (by change _ ≤ 18446744073709551615; change _ < 4294967296 at hlt; omega) hb).bind ?_
  simp

theorem gives_documentMembers {name : String} {version : UInt32} {js : List Json}
    {rs : List Record} (h : List.Forall₂ Record.Reads js rs) {fuel depth : Nat}
    {rest : List UInt8} (hf : (renderMembers (writtenMembers name version js)).length < fuel)
    (hd : (Json.arr js).depth < depth) :
    Gives (members fuel depth true none none none)
      (utf8 (renderMembers (writtenMembers name version js)) ++ 0x7D :: rest)
      ⟨name, version, rs⟩ (0x7D :: rest) := by
  have hlen : (render (.arr js)).length + 4 ≤ fuel := by
    simp only [writtenMembers, renderMembers_cons, commaMembers_cons,
      show commaMembers ([] : List (String × Json)) = [] from rfl, List.length_append,
      List.length_cons, List.length_nil] at hf
    omega
  obtain ⟨f, rfl⟩ : ∃ f, fuel = f + 4 := ⟨fuel - 4, by omega⟩
  have htext : utf8 (renderMembers (writtenMembers name version js)) ++ 0x7D :: rest =
      (if true then [] else [0x2C]) ++ utf8 (quote "patch_name") ++
        (0x3A :: (utf8 (render (.str name)) ++
        ((if false then [] else [0x2C]) ++ utf8 (quote "format_version") ++
        (0x3A :: (utf8 (render (.int version.toNat)) ++
        ((if false then [] else [0x2C]) ++ utf8 (quote "differences") ++
        (0x3A :: (utf8 (render (.arr js)) ++ 0x7D :: rest)))))))) := by
    simp [writtenMembers, renderMembers_cons, commaMembers, utf8EncodeChar_of_lt]
  rw [htext]
  -- the name; until all three are read the fallback equation of members applies
  rw [members.eq_3 _ _ _ _ _ _ (by simp)]
  refine (gives_nextKey_member "patch_name" true _).bind ?_
  simp only [if_true]
  refine (gives_key "patch_name" _).bind ?_
  simp only [beq_self_eq_true, if_true, Option.isSome_none, Bool.false_eq_true, if_false]
  refine (gives_colon _).bind <| (gives_expectString name _).bind ?_
  -- the format version
  rw [members.eq_3 _ _ _ _ _ _ (by simp)]
  refine (gives_nextKey_member "format_version" false _).bind ?_
  simp only [if_true]
  refine (gives_key "format_version" _).bind ?_
  simp only [show ("format_version" == "patch_name") = false by decide, beq_self_eq_true,
    if_true, Option.isSome_none, Bool.false_eq_true, if_false]
  refine (gives_colon _).bind <| (versionNumber_gives version (by simp)).bind ?_
  -- the records
  rw [members.eq_3 _ _ _ _ _ _ (by simp)]
  refine (gives_nextKey_member "differences" false _).bind ?_
  simp only [if_true]
  refine (gives_key "differences" _).bind ?_
  simp only [show ("differences" == "patch_name") = false by decide,
    show ("differences" == "format_version") = false by decide, beq_self_eq_true,
    if_true, Option.isSome_none, Bool.false_eq_true, if_false]
  refine (gives_colon _).bind <| (gives_recordArray h (by omega) hd).bind ?_
  -- the closing brace
  rw [members.eq_2]
  refine (gives_nextKey_close false rest).bind ?_
  exact gives_pure _ _

theorem read_written {name : String} {version : UInt32} {js : List Json} {rs : List Record}
    (h : List.Forall₂ Record.Reads js rs) {limit fuel : Nat}
    (hf : (renderMembers (writtenMembers name version js)).length < fuel)
    (hd : (Json.obj (writtenMembers name version js)).depth < limit) :
    (read limit fuel).run (utf8 (render (.obj (writtenMembers name version js)))) false =
      .ok (⟨name, version, rs⟩, []) := by
  have hdepth : (Json.arr js).depth < limit - 1 := by
    simp only [writtenMembers, Json.depth, Json.depthMembers] at hd ⊢
    omega
  have htext : utf8 (render (.obj (writtenMembers name version js))) =
      0x7B :: (utf8 (renderMembers (writtenMembers name version js)) ++ [0x7D]) := by
    simp [render, utf8EncodeChar_of_lt]
  rw [htext, read, Gives.run_bind (gives_expectValue (by decide))]
  simp only [beq_self_eq_true, if_true]
  rw [Gives.run_bind (@gives_enter limit (by omega) _), Gives.run_bind (gives_bump _ _),
    Gives.run_bind (gives_documentMembers h hf hdepth), Gives.run_bind (gives_endObject [])]
  rfl

theorem ofBytes_written {name : String} {version : UInt32} {js : List Json} {rs : List Record}
    (h : List.Forall₂ Record.Reads js rs) {limit : Nat}
    (hd : (Json.obj (writtenMembers name version js)).depth < limit) :
    ofBytes limit (Json.obj (writtenMembers name version js)).compact.toUTF8.toList false =
      .ok ⟨name, version, rs⟩ := by
  have hlen := Json.length_le_utf8 (render (.obj (writtenMembers name version js)))
  have hrender : (render (.obj (writtenMembers name version js))).length =
      (renderMembers (writtenMembers name version js)).length + 2 := by
    simp [render]
  rw [ofBytes, compact_toUTF8, read_written h (by omega) hd]
  rfl

end Document

theorem Difference.mapM_toRecord_reads {hex : HexLibrary} (hh : hex.Lossless) {options : ReadOptions} :
    ∀ {ds : List Difference}, (∀ d ∈ ds, d.PayloadsRead hex options) →
      ∃ js rs ds', ds.mapM (Difference.toRecord hex) = .ok js ∧ List.Forall₂ Record.Reads js rs ∧
        rs.mapM (·.resolve hex options) = .ok ds' ∧ (ds' == ds) = true
  | [], _ => ⟨[], [], [], rfl, .nil, rfl, rfl⟩
  | d :: ds, hds => by
    obtain ⟨j, r, d', hj, hr, hd', hbeq⟩ := Difference.toRecord_reads hh (hds d List.mem_cons_self)
    obtain ⟨js, rs, ds', hjs, hrs, hds', hbeqs⟩ :=
      mapM_toRecord_reads hh fun e he => hds e (List.mem_cons_of_mem d he)
    refine ⟨j :: js, r :: rs, d' :: ds', ?_, .cons hr hrs, ?_, ?_⟩
    · rw [List.mapM_cons, hj, hjs]
      rfl
    · rw [List.mapM_cons, hd', hds']
      rfl
    · simp [List.cons_beq_cons, hbeq, hbeqs]

namespace JsonLibrary

/-- What the round trip of patches assumes of a JSON library: the text it writes for a document
whose records are record objects reads back as that document. -/
def Lossless (L : JsonLibrary) : Prop :=
  ∀ (name : String) (version : UInt32) (js : List Json) (rs : List Record),
    List.Forall₂ Record.Reads js rs →
      L.read (L.write (.obj (Document.writtenMembers name version js))) false = .ok ⟨name, version, rs⟩

/-- The reader of this project with a nesting budget that no text of its length uses up. -/
def unbounded : JsonLibrary :=
  ⟨fun j => j.compact.toUTF8.toList, fun bytes => Document.ofBytes (bytes.length + 1) bytes⟩

theorem unbounded_lossless : unbounded.Lossless := by
  intro name version js rs h
  have hdepth := Json.depth_le_length_render (.obj (Document.writtenMembers name version js))
  have hlen := Json.length_le_utf8 (render (.obj (Document.writtenMembers name version js)))
  have htext : unbounded.write (.obj (Document.writtenMembers name version js)) =
      utf8 (render (.obj (Document.writtenMembers name version js))) := compact_toUTF8 _
  exact Document.ofBytes_written h (by rw [htext]; omega)

end JsonLibrary

/-- What the round trip of patches assumes of its libraries: each reads back what it writes. -/
structure PatchLibraries.Lossless (L : PatchLibraries) : Prop where
  gzip : L.gzip.Lossless
  json : L.json.Lossless
  hex : L.hex.Lossless

/-- A patch whose payloads read back is written, with libraries that each read back what they
write, as bytes that read back as the patch: the name, the format version and every difference
come back, in order. -/
theorem Patch.readFrom_writeTo {L : PatchLibraries} (hL : L.Lossless) {options : ReadOptions}
    {p : Patch} (hp : ∀ d ∈ p.differences, d.PayloadsRead L.hex options) :
    ∃ bytes, p.writeTo L = .ok bytes ∧
      ∃ q, Patch.readFrom L options bytes = .ok q ∧ (q == p) = true := by
  obtain ⟨js, rs, ds, hjs, hrs, hds, hbeq⟩ := Difference.mapM_toRecord_reads hL.hex hp
  have hdoc : p.toDocument L.hex = .ok (.obj (Document.writtenMembers p.name p.formatVersion js)) := by
    rw [Patch.toDocument, hjs]
    rfl
  refine ⟨_, by rw [Patch.writeTo, hdoc]; rfl, ⟨p.name, p.formatVersion, ds⟩, ?_, ?_⟩
  · rw [Patch.readFrom, hL.gzip, Patch.ofText, hL.json _ _ _ _ hrs]
    simp [hds]
  · change (p.name == p.name && (p.formatVersion == p.formatVersion && ds == p.differences)) = true
    simp [hbeq]

theorem Patch.readFrom_writeTo_nanSurrogateFlags :
    ∃ bytes, (⟨"p", 1, [.fieldValueChanged "C" "f" (some (.float 0x7FC00001)),
        .methodAnnotationDefaultChanged "C" "m" "()Ljava/lang/String;"
          (some (.string (JavaString.ofUtf16 [0xD800]))),
        .classAccessChanged "C" 0x0021 0xFFFF,
        .classMetadataChanged { className := "C", sourceFile := some none }]⟩ : Patch).writeTo
        ⟨Gzip.library, JsonLibrary.unbounded, Hex.library⟩ = .ok bytes ∧
      ∃ q, Patch.readFrom ⟨Gzip.library, JsonLibrary.unbounded, Hex.library⟩ {} bytes = .ok q ∧
        (q == ⟨"p", 1, [.fieldValueChanged "C" "f" (some (.float 0x7FC00001)),
          .methodAnnotationDefaultChanged "C" "m" "()Ljava/lang/String;"
            (some (.string (JavaString.ofUtf16 [0xD800]))),
          .classAccessChanged "C" 0x0021 0xFFFF,
          .classMetadataChanged { className := "C", sourceFile := some none }]⟩) = true :=
  Patch.readFrom_writeTo ⟨Gzip.library_lossless, JsonLibrary.unbounded_lossless, Hex.library_lossless⟩
    (by simp [Difference.PayloadsRead])

theorem ElementValue.toJson_repeat_array (n : Nat) (v : ElementValue) :
    (Nat.repeat (fun v => ElementValue.array [v]) n v).toJson =
      Nat.repeat (fun j => Json.tagged "array" (.arr [j])) n v.toJson := by
  induction n with
  | zero => rfl
  | succ n ih => simp [Nat.repeat, ElementValue.toJson, ElementValue.listToJson, ih]

theorem JsonLibrary.nested_not_lossless : ¬ (JsonLibrary.nested Document.nestingLimit).Lossless := by
  intro h
  obtain ⟨j, r, -, hj, hr, -⟩ := @Difference.toRecord_reads _ Hex.library_lossless {}
    (.methodAnnotationDefaultChanged "C" "m" "()I"
      (some (Nat.repeat (fun v => .array [v]) 62 (.int 7)))) trivial
  have hrecord : j = .obj [("kind", .str "method_annotation_default_changed"), ("class", .str "C"),
      ("name", .str "m"), ("descriptor", .str "()I"),
      ("value", Nat.repeat (fun j => Json.tagged "array" (.arr [j])) 62 (Json.tagged "int" (.int 7)))] := by
    simp only [Difference.toRecord, Difference.recordObject, Difference.kindName, Json.opt,
      ElementValue.toJson_repeat_array] at hj
    exact (Except.ok.inj hj).symm
  subst hrecord
  have hread := h "p" 1 _ [r] (.cons hr .nil)
  simp only [JsonLibrary.nested] at hread
  rw [compact_toUTF8] at hread
  -- the reader runs on the 1,847 bytes of the text until the innermost object spends the last
  -- level of its nesting budget
  have hfault : (Document.ofBytes Document.nestingLimit (utf8 (render (.obj
      (Document.writtenMembers "p" 1 [.obj [("kind", .str "method_annotation_default_changed"),
        ("class", .str "C"), ("name", .str "m"), ("descriptor", .str "()I"),
        ("value", Nat.repeat (fun j => Json.tagged "array" (.arr [j])) 62
          (Json.tagged "int" (.int 7)))]])))) false).map (fun _ => ()) = .error .grammar := by
    decide +kernel
  rw [hread] at hfault
  cases hfault

end ClassPatch
