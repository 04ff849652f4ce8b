import ClassPatch.Proofs.BodyRoundTrip

/-!
Classes read back outside their method bodies from the bytes the writer gives them, under
conditions on the class alone. A method with instructions needs a body that the body round trip
reads back, and fewer than 65536 handlers, whose count the writer stores in 16 bits unchecked;
its `Code` attribute then fits its counts whenever its bytes fit their 32-bit length, and it
decodes with any reading options.
-/

namespace ClassPatch

open Build PoolBuilder

theorem CodeAttribute.fits_of_encode {c : CodeAttribute} (hlen : c.encode.length < Nat.pow 2 32)
    (hhandlers : c.handlers.length < 65536) (hattributes : c.attributes.length < 65536) :
    c.Fits := by
  have hcode : c.code.length ≤ c.encode.length := by
    simp only [CodeAttribute.encode, List.length_append]
    omega
  have htable : (c.attributes.flatMap RawAttribute.encode).length ≤ c.encode.length := by
    simp only [CodeAttribute.encode, Writer.list, List.length_append]
    omega
  refine ⟨by omega, hhandlers, hattributes, fun a ha => ?_⟩
  have hinfix : RawAttribute.encode a <:+: c.attributes.flatMap RawAttribute.encode :=
    List.infix_of_mem_flatten (List.mem_map_of_mem ha)
  have hinfo : a.info.length ≤ (RawAttribute.encode a).length := by
    simp only [RawAttribute.encode, List.length_append]
    omega
  have := hinfix.length_le
  show a.info.length < Nat.pow 2 32
  omega

theorem MethodModel.bodyDecodes_of_readable {m : MethodModel} (hm : m.Readable)
    (hhandlers : m.handlers.length < 65536) (options : ReadOptions) :
    m.BodyDecodes options fun _ _ => True := by
  intro S S' c hS h
  have hspec := specified_code (fun i hi => (hm.encodable i hi).interns) S c S' hS h
  refine ⟨hspec, fun hlen => ?_, fun T hT hlaid => ?_⟩
  · -- the handlers are stored one for one, and the marker tables are at most two attributes
    obtain ⟨lay, wide, stored, -, hwrites⟩ := m.code_writes hm hS h
    have hcount := (hwrites S' (Extends.refl _) hspec.laid).handlers.length_eq
    obtain ⟨ps, offsets, wide', P₁, P₂, lines, frames, P₃, -, -, -, -, hattributes⟩ :=
      m.code_steps h
    have := length_markerAttributes_le hattributes
    exact CodeAttribute.fits_of_encode hlen (by omega) (by omega)
  · obtain ⟨insns, handlers, hbody, -⟩ := m.code_readsBack hm hS h T hT hlaid
    exact ⟨_, CodeAttribute.body_stripMarkers hbody options, trivial⟩

namespace ClassModel

variable {c : ClassModel} {options : ReadOptions}

/-- What a class needs, beyond the lengths and counts of its stored form, to be read back as
written: its members fit, and each method with instructions has a readable body and fewer than
65536 handlers. -/
structure Storable (c : ClassModel) : Prop extends MembersFit c where
  bodies : ∀ m ∈ c.methods, m.instructions ≠ [] → m.Readable ∧ m.handlers.length < 65536

/-- A storable class, written to a stored form that fits its lengths and counts, reads back from
that form's bytes, with any options, as a class that agrees with it outside its method bodies. -/
theorem parse_encode_toRaw (hc : c.Storable) {raw : RawClass} (h : c.toRaw = .ok raw)
    (hfits : raw.Fits) : ∃ c', parse raw.encode options = .ok c' ∧ c.SameOutsideBodies c' := by
  refine parse_encode_toRaw_of_bodies hc.toMembersFit (fun m hm hne => ?_) h hfits
  obtain ⟨hreadable, hhandlers⟩ := hc.bodies m hm hne
  exact MethodModel.bodyDecodes_of_readable hreadable hhandlers options

def sampleLocal : ClassModel :=
  { (default : ClassModel) with
    name := "A$1", superName := some "java/lang/Object", outerClass := some "A",
    outerMethod := some "run",
    fields := [{
      name := "STEP", descriptor := "I", access := 0x0018, signature := none,
      value := some (.integer 7) }],
    methods := [{
      name := "next", descriptor := "(I)I", access := 0x0008, signature := none,
      exceptions := [], annotationDefault := none, maxStack := 2, maxLocals := 1,
      -- iload_0, bipush 7, iadd, ireturn
      instructions := [.var ⟨0x15⟩ 0, .int ⟨0x10⟩ 7, .simple ⟨0x60⟩, .simple ⟨0xAC⟩],
      handlers := [] }] }

theorem parse_encode_toRaw_sampleLocal :
    ∃ raw, sampleLocal.toRaw = .ok raw ∧ raw.Fits ∧
      ∃ c', parse raw.encode {} = .ok c' ∧ sampleLocal.SameOutsideBodies c' := by
  refine ⟨_, rfl, ?fits, parse_encode_toRaw ?storable rfl ?fits⟩
  case storable =>
    refine ⟨⟨by decide, by decide, ?constants, ?calls, ?exceptions, ?defaults⟩, ?bodies⟩
    case constants =>
      intro f hf k hk
      obtain rfl := List.mem_singleton.mp hf
      obtain rfl := Option.mem_some_iff.mp hk
      exact ⟨trivial, trivial⟩
    case calls =>
      intro m hm i hi
      obtain rfl := List.mem_singleton.mp hm
      simp only [List.mem_cons, List.not_mem_nil, or_false] at hi
      rcases hi with rfl | rfl | rfl | rfl <;> trivial
    case exceptions =>
      intro m hm
      obtain rfl := List.mem_singleton.mp hm
      decide
    case defaults =>
      intro m hm v hv
      obtain rfl := List.mem_singleton.mp hm
      cases hv
    case bodies =>
      intro m hm _
      obtain rfl := List.mem_singleton.mp hm
      refine ⟨⟨fun i hi => ?_, by decide, by decide, by simp [Instruction.frame?]⟩, by decide⟩
      simp only [List.mem_cons, List.not_mem_nil, or_false] at hi
      rcases hi with rfl | rfl | rfl | rfl <;> exact .inl (by unfold Instruction.Decodable; decide)
  case fits =>
    refine ⟨⟨[.utf8 "A$1", .classRef 1, .utf8 "java/lang/Object", .classRef 3, .utf8 "STEP",
      .utf8 "I", .integer 7, .utf8 "ConstantValue", .utf8 "next", .utf8 "(I)I", .utf8 "Code",
      .utf8 "A", .classRef 12, .utf8 "EnclosingMethod"], rfl, by decide, ?entries⟩, by decide,
      ⟨by decide, ?fields⟩, ⟨by decide, ?methods⟩, ⟨by decide, ?attributes⟩⟩
    case entries =>
      intro e he
      simp only [List.mem_cons, List.not_mem_nil, or_false] at he
      rcases he with rfl | rfl | rfl | rfl | rfl | rfl | rfl | rfl | rfl | rfl | rfl | rfl | rfl |
        rfl <;> simp [PoolEntry.Fits] <;> decide
    -- the field holds its constant and the method its code, each in one attribute
    case fields | methods =>
      intro m hm
      obtain rfl := List.mem_singleton.mp hm
      refine ⟨by decide, fun a ha => ?_⟩
      obtain rfl := List.mem_singleton.mp ha
      show _ < _
      decide
    case attributes =>
      intro a ha
      obtain rfl := List.mem_singleton.mp ha
      show _ < _
      decide

end ClassModel

end ClassPatch
