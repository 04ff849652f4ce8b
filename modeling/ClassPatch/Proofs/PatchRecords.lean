import Mathlib
import ClassPatch.Patch.Basic
import ClassPatch.Proofs.DocumentShapes

namespace ClassPatch

/-! ### The equality of differences is reflexive -/

deriving instance ReflBEq for VerificationType, Frame

deriving instance ReflBEq for Instruction, Handler

deriving instance ReflBEq for FieldModel, MethodModel, ClassModel

instance : ReflBEq AddedClass := ⟨fun {a} => (beq_self_eq_true a.cls : _)⟩

deriving instance ReflBEq for Difference, Patch

/-! ### Payloads -/

namespace Payload

variable {hex : HexLibrary}

theorem bytes_ofBytes (hh : hex.Lossless) (bytes : List UInt8) :
    Payload.bytes hex (ofBytes hex bytes) = .ok bytes := by
  simp [Payload.bytes, ofBytes, hh bytes]

theorem toClass_ofBytes (hh : hex.Lossless) {options : ReadOptions} {bytes : List UInt8}
    {c : ClassModel} (h : ClassModel.parse bytes options = .ok c) :
    toClass hex options (ofBytes hex bytes) = .ok (c, bytes) := by
  simp [toClass, bytes_ofBytes hh, h, bind, Except.bind, pure, Except.pure]

end Payload

namespace Difference

/-- The payloads that a difference embeds read back with the reader's options: an added class
from the class file written for it, and an added or changed method from its container. -/
def PayloadsRead (hex : HexLibrary) (options : ReadOptions) : Difference → Prop
  | .classAdded a =>
    ∃ bytes, Payload.ofAdded a = .ok bytes ∧ ClassModel.parse bytes options = .ok a.cls
  | .methodAdded _ m | .methodInstructionsChanged _ m =>
    (Payload.ofMethod hex m >>= Payload.toMethod hex options) = .ok m
  | _ => True

end Difference

namespace Record

/-- A record object as the reader of documents takes it: its kind first, a known one, then the
values beside it, none named `kind` and each one that the text keeps, which check as record
`r`. -/
inductive Reads : Json → Record → Prop
  | intro {kind : String} {ms : List (String × Json)} {r : Record} :
      kind ∈ kinds → Json.ReadableMembers ms → (∀ m ∈ ms, m.1 ≠ "kind") →
      ofContent kind (.obj ms) = some r → Reads (.obj (("kind", .str kind) :: ms)) r

end Record

theorem MetadataChange.toJson_members (c : MetadataChange) :
    ∃ ms, c.toJson = .obj ms ∧ Json.ReadableMembers ms ∧ ∀ m ∈ ms, m.1 ≠ "kind" := by
  refine ⟨_, rfl, ?_, ?_⟩
  · rw [Json.readableMembers_iff]
    intro m hm
    simp only [List.mem_cons, List.mem_filterMap] at hm
    rcases hm with rfl | ⟨⟨k, a⟩, -, hm⟩
    · trivial
    · cases a with
      | none => simp at hm
      | some v =>
        simp only [Option.map_some, Option.some.injEq] at hm
        subst hm
        exact Json.readable_opt (f := Json.str) (fun _ => trivial) v
  · intro m hm hkind
    simp only [List.mem_cons, List.mem_filterMap] at hm
    rcases hm with rfl | ⟨⟨k, a⟩, hka, hm⟩
    · simp at hkind
    · cases a with
      | none => simp at hm
      | some v =>
        simp only [Option.map_some, Option.some.injEq] at hm
        subst hm
        simp [entries] at hka
        simp at hkind
        subst hkind
        simp at hka

theorem Difference.toRecord_reads {hex : HexLibrary} (hh : hex.Lossless) {options : ReadOptions}
    {d : Difference} (hd : d.PayloadsRead hex options) :
    ∃ j r d', d.toRecord hex = .ok j ∧ Record.Reads j r ∧ r.resolve hex options = .ok d' ∧
      (d' == d) = true := by
  have hsig := Shape.optional_opt (s := Shape.str) (f := Json.str) (fun _ => by simp)
    (fun _ => rfl) false
  have hkind : ∀ d : Difference, d.kindName ∈ Record.kinds := by
    intro d
    cases d <;> simp [Record.kinds, kindName]
  -- Flags, numbers and nested records stay variables while the kind is matched: matching on
  -- their written form makes the kernel evaluate the reading of that form.
  cases d with
  | classAdded a =>
    obtain ⟨bytes, hbytes, hparse⟩ := hd
    refine ⟨.obj [("kind", .str "class_added"), ("class", .str (Payload.ofBytes hex bytes))],
      .classAdded (Payload.ofBytes hex bytes), .classAdded { cls := a.cls, classFile := some bytes },
      ?_, .intro (hkind (.classAdded a)) (by simp) (by simp) ?_, ?_, beq_self_eq_true a.cls⟩
    · simp [toRecord, hbytes, recordObject, kindName, bind, Except.bind, pure, Except.pure]
    · simp [Record.ofContent, Shape.fields, Shape.need, Shape.str]
    · simp [Record.resolve, Payload.toClass_ofBytes hh hparse, bind, Except.bind, pure, Except.pure]
  | classRemoved c =>
    refine ⟨_, .plain (.classRemoved c), _, rfl,
      .intro (hkind (.classRemoved c)) (by simp) (by simp) ?_, rfl, beq_self_eq_true _⟩
    simp [kindName, Record.ofContent, Shape.fields, Shape.need, Shape.str]
  | classAccessChanged c old new =>
    refine ⟨_, .plain (.classAccessChanged c old new), _, rfl,
      .intro (hkind (.classAccessChanged c old new)) (by simp [flagText]) (by simp) ?_, rfl,
      beq_self_eq_true _⟩
    have key : ∀ jo jn, Shape.flags FlagNames.ofClass jo = some old →
        Shape.flags FlagNames.ofClass jn = some new →
        Record.ofContent "class_access_changed" (.obj [("class", .str c), ("old", jo), ("new", jn)]) =
          some (.plain (.classAccessChanged c old new)) := by
      intro jo jn ho hn
      simp [Record.ofContent, Shape.fields, Shape.need, Shape.str, ho, hn]
    exact key _ _ (Shape.flags_render FlagNames.wellFormed_ofClass old)
      (Shape.flags_render FlagNames.wellFormed_ofClass new)
  | classMetadataChanged ch =>
    obtain ⟨ms, hjson, hread, hkeys⟩ := ch.toJson_members
    refine ⟨.obj (("kind", .str "class_metadata_changed") :: ms), .plain (.classMetadataChanged ch),
      _, ?_, .intro (hkind (.classMetadataChanged ch)) hread hkeys ?_, rfl, beq_self_eq_true _⟩
    · simp [toRecord, hjson, recordObject, kindName, pure, Except.pure]
    · have key : ∀ j, Shape.metadataChange j = some ch →
          Record.ofContent "class_metadata_changed" j = some (.plain (.classMetadataChanged ch)) := by
        intro j hj
        simp [Record.ofContent, hj]
      exact key _ (hjson ▸ Shape.metadataChange_toJson ch)
  | classVersionChanged c v =>
    refine ⟨_, .plain (.classVersionChanged c v), _, rfl,
      .intro (hkind (.classVersionChanged c v)) (by simp) (by simp) ?_, rfl, beq_self_eq_true _⟩
    have key : ∀ jv, Shape.version jv = some v →
        Record.ofContent "class_version_changed" (.obj [("class", .str c), ("version", jv)]) =
          some (.plain (.classVersionChanged c v)) := by
      intro jv hv
      simp [Record.ofContent, Shape.fields, Shape.need, Shape.str, hv]
    exact key _ (Shape.version_obj v)
  | fieldAdded c f =>
    refine ⟨_, .plain (.fieldAdded c f), _, rfl,
      .intro (hkind (.fieldAdded c f))
        (by simp [fieldRecord, flagText, Json.readable_opt, Constant.readable_toJson]) (by simp) ?_,
      rfl, beq_self_eq_true _⟩
    have key : ∀ jf, Shape.field jf = some f →
        Record.ofContent "field_added" (.obj [("class", .str c), ("field", jf)]) =
          some (.plain (.fieldAdded c f)) := by
      intro jf hf
      simp [Record.ofContent, Shape.fields, Shape.need, Shape.str, hf]
    exact key _ (Shape.field_fieldRecord f)
  | fieldRemoved c n =>
    refine ⟨_, .plain (.fieldRemoved c n), _, rfl,
      .intro (hkind (.fieldRemoved c n)) (by simp) (by simp) ?_, rfl, beq_self_eq_true _⟩
    simp [kindName, Record.ofContent, Shape.fields, Shape.need, Shape.str]
  | fieldAccessChanged c n old new =>
    refine ⟨_, .plain (.fieldAccessChanged c n old new), _, rfl,
      .intro (hkind (.fieldAccessChanged c n old new)) (by simp [flagText]) (by simp) ?_, rfl,
      beq_self_eq_true _⟩
    have key : ∀ jo jn, Shape.flags FlagNames.ofField jo = some old →
        Shape.flags FlagNames.ofField jn = some new →
        Record.ofContent "field_access_changed"
          (.obj [("class", .str c), ("name", .str n), ("old", jo), ("new", jn)]) =
          some (.plain (.fieldAccessChanged c n old new)) := by
      intro jo jn ho hn
      simp [Record.ofContent, Shape.fields, Shape.need, Shape.str, ho, hn]
    exact key _ _ (Shape.flags_render FlagNames.wellFormed_ofField old)
      (Shape.flags_render FlagNames.wellFormed_ofField new)
  | fieldDescriptorChanged c n desc =>
    refine ⟨_, .plain (.fieldDescriptorChanged c n desc), _, rfl,
      .intro (hkind (.fieldDescriptorChanged c n desc)) (by simp) (by simp) ?_, rfl,
      beq_self_eq_true _⟩
    simp [kindName, Record.ofContent, Shape.fields, Shape.need, Shape.str]
  | fieldSignatureChanged c n sig =>
    refine ⟨_, .plain (.fieldSignatureChanged c n sig), _, rfl,
      .intro (hkind (.fieldSignatureChanged c n sig)) (by simp [Json.readable_opt]) (by simp) ?_,
      rfl, beq_self_eq_true _⟩
    simp [kindName, Record.ofContent, Shape.fields, Shape.need, Shape.str, hsig]
  | fieldValueChanged c n v =>
    have hval := Shape.optional_opt Constant.toJson_ne_null Shape.constant_toJson false v
    refine ⟨_, .plain (.fieldValueChanged c n v), _, rfl,
      .intro (hkind (.fieldValueChanged c n v))
        (by simp [Json.readable_opt, Constant.readable_toJson]) (by simp) ?_, rfl,
      beq_self_eq_true _⟩
    simp [kindName, Record.ofContent, Shape.fields, Shape.need, Shape.str, hval]
  | methodAdded c m =>
    cases hp : Payload.ofMethod hex m with
    | error e => simp [PayloadsRead, hp, bind, Except.bind] at hd
    | ok payload =>
      have hm : Payload.toMethod hex options payload = .ok m := by
        simpa [PayloadsRead, hp, bind, Except.bind] using hd
      refine ⟨.obj [("kind", .str "method_added"), ("class", .str c), ("method", .str payload)],
        .methodAdded c payload, .methodAdded c m, ?_,
        .intro (hkind (.methodAdded c m)) (by simp) (by simp) ?_, ?_, beq_self_eq_true _⟩
      · simp [toRecord, hp, recordObject, kindName, bind, Except.bind, pure, Except.pure]
      · simp [Record.ofContent, Shape.fields, Shape.need, Shape.str]
      · simp [Record.resolve, hm, bind, Except.bind, pure, Except.pure]
  | methodRemoved c n desc =>
    refine ⟨_, .plain (.methodRemoved c n desc), _, rfl,
      .intro (hkind (.methodRemoved c n desc)) (by simp) (by simp) ?_, rfl, beq_self_eq_true _⟩
    simp [kindName, Record.ofContent, Shape.fields, Shape.need, Shape.str]
  | methodAccessChanged c n desc old new =>
    refine ⟨_, .plain (.methodAccessChanged c n desc old new), _, rfl,
      .intro (hkind (.methodAccessChanged c n desc old new)) (by simp [flagText]) (by simp) ?_,
      rfl, beq_self_eq_true _⟩
    have key : ∀ jo jn, Shape.flags FlagNames.ofMethod jo = some old →
        Shape.flags FlagNames.ofMethod jn = some new →
        Record.ofContent "method_access_changed"
          (.obj [("class", .str c), ("name", .str n), ("descriptor", .str desc), ("old", jo),
            ("new", jn)]) =
          some (.plain (.methodAccessChanged c n desc old new)) := by
      intro jo jn ho hn
      simp [Record.ofContent, Shape.fields, Shape.need, Shape.str, ho, hn]
    exact key _ _ (Shape.flags_render FlagNames.wellFormed_ofMethod old)
      (Shape.flags_render FlagNames.wellFormed_ofMethod new)
  | methodSignatureChanged c n desc sig =>
    refine ⟨_, .plain (.methodSignatureChanged c n desc sig), _, rfl,
      .intro (hkind (.methodSignatureChanged c n desc sig)) (by simp [Json.readable_opt])
        (by simp) ?_, rfl, beq_self_eq_true _⟩
    simp [kindName, Record.ofContent, Shape.fields, Shape.need, Shape.str, hsig]
  | methodExceptionsChanged c n desc e =>
    have he : (e.map Json.str).mapM Shape.str = some e := by
      rw [List.mapM_map]
      exact Shape.mapM_eq_some_self fun _ _ => rfl
    refine ⟨_, .plain (.methodExceptionsChanged c n desc e), _, rfl,
      .intro (hkind (.methodExceptionsChanged c n desc e)) (by simp [Json.readableItems_iff])
        (by simp) ?_, rfl, beq_self_eq_true _⟩
    simp [kindName, Record.ofContent, Shape.fields, Shape.need, Shape.str, Shape.list, he]
  | methodAnnotationDefaultChanged c n desc v =>
    have hval := Shape.optional_opt ElementValue.toJson_ne_null Shape.element_toJson false v
    refine ⟨_, .plain (.methodAnnotationDefaultChanged c n desc v), _, rfl,
      .intro (hkind (.methodAnnotationDefaultChanged c n desc v))
        (by simp [Json.readable_opt, ElementValue.readable_toJson]) (by simp) ?_, rfl,
      beq_self_eq_true _⟩
    simp [kindName, Record.ofContent, Shape.fields, Shape.need, Shape.str, hval]
  | methodMaxsChanged c n desc stack locals =>
    refine ⟨_, .plain (.methodMaxsChanged c n desc stack locals), _, rfl,
      .intro (hkind (.methodMaxsChanged c n desc stack locals)) (by simp) (by simp) ?_, rfl,
      beq_self_eq_true _⟩
    have key : ∀ js jl, Shape.u16 js = some stack → Shape.u16 jl = some locals →
        Record.ofContent "method_maxs_changed"
          (.obj [("class", .str c), ("name", .str n), ("descriptor", .str desc),
            ("max_stack", js), ("max_locals", jl)]) =
          some (.plain (.methodMaxsChanged c n desc stack locals)) := by
      intro js jl hs hl
      simp [Record.ofContent, Shape.fields, Shape.need, Shape.str, hs, hl]
    exact key _ _ (Shape.u16_int stack) (Shape.u16_int locals)
  | methodInstructionsChanged c m =>
    cases hp : Payload.ofMethod hex m with
    | error e => simp [PayloadsRead, hp, bind, Except.bind] at hd
    | ok payload =>
      have hm : Payload.toMethod hex options payload = .ok m := by
        simpa [PayloadsRead, hp, bind, Except.bind] using hd
      refine ⟨.obj [("kind", .str "method_instructions_changed"), ("class", .str c),
          ("method", .str payload)],
        .methodInstructionsChanged c payload, .methodInstructionsChanged c m, ?_,
        .intro (hkind (.methodInstructionsChanged c m)) (by simp) (by simp) ?_, ?_,
        beq_self_eq_true _⟩
      · simp [toRecord, hp, recordObject, kindName, bind, Except.bind, pure, Except.pure]
      · simp [Record.ofContent, Shape.fields, Shape.need, Shape.str]
      · simp [Record.resolve, hm, bind, Except.bind, pure, Except.pure]

end ClassPatch
