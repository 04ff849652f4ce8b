import Mathlib.Data.List.Nodup
import ClassPatch.Delta.Compare
import ClassPatch.Proofs.Members
import ClassPatch.Proofs.Agreement
import ClassPatch.Proofs.Equivalence

namespace ClassPatch

section Conditional

variable {C : Type} {step : Difference → C → Except PatchError C} {p : Prop} [Decidable p]
  {d : Difference} {x y : C}

-- A difference emitted under a condition takes `x` to `y`: by its step when it is emitted, and
-- because `y` is `x` when it is not.
theorem foldlM_ite_singleton (hstep : p → step d x = .ok y) (hskip : ¬p → y = x) :
    (if p then [d] else []).foldlM (fun x d => step d x) x = .ok y := by
  split
  · next hp =>
    simp only [List.foldlM_cons, List.foldlM_nil, hstep hp, Except.ok_bind]
    rfl
  · next hp =>
    rw [hskip hp]
    rfl

theorem foldlM_ite_append {rest : List Difference} {r : Except PatchError C}
    (hstep : p → step d x = .ok y) (hskip : ¬p → y = x)
    (hrest : rest.foldlM (fun x d => step d x) y = r) :
    ((if p then [d] else []) ++ rest).foldlM (fun x d => step d x) x = r := by
  rw [List.foldlM_append, foldlM_ite_singleton hstep hskip, Except.ok_bind, hrest]

end Conditional

namespace MethodModel

-- What replaying the changes of method `old` against `new` leaves: `new`, with the body of `old`
-- when the two bodies are equivalent.
def patched (old new : MethodModel) : MethodModel :=
  let body := if equivalentCode old.instructions new.instructions old.handlers new.handlers
    then old else new
  { new with instructions := body.instructions, handlers := body.handlers }

theorem key_beq (x a : MethodModel) :
    (x.key == a.key) = (x.name == a.name && x.descriptor == a.descriptor) := rfl

theorem Agrees.refl {m : MethodModel} (h : ClosedBody m.instructions m.handlers) : m.Agrees m :=
  ⟨rfl, rfl, rfl, rfl, rfl, rfl, equivalentCode_self h⟩

theorem patched_agrees {old new : MethodModel} (h : ClosedBody new.instructions new.handlers) :
    (old.patched new).Agrees new := by
  by_cases he : equivalentCode old.instructions new.instructions old.handlers new.handlers
  · exact ⟨rfl, rfl, rfl, rfl, rfl, rfl, by simp [patched, he]⟩
  · exact ⟨rfl, rfl, rfl, rfl, rfl, rfl, by simpa [patched, he] using equivalentCode_self h⟩

end MethodModel

namespace ClassModel

-- What replaying the differences of `old` against `new` leaves: the flags, descriptive
-- attributes, version and fields of `new`, and its methods patched against those of `old`.
def rebuilt (old new : ClassModel) : ClassModel :=
  { old with
    access := new.access
    outerClass := new.outerClass
    nestHost := new.nestHost
    outerMethod := new.outerMethod
    outerMethodDescriptor := new.outerMethodDescriptor
    signature := new.signature
    sourceDebug := new.sourceDebug
    sourceFile := new.sourceFile
    superName := new.superName
    version := new.version
    fields := rebuiltMembers FieldModel.name (fun _ b => b) old.fields new.fields
    methods := rebuiltMembers MethodModel.key MethodModel.patched old.methods new.methods }

variable {c : ClassModel} {cls name : String} {a v : FieldModel} {m w : MethodModel}

theorem changeField_replaceKey (hnd : (c.fields.map FieldModel.name).Nodup) (ha : a ∈ c.fields)
    (hv : v.name = a.name) (g : FieldModel → FieldModel) :
    { c with fields := replaceKey FieldModel.name a.name v c.fields }.changeField cls a.name g =
      .ok { c with fields := replaceKey FieldModel.name a.name (g v) c.fields } := by
  simp only [changeField]
  rw [replaceFirst_replaceKey hnd ha hv]

theorem changeMethod_replaceKey (hnd : (c.methods.map MethodModel.key).Nodup) (ha : m ∈ c.methods)
    (hv : w.key = m.key) (g : MethodModel → MethodModel) :
    { c with methods := replaceKey MethodModel.key m.key w c.methods }.changeMethod cls m.name
        m.descriptor g =
      .ok { c with methods := replaceKey MethodModel.key m.key (g w) c.methods } := by
  simp only [changeMethod, ← MethodModel.key_beq]
  rw [replaceFirst_replaceKey hnd ha hv]

end ClassModel

-- Fields, seen through the differences of class `cls`: patching keeps the new field.
theorem fieldSteps (cls : String) :
    MemberSteps FieldModel.name ClassModel.fields (fun c l => { c with fields := l })
      Difference.applyToClass (fun f => .fieldRemoved cls f.name) (.fieldAdded cls)
      (compareField cls) (fun _ b => b) where
  get_set _ _ := rfl
  set_set _ _ _ := rfl
  set_get _ := rfl
  step_removed c a ha hnd := by
    simp only [Difference.applyToClass, ClassModel.removeField]
    rw [eraseFirst_key hnd ha]
  step_added c b hb := by
    simp only [Difference.applyToClass, ClassModel.putField]
    rw [replaceFirst_eq_none hb]
  key_patch _ _ h := h.symm
  replay_compare c a b hk ha hnd := by
    -- the field of `a`'s name goes through four states, one attribute of `b` at a time
    have step : ∀ v g, FieldModel.name v = a.name →
        { c with fields := replaceKey FieldModel.name a.name v c.fields }.changeField cls a.name g =
          .ok { c with fields := replaceKey FieldModel.name a.name (g v) c.fields } :=
      fun v g hv => ClassModel.changeField_replaceKey hnd ha hv g
    have start : c = { c with fields := replaceKey FieldModel.name a.name a c.fields } := by
      rw [replaceKey_self hnd ha]
    obtain ⟨n, d, acc, s, val⟩ := b
    cases hk
    simp only [compareField, List.append_assoc]
    conv_lhs => rw [start]
    refine foldlM_ite_append (fun _ => step _ _ rfl) (fun h => by simp at h; rw [← h]) ?_
    refine foldlM_ite_append (fun _ => step _ _ rfl) (fun h => by simp at h; rw [← h]) ?_
    refine foldlM_ite_append (fun _ => step _ _ rfl) (fun h => by simp at h; rw [← h]) ?_
    exact foldlM_ite_singleton (fun _ => step _ _ rfl) (fun h => by simp at h; rw [← h])

-- Methods, seen through the differences of class `cls`: patching keeps the new method, with the
-- old body when the bodies are equivalent.
theorem methodSteps (cls : String) :
    MemberSteps MethodModel.key ClassModel.methods (fun c l => { c with methods := l })
      Difference.applyToClass (fun m => .methodRemoved cls m.name m.descriptor) (.methodAdded cls)
      (compareMethod cls) MethodModel.patched where
  get_set _ _ := rfl
  set_set _ _ _ := rfl
  set_get _ := rfl
  step_removed c a ha hnd := by
    simp only [Difference.applyToClass, ClassModel.removeMethod, ← MethodModel.key_beq]
    rw [eraseFirst_key hnd ha]
  step_added c b hb := by
    simp only [Difference.applyToClass, ClassModel.putMethod, ← MethodModel.key_beq]
    rw [replaceFirst_eq_none hb]
  key_patch _ _ h := h.symm
  replay_compare c a b hk ha hnd := by
    -- the method of `a`'s key takes the attributes of `b` one difference at a time, then its body
    have step : ∀ v g, MethodModel.key v = a.key →
        { c with methods := replaceKey MethodModel.key a.key v c.methods }.changeMethod cls a.name
            a.descriptor g =
          .ok { c with methods := replaceKey MethodModel.key a.key (g v) c.methods } :=
      fun v g hv => ClassModel.changeMethod_replaceKey hnd ha hv g
    have start : c = { c with methods := replaceKey MethodModel.key a.key a c.methods } := by
      rw [replaceKey_self hnd ha]
    obtain ⟨n, dsc, acc, sig, exc, ad, ms, ml, ins, hs⟩ := b
    have hn : a.name = n := congrArg Prod.fst hk
    have hd : a.descriptor = dsc := congrArg Prod.snd hk
    subst hn hd
    simp only [compareMethod, List.append_assoc]
    conv_lhs => rw [start]
    refine foldlM_ite_append (fun _ => step _ _ rfl) (fun h => by simp at h; rw [← h]) ?_
    refine foldlM_ite_append (fun _ => step _ _ rfl) (fun h => by simp at h; rw [← h]) ?_
    refine foldlM_ite_append (fun _ => step _ _ rfl) (fun h => by simp at h; rw [← h]) ?_
    refine foldlM_ite_append (fun _ => step _ _ rfl) (fun h => by simp at h; rw [← h]) ?_
    refine foldlM_ite_append (fun _ => step _ _ rfl)
      (fun h => by simp at h; rw [← h.1, ← h.2]) ?_
    -- the body changes only when the two bodies are not equivalent
    rw [← ite_not]
    refine foldlM_ite_singleton (fun he => ?_) (fun he => ?_)
    · simp only [MethodModel.patched, eq_false_of_ne_true he]
      exact step _ _ rfl
    · simp only [MethodModel.patched, Decidable.not_not.mp he]
      rfl

section Header

variable {old new : ClassModel} {ch : MetadataChange}

theorem AttributeChange.applyTo_between (a b : Option String) :
    (AttributeChange.between a b).applyTo a = b := by
  by_cases h : a = b <;> simp [AttributeChange.between, AttributeChange.applyTo, h]

theorem MetadataChange.applyTo_of_between (h : MetadataChange.between old new = some ch)
    (access : UInt16) :
    ch.applyTo { old with access } =
      { old with
        access
        outerClass := new.outerClass
        nestHost := new.nestHost
        outerMethod := new.outerMethod
        outerMethodDescriptor := new.outerMethodDescriptor
        signature := new.signature
        sourceDebug := new.sourceDebug
        sourceFile := new.sourceFile
        superName := new.superName } := by
  simp only [MetadataChange.between] at h
  split at h
  · cases h
  · cases h
    simp only [MetadataChange.applyTo, AttributeChange.applyTo_between]

-- The header differences set the flags, the descriptive attributes and the version of the new
-- version, and nothing else.
theorem headerDifferences_replay (old new : ClassModel) :
    (headerDifferences old new).foldlM (fun x d => d.applyToClass x) old =
      .ok { old.rebuilt new with fields := old.fields, methods := old.methods } := by
  simp only [headerDifferences, List.append_assoc]
  refine foldlM_ite_append (fun _ => rfl) (fun h => by simp at h; rw [← h]) ?_
  cases hb : MetadataChange.between old new with
  | none =>
    -- no descriptive attribute changed, so the old ones are already the new ones
    obtain ⟨h1, h2, h3, h4, h5, h6, h7, h8⟩ := MetadataChange.between_eq_none.mp hb
    simp only [Option.map_none, Option.toList_none, List.nil_append]
    refine foldlM_ite_singleton (fun _ => ?_) (fun h => ?_)
    · simp only [ClassModel.rebuilt, ← h1, ← h2, ← h3, ← h4, ← h5, ← h6, ← h7, ← h8]
      rfl
    · simp only [bne_iff_ne, ne_eq, Decidable.not_not] at h
      simp only [ClassModel.rebuilt, ← h, ← h1, ← h2, ← h3, ← h4, ← h5, ← h6, ← h7, ← h8]
  | some ch =>
    simp only [Option.map_some, Option.toList_some, List.singleton_append, List.foldlM_cons]
    rw [show Difference.applyToClass (.classMetadataChanged ch) _ = .ok _ from rfl,
      Except.ok_bind, MetadataChange.applyTo_of_between hb]
    refine foldlM_ite_singleton (fun _ => rfl) (fun h => ?_)
    simp only [bne_iff_ne, ne_eq, Decidable.not_not] at h
    simp only [ClassModel.rebuilt, ← h]

end Header

section Class

variable {old new : ClassModel}

-- Replaying the differences of a class over its old version rebuilds it against the new one.
theorem compareClass_replay (ho : old.UniqueMembers) (hn : new.UniqueMembers) :
    (compareClass old new).foldlM (fun x d => d.applyToClass x) old = .ok (old.rebuilt new) := by
  -- the header first, then the fields, then the methods, each phase over the state it leaves
  have hf := (fieldSteps old.name).replay
    { old.rebuilt new with fields := old.fields, methods := old.methods } ho.fields hn.fields
  have hm := (methodSteps old.name).replay { old.rebuilt new with methods := old.methods }
    ho.methods hn.methods
  simp only [compareClass, List.foldlM_append, headerDifferences_replay, Except.ok_bind]
  rw [hf, Except.ok_bind]
  exact hm

theorem ClassModel.Agrees.refl {c : ClassModel} (hu : c.UniqueMembers)
    (hc : ∀ m ∈ c.methods, ClosedBody m.instructions m.handlers) : c.Agrees c where
  access := rfl
  outerClass := rfl
  nestHost := rfl
  outerMethod := rfl
  outerMethodDescriptor := rfl
  signature := rfl
  sourceDebug := rfl
  sourceFile := rfl
  superName := rfl
  version := rfl
  fieldNames _ := Iff.rfl
  fields _ hf _ hg hk := List.inj_on_of_nodup_map hu.fields hf hg hk
  methodKeys _ := Iff.rfl
  methods m hm _ hm' hk := List.inj_on_of_nodup_map hu.methods hm hm' hk ▸ MethodModel.Agrees.refl (hc m hm)

-- The rebuilt class agrees with the new version.
theorem rebuilt_agrees (hn : new.UniqueMembers)
    (hc : ∀ m ∈ new.methods, ClosedBody m.instructions m.handlers) : (old.rebuilt new).Agrees new where
  access := rfl
  outerClass := rfl
  nestHost := rfl
  outerMethod := rfl
  outerMethodDescriptor := rfl
  signature := rfl
  sourceDebug := rfl
  sourceFile := rfl
  superName := rfl
  version := rfl
  fieldNames _ := mem_map_key_rebuiltMembers fun _ _ h => h.symm
  fields f hf g hg hk := by
    obtain ⟨b, hb, rfl | ⟨a, -, -, rfl⟩⟩ := mem_rebuiltMembers hf <;>
      exact List.inj_on_of_nodup_map hn.fields hb hg hk
  methodKeys _ := mem_map_key_rebuiltMembers fun a b h => (h.symm : (a.patched b).key = a.key)
  methods m hm m' hm' hk := by
    obtain ⟨b, hb, rfl | ⟨a, -, -, rfl⟩⟩ := mem_rebuiltMembers hm
    · rw [List.inj_on_of_nodup_map hn.methods hb hm' hk]
      exact MethodModel.Agrees.refl (hc m' hm')
    · rw [List.inj_on_of_nodup_map hn.methods hb hm' hk] at *
      exact MethodModel.patched_agrees (hc m' hm')

end Class

end ClassPatch
