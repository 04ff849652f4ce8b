import Mathlib.Data.List.Nodup
import ClassPatch.Delta.Compare
import ClassPatch.Proofs.ClassMap
import ClassPatch.Proofs.Members

/-!
What the comparison of classes can tell apart. Two versions of a class agree when they have the
same flags, descriptive attributes and version, the same fields by name and the same methods by
key, where two versions of a method agree on everything but their bodies, which need only be
equivalent. The main statement: the differences between two sets of classes are empty exactly
when the sets hold the same names and agreeing classes under each name.
-/

namespace ClassPatch

-- A class whose fields have distinct names and whose methods have distinct keys.
structure ClassModel.UniqueMembers (c : ClassModel) : Prop where
  fields : (c.fields.map FieldModel.name).Nodup
  methods : (c.methods.map MethodModel.key).Nodup

-- Two versions of a method that agree on everything the comparison looks at.
structure MethodModel.Agrees (old new : MethodModel) : Prop where
  access : old.access = new.access
  signature : old.signature = new.signature
  exceptions : old.exceptions = new.exceptions
  annotationDefault : old.annotationDefault = new.annotationDefault
  maxStack : old.maxStack = new.maxStack
  maxLocals : old.maxLocals = new.maxLocals
  code : equivalentCode old.instructions new.instructions old.handlers new.handlers = true

-- Two versions of a class that agree on everything the comparison looks at.
structure ClassModel.Agrees (old new : ClassModel) : Prop where
  access : old.access = new.access
  outerClass : old.outerClass = new.outerClass
  nestHost : old.nestHost = new.nestHost
  outerMethod : old.outerMethod = new.outerMethod
  outerMethodDescriptor : old.outerMethodDescriptor = new.outerMethodDescriptor
  signature : old.signature = new.signature
  sourceDebug : old.sourceDebug = new.sourceDebug
  sourceFile : old.sourceFile = new.sourceFile
  superName : old.superName = new.superName
  version : old.version = new.version
  fieldNames : ∀ n, n ∈ old.fields.map FieldModel.name ↔ n ∈ new.fields.map FieldModel.name
  fields : ∀ f ∈ old.fields, ∀ g ∈ new.fields, f.name = g.name → f = g
  methodKeys : ∀ k, k ∈ old.methods.map MethodModel.key ↔ k ∈ new.methods.map MethodModel.key
  methods : ∀ m ∈ old.methods, ∀ m' ∈ new.methods, m.key = m'.key → m.Agrees m'

section Members

variable {α κ : Type} [BEq κ] [LawfulBEq κ] {key : α → κ} {removed added : α → Difference}
  {compare : α → α → List Difference} {old new : List α}

theorem filter_unmatched_eq_nil :
    (old.filter fun a => !new.any (key · == key a)) = [] ↔ ∀ a ∈ old, ∃ b ∈ new, key b = key a := by
  simp [List.filter_eq_nil_iff]

theorem memberDifferences_eq_nil_iff (hnew : (new.map key).Nodup) :
    memberDifferences key removed added compare old new = [] ↔
      (∀ k, k ∈ old.map key ↔ k ∈ new.map key) ∧
        ∀ a ∈ old, ∀ b ∈ new, key a = key b → compare a b = [] := by
  simp only [memberDifferences, List.append_eq_nil_iff, List.map_eq_nil_iff,
    filter_unmatched_eq_nil, List.flatMap_eq_nil_iff, memberChanges_eq_nil hnew]
  constructor
  · rintro ⟨⟨hold, hnew⟩, hcmp⟩
    refine ⟨fun k => ⟨?_, ?_⟩, fun a ha b hb hk => hcmp a ha b hb hk.symm⟩
    · simp only [List.mem_map]
      rintro ⟨a, ha, rfl⟩
      exact hold a ha
    · simp only [List.mem_map]
      rintro ⟨b, hb, rfl⟩
      exact hnew b hb
  · rintro ⟨hkeys, hcmp⟩
    refine ⟨⟨fun a ha => ?_, fun b hb => ?_⟩, fun a ha b hb hk => hcmp a ha b hb hk.symm⟩
    · simpa using (hkeys (key a)).mp (List.mem_map_of_mem ha)
    · simpa using (hkeys (key b)).mpr (List.mem_map_of_mem hb)

end Members

section Compare

variable {cls : String} {f g : FieldModel} {m m' : MethodModel} {old new : ClassModel}

theorem compareField_eq_nil : compareField cls f g = [] ↔
    f.access = g.access ∧ f.descriptor = g.descriptor ∧ f.signature = g.signature ∧
      f.value = g.value := by
  simp [compareField]

theorem compareField_eq_nil_iff_eq (h : f.name = g.name) : compareField cls f g = [] ↔ f = g := by
  rw [compareField_eq_nil]
  obtain ⟨n, d, a, s, v⟩ := f
  obtain ⟨n', d', a', s', v'⟩ := g
  cases h
  simp only [FieldModel.mk.injEq, true_and]
  exact ⟨fun ⟨a, d, s, v⟩ => ⟨d, a, s, v⟩, fun ⟨d, a, s, v⟩ => ⟨a, d, s, v⟩⟩

theorem compareMethod_eq_nil : compareMethod cls m m' = [] ↔ m.Agrees m' := by
  simp only [compareMethod, List.append_eq_nil_iff, ite_eq_right_iff, reduceCtorEq, imp_false,
    bne_iff_ne, ne_eq, not_not, Bool.or_eq_true, not_or]
  constructor
  · rintro ⟨⟨⟨⟨⟨ha, hs⟩, he⟩, hd⟩, hst, hl⟩, hc⟩
    exact ⟨ha, hs, he, hd, hst, hl, by simpa using hc⟩
  · rintro ⟨ha, hs, he, hd, hst, hl, hc⟩
    simp [ha, hs, he, hd, hst, hl, hc]

theorem MetadataChange.between_eq_none : MetadataChange.between old new = none ↔
    old.outerClass = new.outerClass ∧ old.nestHost = new.nestHost ∧
      old.outerMethod = new.outerMethod ∧ old.outerMethodDescriptor = new.outerMethodDescriptor ∧
      old.signature = new.signature ∧ old.sourceDebug = new.sourceDebug ∧
      old.sourceFile = new.sourceFile ∧ old.superName = new.superName := by
  simp [MetadataChange.between, MetadataChange.isEmpty, MetadataChange.entries,
    AttributeChange.between]

theorem headerDifferences_eq_nil : headerDifferences old new = [] ↔
    old.access = new.access ∧ MetadataChange.between old new = none ∧
      old.version = new.version := by
  simp [headerDifferences]

theorem compareClass_eq_nil_iff (h : new.UniqueMembers) : compareClass old new = [] ↔ old.Agrees new := by
  simp only [compareClass, List.append_eq_nil_iff, headerDifferences_eq_nil,
    MetadataChange.between_eq_none, memberDifferences_eq_nil_iff h.fields,
    memberDifferences_eq_nil_iff h.methods, compareMethod_eq_nil]
  constructor
  · rintro ⟨⟨⟨ha, ⟨ho, hn, hm, hmd, hs, hsd, hsf, hsu⟩, hv⟩, hfn, hf⟩, hmk, hme⟩
    exact ⟨ha, ho, hn, hm, hmd, hs, hsd, hsf, hsu, hv, hfn,
      fun f hf' g hg hk => (compareField_eq_nil_iff_eq hk).mp (hf f hf' g hg hk), hmk, hme⟩
  · intro a
    exact ⟨⟨⟨a.access, ⟨a.outerClass, a.nestHost, a.outerMethod, a.outerMethodDescriptor,
      a.signature, a.sourceDebug, a.sourceFile, a.superName⟩, a.version⟩, a.fieldNames,
      fun f hf g hg hk => (compareField_eq_nil_iff_eq hk).mpr (a.fields f hf g hg hk)⟩,
      a.methodKeys, a.methods⟩

end Compare

section Maps

variable {old new : ClassMap} {n : String} {c c' : ClassModel}

theorem classChanges_of_get? (h : new.get? n = some c') : classChanges new n c = compareClass c c' := by
  simp [classChanges, h]

theorem classChanges_of_get?_none (h : new.get? n = none) : classChanges new n c = [] := by
  simp [classChanges, h]

theorem uniqueMembers_of_get? (hnew : ∀ c ∈ new.classes, c.UniqueMembers)
    (h : new.get? n = some c) : c.UniqueMembers :=
  hnew c (List.mem_map.mpr ⟨(n, c), ClassMap.mem_entries_of_get? h, rfl⟩)

theorem agree_of_diffClasses_eq_nil (hnew : ∀ c ∈ new.classes, c.UniqueMembers)
    (h : diffClasses old new = []) : (∀ n, n ∈ old.names ↔ n ∈ new.names) ∧
      ∀ n c c', old.get? n = some c → new.get? n = some c' → c.Agrees c' := by
  simp only [diffClasses, List.append_eq_nil_iff, List.map_eq_nil_iff, List.filter_eq_nil_iff,
    List.flatMap_eq_nil_iff] at h
  obtain ⟨⟨hremoved, hadded⟩, hcommon⟩ := h
  refine ⟨fun n => ⟨fun h => ?_, fun h => ?_⟩, fun n c c' hc hc' => ?_⟩
  · simpa [ClassMap.contains_iff_mem_names] using hremoved n h
  · obtain ⟨⟨n, c⟩, hp, rfl⟩ := List.mem_map.mp h
    simpa [ClassMap.contains_iff_mem_names] using hadded _ hp
  · have h := hcommon (n, c) (ClassMap.mem_entries_of_get? hc)
    rw [classChanges_of_get? hc'] at h
    exact (compareClass_eq_nil_iff (uniqueMembers_of_get? hnew hc')).mp h

theorem diffClasses_eq_nil_of_agree (hnew : ∀ c ∈ new.classes, c.UniqueMembers)
    (hnames : ∀ n, n ∈ old.names ↔ n ∈ new.names)
    (hagree : ∀ n c c', old.get? n = some c → new.get? n = some c' → c.Agrees c') :
    diffClasses old new = [] := by
  simp only [diffClasses, List.append_eq_nil_iff, List.map_eq_nil_iff, List.filter_eq_nil_iff,
    List.flatMap_eq_nil_iff]
  refine ⟨⟨fun n hn => ?_, fun p hp => ?_⟩, fun ⟨n, c⟩ hp => ?_⟩
  · simpa [ClassMap.contains_iff_mem_names] using (hnames n).mp hn
  · simpa [ClassMap.contains_iff_mem_names] using (hnames p.1).mpr (List.mem_map_of_mem hp)
  · cases hc' : new.get? n with
    | none => exact classChanges_of_get?_none hc'
    | some c' =>
      rw [classChanges_of_get? hc']
      exact (compareClass_eq_nil_iff (uniqueMembers_of_get? hnew hc')).mpr
        (hagree n c c' (ClassMap.get?_eq_some_iff.mpr hp) hc')

theorem diffClasses_eq_nil_iff (hnew : ∀ c ∈ new.classes, c.UniqueMembers) :
    diffClasses old new = [] ↔ (∀ n, n ∈ old.names ↔ n ∈ new.names) ∧
      ∀ n c c', old.get? n = some c → new.get? n = some c' → c.Agrees c' :=
  ⟨agree_of_diffClasses_eq_nil hnew, fun ⟨hnames, hagree⟩ =>
    diffClasses_eq_nil_of_agree hnew hnames hagree⟩

-- A class `A` with one field `x` of the given flags.
def sampleClass (access : UInt16) : ClassModel :=
  { (default : ClassModel) with
    name := "A"
    fields := [{ (default : FieldModel) with name := "x", access }] }

theorem diffClasses_sample_eq_nil_iff :
    (∀ c ∈ (ClassMap.ofList [sampleClass 2]).classes, c.UniqueMembers) ∧
      (diffClasses (.ofList [sampleClass 1]) (.ofList [sampleClass 2]) = [] ↔
        (∀ n, n ∈ (ClassMap.ofList [sampleClass 1]).names ↔
          n ∈ (ClassMap.ofList [sampleClass 2]).names) ∧
        ∀ n c c', (ClassMap.ofList [sampleClass 1]).get? n = some c →
          (ClassMap.ofList [sampleClass 2]).get? n = some c' → c.Agrees c') := by
  have h : ∀ c ∈ (ClassMap.ofList [sampleClass 2]).classes, c.UniqueMembers := by
    intro c hc
    simp [ClassMap.ofList, ClassMap.insert, ClassMap.insertEntry, ClassMap.classes] at hc
    subst hc
    exact ⟨by simp [sampleClass], List.nodup_nil⟩
  exact ⟨h, diffClasses_eq_nil_iff h⟩

end Maps

end ClassPatch
