import Mathlib.Data.List.Nodup
import ClassPatch.Proofs.ClassReplay

/-!
Applying the differences between two sets of classes to the old set. Removals and additions act
on names, and the differences of a class that both sets hold act on that class alone, rebuilding
it against its new version. The main statement: when both sets hold each class under its own name
with distinct member keys, and the methods of the new set place every label they branch to,
applying the differences succeeds and leaves a set with the names of the new one, from which the
comparison finds no difference.
-/

namespace ClassPatch

-- A set of classes that holds each class under its own name, each with distinct member keys.
structure ClassMap.WellFormed (m : ClassMap) : Prop where
  named : ∀ n c, m.get? n = some c → c.name = n
  unique : ∀ c ∈ m.classes, c.UniqueMembers

namespace ClassMap

theorem mem_entries_foldl_insert {cs : List ClassModel} {p : String × ClassModel} :
    ∀ {m : ClassMap}, p ∈ (cs.foldl (fun m c => m.insert c.name c) m).entries →
      p ∈ m.entries ∨ p.2 ∈ cs ∧ p.2.name = p.1 := by
  induction cs with
  | nil => exact .inl
  | cons c cs ih =>
    intro m hp
    rcases ih hp with hp | ⟨hc, hn⟩
    · rcases mem_insertEntry hp with rfl | hp
      · exact .inr ⟨List.mem_cons_self, rfl⟩
      · exact .inl hp
    · exact .inr ⟨List.mem_cons_of_mem c hc, hn⟩

-- The map of a list of classes holds each of them under its own name.
theorem mem_entries_ofList {cs : List ClassModel} {p : String × ClassModel}
    (hp : p ∈ (ofList cs).entries) : p.2 ∈ cs ∧ p.2.name = p.1 :=
  (mem_entries_foldl_insert hp).resolve_left List.not_mem_nil

theorem mem_classes_ofList {cs : List ClassModel} {c : ClassModel} (hc : c ∈ (ofList cs).classes) :
    c ∈ cs := by
  obtain ⟨p, hp, rfl⟩ := List.mem_map.mp hc
  exact (mem_entries_ofList hp).1

theorem wellFormed_ofList {cs : List ClassModel} (h : ∀ c ∈ cs, c.UniqueMembers) :
    (ofList cs).WellFormed where
  named _ _ hc := (mem_entries_ofList (get?_eq_some_iff.mp hc)).2
  unique _ hc := h _ (mem_classes_ofList hc)

end ClassMap

section Apply

variable {m : ClassMap} {n k : String} {c c' : ClassModel} {d : Difference} {ds : List Difference}

theorem ClassMap.update_of_get? (h : m.get? n = some c)
    {f : ClassModel → Except PatchError ClassModel} (hf : f c = .ok c') :
    m.update n f = .ok (m.insert n c') := by
  simp only [ClassMap.update, h, hf]
  rfl

@[simp] theorem applyAll_nil : applyAll [] m = .ok m := rfl

theorem applyAll_cons : applyAll (d :: ds) m = d.apply m >>= applyAll ds := rfl

theorem applyAll_append {ds' : List Difference} :
    applyAll (ds ++ ds') m = applyAll ds m >>= applyAll ds' :=
  List.foldlM_append

-- Differences that each act on the class of name `n` change that class alone.
theorem applyAll_of_applyToClass (hds : ∀ d ∈ ds, ∀ m, d.apply m = m.update n d.applyToClass)
    (hc : m.get? n = some c) (h : ds.foldlM (fun x d => d.applyToClass x) c = .ok c') :
    applyAll ds m = .ok (m.insert n c') := by
  induction ds generalizing m c with
  | nil =>
    cases h
    rw [applyAll_nil, ClassMap.insert_of_get? hc]
  | cons d ds ih =>
    rw [List.foldlM_cons] at h
    cases hd : d.applyToClass c with
    | error e => rw [hd] at h; cases h
    | ok c₁ =>
      rw [hd, Except.ok_bind] at h
      rw [applyAll_cons, hds d List.mem_cons_self, ClassMap.update_of_get? hc hd, Except.ok_bind,
        ih (fun d hd => hds d (List.mem_cons_of_mem _ hd)) (by simp) h, ClassMap.insert_insert]

end Apply

section Differences

variable {cls : String} {f g : FieldModel} {a b : MethodModel} {old new : ClassModel}
  {d : Difference}

-- Every difference of a class acts on the class of name `cls`, through its step on a class.
def Difference.ActsOn (cls : String) (d : Difference) : Prop :=
  ∀ m, d.apply m = m.update cls d.applyToClass

theorem actsOn_of_mem_compareField (hd : d ∈ compareField cls f g) : d.ActsOn cls := by
  simp only [compareField, List.mem_append] at hd
  rcases hd with ((hd | hd) | hd) | hd <;> split at hd <;>
    simp only [List.mem_singleton, List.not_mem_nil] at hd <;> subst hd <;> exact fun _ => rfl

theorem actsOn_of_mem_compareMethod (hd : d ∈ compareMethod cls a b) : d.ActsOn cls := by
  simp only [compareMethod, List.mem_append] at hd
  rcases hd with ((((hd | hd) | hd) | hd) | hd) | hd <;> split at hd <;>
    simp only [List.mem_singleton, List.not_mem_nil] at hd <;> subst hd <;> exact fun _ => rfl

theorem MetadataChange.className_of_between {ch : MetadataChange}
    (h : MetadataChange.between old new = some ch) : ch.className = old.name := by
  simp only [MetadataChange.between] at h
  split at h
  · cases h
  · cases h
    rfl

theorem actsOn_of_mem_headerDifferences (hd : d ∈ headerDifferences old new) :
    d.ActsOn old.name := by
  simp only [headerDifferences, List.mem_append] at hd
  rcases hd with (hd | hd) | hd
  · split at hd <;> simp only [List.mem_singleton, List.not_mem_nil] at hd
    subst hd
    exact fun _ => rfl
  · cases hb : MetadataChange.between old new with
    | none => simp [hb] at hd
    | some ch =>
      simp only [hb, Option.map_some, Option.toList_some, List.mem_singleton] at hd
      subst hd
      intro m
      rw [← MetadataChange.className_of_between hb]
      rfl
  · split at hd <;> simp only [List.mem_singleton, List.not_mem_nil] at hd
    subst hd
    exact fun _ => rfl

theorem actsOn_of_mem_compareClass (hd : d ∈ compareClass old new) : d.ActsOn old.name := by
  simp only [compareClass, List.mem_append] at hd
  rcases hd with (hd | hd) | hd
  · exact actsOn_of_mem_headerDifferences hd
  · exact forall_mem_memberDifferences (fun _ _ => rfl) (fun _ _ => rfl)
      (fun _ _ _ => actsOn_of_mem_compareField) d hd
  · exact forall_mem_memberDifferences (fun _ _ => rfl) (fun _ _ => rfl)
      (fun _ _ _ => actsOn_of_mem_compareMethod) d hd

end Differences

section Phases

variable {old new m : ClassMap} {k : String}

theorem get?_foldl_erase (ns : List String) (m : ClassMap) :
    (ns.foldl ClassMap.erase m).get? k = if k ∈ ns then none else m.get? k := by
  induction ns generalizing m with
  | nil => simp
  | cons n ns ih =>
    rw [List.foldl_cons, ih]
    by_cases hk : k = n <;> by_cases hks : k ∈ ns <;> simp [hk, hks]

-- Removing classes that are held succeeds and erases them.
theorem applyAll_classRemoved {ns : List String} (hnd : ns.Nodup) (hns : ∀ n ∈ ns, n ∈ m.names) :
    applyAll (ns.map .classRemoved) m = .ok (ns.foldl ClassMap.erase m) := by
  induction ns generalizing m with
  | nil => rfl
  | cons n ns ih =>
    rw [List.nodup_cons] at hnd
    have hn : m.contains n = true :=
      ClassMap.contains_iff_mem_names.mpr (hns n List.mem_cons_self)
    rw [List.map_cons, applyAll_cons,
      show Difference.apply (.classRemoved n) m = .ok (m.erase n) by simp [Difference.apply, hn],
      Except.ok_bind, List.foldl_cons]
    -- the names still to remove differ from `n`, so erasing `n` keeps them
    refine ih hnd.2 fun k hk => ?_
    have hne : k ≠ n := fun h => hnd.1 (h ▸ hk)
    obtain ⟨c, hc⟩ := ClassMap.mem_names_iff_get?.mp (hns k (List.mem_cons_of_mem n hk))
    exact ClassMap.mem_names_iff_get?.mpr ⟨c, by simp [hne, hc]⟩

theorem get?_foldl_insert {es : List (String × ClassModel)} (hes : ∀ p ∈ es, p.2.name = p.1)
    (hnd : (es.map (·.1)).Nodup) (m : ClassMap) :
    (es.foldl (fun m p => m.insert p.2.name p.2) m).get? k = (es.lookup k).or (m.get? k) := by
  induction es generalizing m with
  | nil => simp
  | cons p es ih =>
    obtain ⟨n, c⟩ := p
    rw [List.map_cons, List.nodup_cons] at hnd
    rw [List.foldl_cons, ih (fun q hq => hes q (List.mem_cons_of_mem _ hq)) hnd.2,
      hes (n, c) List.mem_cons_self]
    by_cases hk : k = n
    · -- a later class has another name, so the class inserted here stays
      subst hk
      have : es.lookup k = none := List.lookup_eq_none_iff.mpr fun q hq => by
        have hmem : q.1 ∈ es.map (·.1) := List.mem_map_of_mem hq
        exact bne_iff_ne.mpr fun he => hnd.1 (he ▸ hmem)
      simp [this]
    · simp [List.lookup_cons, Bool.beq_eq_decide_eq, hk]

-- Adding classes always succeeds and inserts each under its name.
theorem applyAll_classAdded (es : List (String × ClassModel)) (m : ClassMap) :
    applyAll (es.map fun p => .classAdded { cls := p.2 }) m =
      .ok (es.foldl (fun m p => m.insert p.2.name p.2) m) := by
  induction es generalizing m with
  | nil => rfl
  | cons p es ih => exact ih _

-- The differences of a class held under its name act on that class alone: they replace it by
-- the class rebuilt against its new version.
theorem applyAll_compareClass {c c' : ClassModel} (hm : m.get? c.name = some c)
    (hc : c.UniqueMembers) (hc' : c'.UniqueMembers) :
    applyAll (compareClass c c') m = .ok (m.insert c.name (c.rebuilt c')) :=
  applyAll_of_applyToClass (fun _ hd => actsOn_of_mem_compareClass hd) hm
    (compareClass_replay hc hc')

-- Replaying the changes of classes held under their names, each in the state the earlier ones
-- leave, rebuilds each of them that the new set holds and keeps every other class.
theorem applyAll_classChanges (hnew : ∀ c ∈ new.classes, c.UniqueMembers)
    {es : List (String × ClassModel)} (hnd : (es.map (·.1)).Nodup)
    (hes : ∀ p ∈ es, p.2.name = p.1 ∧ p.2.UniqueMembers)
    (hm : ∀ p ∈ es, new.contains p.1 = true → m.get? p.1 = some p.2) :
    ∃ m', applyAll (es.flatMap fun p => classChanges new p.1 p.2) m = .ok m' ∧
      ∀ k, m'.get? k = ((es.lookup k).bind fun c => (new.get? k).map c.rebuilt).or (m.get? k) := by
  induction es generalizing m with
  | nil => exact ⟨m, rfl, fun k => by simp⟩
  | cons p es ih =>
    obtain ⟨n, c⟩ := p
    simp only [List.map_cons, List.nodup_cons] at hnd
    obtain ⟨hname, hunique⟩ : c.name = n ∧ c.UniqueMembers := hes (n, c) List.mem_cons_self
    have hes' := fun q hq => hes q (List.mem_cons_of_mem _ hq)
    -- the later classes have other names than `n`
    have hne : ∀ q ∈ es, q.1 ≠ n := fun q hq he => by
      have hmem : q.1 ∈ es.map (·.1) := List.mem_map_of_mem hq
      exact hnd.1 (he ▸ hmem)
    have hlookup : es.lookup n = none :=
      List.lookup_eq_none_iff.mpr fun q hq => bne_iff_ne.mpr (Ne.symm (hne q hq))
    rw [List.flatMap_cons, applyAll_append]
    cases hn : new.get? n with
    | none =>
      rw [classChanges_of_get?_none hn, applyAll_nil, Except.ok_bind]
      obtain ⟨m', hrun, hget⟩ := ih hnd.2 hes' fun q hq => hm q (List.mem_cons_of_mem _ hq)
      refine ⟨m', hrun, fun k => ?_⟩
      by_cases hk : k = n
      · subst hk
        simp [hget, hlookup, hn]
      · simp [hget, List.lookup_cons, Bool.beq_eq_decide_eq, hk]
    | some c' =>
      have hmn : m.get? c.name = some c := by
        rw [hname]
        exact hm (n, c) List.mem_cons_self (by simp [ClassMap.contains, hn])
      rw [classChanges_of_get? hn, applyAll_compareClass hmn hunique
        (uniqueMembers_of_get? hnew hn), Except.ok_bind, hname]
      obtain ⟨m', hrun, hget⟩ := ih (m := m.insert n (c.rebuilt c')) hnd.2 hes' fun q hq hq' => by
        rw [ClassMap.get?_insert, if_neg (hne q hq)]
        exact hm q (List.mem_cons_of_mem _ hq) hq'
      refine ⟨m', hrun, fun k => ?_⟩
      by_cases hk : k = n
      · subst hk
        simp [hget, hlookup, hn]
      · simp [hget, List.lookup_cons, Bool.beq_eq_decide_eq, hk]

theorem lookup_filter_not_contains (es : List (String × ClassModel)) :
    (es.filter (!m.contains ·.1)).lookup k = if m.contains k then none else es.lookup k := by
  induction es with
  | nil => simp
  | cons p es ih =>
    obtain ⟨a, b⟩ := p
    by_cases ha : m.contains a = true
    · rw [List.filter_cons_of_neg (by simp [ha]), ih]
      by_cases hk : k = a
      · subst hk
        simp [ha]
      · by_cases hmk : m.contains k = true <;> simp [hk, hmk, List.lookup_cons, Bool.beq_eq_decide_eq]
    · rw [List.filter_cons_of_pos (by simpa using ha)]
      by_cases hk : k = a
      · subst hk
        simp [ha]
      · simp [hk, ih, List.lookup_cons, Bool.beq_eq_decide_eq]

end Phases

section Replay

variable {old new : ClassMap} {k : String}

-- The class that replaying the differences from `old` to `new` leaves under a name: the class of
-- `old` rebuilt against the class of `new` when both hold the name, and otherwise what `new` holds.
def replayedClass (old new : ClassMap) (k : String) : Option ClassModel :=
  match old.get? k, new.get? k with
  | some c, some c' => some (c.rebuilt c')
  | _, c' => c'

-- Applying the differences between two well-formed sets of classes succeeds, and leaves under
-- each name the class `replayedClass` describes.
theorem applyAll_diffClasses_get? (hold : old.WellFormed) (hnew : new.WellFormed) :
    ∃ m, applyAll (diffClasses old new) old = .ok m ∧ ∀ k, m.get? k = replayedClass old new k := by
  -- first the names that only `old` holds are removed
  have hremoved : (old.names.filter (!new.contains ·)).Nodup := old.names_nodup.filter _
  have hrun₁ := applyAll_classRemoved hremoved fun n hn => (List.mem_filter.mp hn).1
  -- then the classes that only `new` holds are added under their names
  have hadded : ∀ p ∈ new.entries.filter (!old.contains ·.1), p.2.name = p.1 := fun p hp =>
    hnew.named p.1 p.2 (ClassMap.get?_eq_some_iff.mpr (List.mem_filter.mp hp).1)
  have hadded_nd : ((new.entries.filter (!old.contains ·.1)).map (·.1)).Nodup :=
    new.names_nodup.sublist (List.filter_sublist.map _)
  have hget₂ : ∀ k, ((new.entries.filter (!old.contains ·.1)).foldl
      (fun m p => m.insert p.2.name p.2) ((old.names.filter (!new.contains ·)).foldl
        ClassMap.erase old)).get? k =
      (if old.contains k then none else new.get? k).or
        (if k ∈ old.names.filter (!new.contains ·) then none else old.get? k) := fun k => by
    rw [get?_foldl_insert hadded hadded_nd, lookup_filter_not_contains, get?_foldl_erase]
    rfl
  -- last, each class that both hold is rebuilt, and it is still the old class when reached
  obtain ⟨m, hrun₃, hget⟩ := applyAll_classChanges hnew.unique old.names_nodup
    (fun p hp => ⟨hold.named p.1 p.2 (ClassMap.get?_eq_some_iff.mpr hp),
      hold.unique p.2 (List.mem_map_of_mem hp)⟩)
    (fun p hp hc => by
      have ho : old.get? p.1 = some p.2 := ClassMap.get?_eq_some_iff.mpr hp
      obtain ⟨c', hc'⟩ := Option.isSome_iff_exists.mp hc
      rw [hget₂]
      simp [ClassMap.contains, ClassMap.mem_names_iff_get?, ho, hc'])
  refine ⟨m, ?_, fun k => ?_⟩
  · simp only [diffClasses, applyAll_append, hrun₁, Except.ok_bind, applyAll_classAdded, hrun₃]
  · rw [hget k, hget₂, show old.entries.lookup k = old.get? k from rfl]
    cases ho : old.get? k <;> cases hn : new.get? k <;>
      simp [replayedClass, ClassMap.contains, ClassMap.mem_names_iff_get?, ho, hn]

theorem replayedClass_eq_none (h : new.get? k = none) : replayedClass old new k = none := by
  cases ho : old.get? k <;> simp [replayedClass, ho, h]

theorem replayedClass_agrees (hnew : new.WellFormed)
    (hclosed : ∀ c ∈ new.classes, ∀ m ∈ c.methods, ClosedBody m.instructions m.handlers)
    {c' : ClassModel} (h : new.get? k = some c') :
    ∃ x, replayedClass old new k = some x ∧ x.Agrees c' := by
  have hmem : c' ∈ new.classes := List.mem_map.mpr ⟨(k, c'), ClassMap.mem_entries_of_get? h, rfl⟩
  cases ho : old.get? k with
  | none => exact ⟨c', by simp [replayedClass, ho, h],
      ClassModel.Agrees.refl (hnew.unique c' hmem) (hclosed c' hmem)⟩
  | some c => exact ⟨c.rebuilt c', by simp [replayedClass, ho, h],
      rebuilt_agrees (hnew.unique c' hmem) (hclosed c' hmem)⟩

-- Applying the differences between two well-formed sets of classes, whose new methods place the
-- labels they branch to, succeeds and leaves a set with the names of the new one that the
-- comparison finds no difference from.
theorem applyAll_diffClasses (hold : old.WellFormed) (hnew : new.WellFormed)
    (hclosed : ∀ c ∈ new.classes, ∀ m ∈ c.methods, ClosedBody m.instructions m.handlers) :
    ∃ m, applyAll (diffClasses old new) old = .ok m ∧ m.names = new.names ∧
      diffClasses m new = [] := by
  obtain ⟨m, hrun, hget⟩ := applyAll_diffClasses_get? hold hnew
  have hnames : ∀ n, n ∈ m.names ↔ n ∈ new.names := by
    intro n
    rw [ClassMap.mem_names_iff_get?, ClassMap.mem_names_iff_get?, hget]
    cases hn : new.get? n with
    | none => simp [replayedClass_eq_none hn]
    | some c' =>
      obtain ⟨x, hx, -⟩ : ∃ x, replayedClass old new n = some x ∧ x.Agrees c' :=
        replayedClass_agrees hnew hclosed hn
      simp [hx]
  refine ⟨m, hrun, ClassMap.names_eq_of_mem_iff hnames,
    diffClasses_eq_nil_of_agree hnew.unique hnames fun n x c' hx hc' => ?_⟩
  obtain ⟨y, hy, hagree⟩ := replayedClass_agrees hnew hclosed hc'
  rw [hget, hy] at hx
  cases hx
  exact hagree

-- A method `run` whose body loops on one label.
def sampleLoop : MethodModel where
  name := "run"
  descriptor := "()V"
  access := 1
  signature := none
  exceptions := []
  annotationDefault := none
  maxStack := 0
  maxLocals := 1
  instructions := [.label ⟨0⟩, .jump Opcode.goto ⟨0⟩]
  handlers := []

-- Classes `A` and `B`, then `A` with new field flags and a method, and `C` in place of `B`.
def sampleOld : ClassMap := .ofList [sampleClass 1, { (default : ClassModel) with name := "B" }]

def sampleNew : ClassMap :=
  .ofList [{ sampleClass 2 with methods := [sampleLoop] }, { (default : ClassModel) with name := "C" }]

theorem applyAll_diffClasses_sample :
    sampleOld.WellFormed ∧ sampleNew.WellFormed ∧
      (∀ c ∈ sampleNew.classes, ∀ m ∈ c.methods, ClosedBody m.instructions m.handlers) ∧
      ∃ m, applyAll (diffClasses sampleOld sampleNew) sampleOld = .ok m ∧
        m.names = sampleNew.names ∧ diffClasses m sampleNew = [] := by
  have hold : sampleOld.WellFormed := ClassMap.wellFormed_ofList fun c hc => by
    simp only [List.mem_cons, List.not_mem_nil, or_false] at hc
    rcases hc with rfl | rfl
    · exact ⟨by simp [sampleClass], List.nodup_nil⟩
    · exact ⟨List.nodup_nil, List.nodup_nil⟩
  have hnew : sampleNew.WellFormed := ClassMap.wellFormed_ofList fun c hc => by
    simp only [List.mem_cons, List.not_mem_nil, or_false] at hc
    rcases hc with rfl | rfl
    · exact ⟨by simp [sampleClass], by simp⟩
    · exact ⟨List.nodup_nil, List.nodup_nil⟩
  have hclosed : ∀ c ∈ sampleNew.classes, ∀ m ∈ c.methods, ClosedBody m.instructions m.handlers := by
    intro c hc m hm
    have hc := ClassMap.mem_classes_ofList hc
    simp only [List.mem_cons, List.not_mem_nil, or_false] at hc
    rcases hc with rfl | rfl
    · simp only [List.mem_cons, List.not_mem_nil, or_false] at hm
      subst hm
      simp [ClosedBody, branchLabels, sampleLoop, Instruction.targets]
    · exact absurd hm List.not_mem_nil
  exact ⟨hold, hnew, hclosed, applyAll_diffClasses hold hnew hclosed⟩

end Replay

end ClassPatch
