import ClassPatch.Proofs.ClassMap
import ClassPatch.Delta.Compare

/-!
Loading a snapshot on one thread. The class files are taken from the last to the first; each
class read goes into the snapshot under its name, over any class of that name read before it, so
of several files of one class the first stays, with its bytes. A file that fails to read stops
the loading, and since the files are taken from the last, the error is that of the last file
that fails.
-/

namespace ClassPatch

namespace Snapshot

variable {b : List UInt8} {bs : List (List UInt8)} {s : Snapshot} {c : ClassModel}

-- Loading one more file in front reads the files behind it first, then that file.
theorem load_cons_ok (hs : load bs = .ok s) (hc : ClassModel.parse b readOptions = .ok c) :
    load (b :: bs) = .ok { classes := s.classes.insert c.name c,
                           classFiles := (c.name, b) :: s.classFiles.filter (·.1 != c.name) } := by
  unfold load at hs ⊢
  rw [List.reverse_cons, List.foldlM_append, hs]
  simp only [List.foldlM_cons, List.foldlM_nil, hc]
  rfl

theorem load_cons_bad {e : FormatError} (hs : load bs = .ok s)
    (he : ClassModel.parse b readOptions = .error e) : load (b :: bs) = .error (.badClass e) := by
  unfold load at hs ⊢
  rw [List.reverse_cons, List.foldlM_append, hs]
  simp only [List.foldlM_cons, List.foldlM_nil, he]
  rfl

theorem load_cons_of_error {e : PatchError} (hs : load bs = .error e) : load (b :: bs) = .error e := by
  unfold load at hs ⊢
  rw [List.reverse_cons, List.foldlM_append, hs]
  rfl

theorem load_ok_of_forall (h : ∀ b ∈ bs, ∃ c, ClassModel.parse b readOptions = .ok c) :
    ∃ s, load bs = .ok s := by
  induction bs with
  | nil => exact ⟨_, rfl⟩
  | cons b bs ih =>
    obtain ⟨s, hs⟩ := ih fun b' hb' => h b' (List.mem_cons_of_mem b hb')
    obtain ⟨c, hc⟩ := h b List.mem_cons_self
    exact ⟨_, load_cons_ok hs hc⟩

theorem load_of_last_bad {e : FormatError} (pre post : List (List UInt8))
    (he : ClassModel.parse b readOptions = .error e)
    (hpost : ∀ b' ∈ post, ∃ c, ClassModel.parse b' readOptions = .ok c) :
    load (pre ++ b :: post) = .error (.badClass e) := by
  induction pre with
  | nil =>
    obtain ⟨s, hs⟩ := load_ok_of_forall hpost
    exact load_cons_bad hs he
  | cons x pre ih => exact load_cons_of_error ih

theorem load_of_forall₂ {cs : List ClassModel}
    (h : List.Forall₂ (fun b c => ClassModel.parse b readOptions = .ok c) bs cs) :
    ∃ s, load bs = .ok s ∧ ∀ n, s.classes.get? n = cs.find? (·.name == n) ∧
      s.classFiles.lookup n = ((cs.zip bs).find? (·.1.name == n)).map (·.2) := by
  induction h with
  | nil => exact ⟨_, rfl, fun n => ⟨rfl, rfl⟩⟩
  | @cons b c bs cs hc _ ih =>
    obtain ⟨s, hs, hspec⟩ := ih
    refine ⟨_, load_cons_ok hs hc, fun n => ?_⟩
    obtain ⟨hget, hfile⟩ := hspec n
    -- the front file's class goes in over the classes of the files behind it
    by_cases hn : n = c.name
    · subst hn
      simp
    · have hn' : (c.name == n) = false := beq_eq_false_iff_ne.mpr (Ne.symm hn)
      have hnb : (n == c.name) = false := beq_eq_false_iff_ne.mpr hn
      simp only [ClassMap.get?_insert, if_neg hn, hget, List.find?_cons, hn', List.zip_cons_cons,
        List.lookup_cons, hnb, true_and]
      rw [ClassMap.lookup_filter_ne, if_neg hn, hfile]

end Snapshot

/-- Loading on one thread keeps the first class of each name and reports the last failure. When
a file fails to read and every file after it reads, loading fails with that file's error. When
every file reads, loading succeeds with a snapshot that holds exactly the names of the classes
read; each name holds the class of the first file whose class has that name, and that file's
bytes. -/
theorem Snapshot.load_keeps_first_class_reports_last_error :
    (∀ (pre post : List (List UInt8)) (b : List UInt8) (e : FormatError),
      ClassModel.parse b readOptions = .error e →
      (∀ b' ∈ post, ∃ c, ClassModel.parse b' readOptions = .ok c) →
      load (pre ++ b :: post) = .error (.badClass e)) ∧
    ∀ (bs : List (List UInt8)) (cs : List ClassModel),
      List.Forall₂ (fun b c => ClassModel.parse b readOptions = .ok c) bs cs →
      ∃ s, load bs = .ok s ∧ ∀ n,
        (s.classes.contains n ↔ ∃ c ∈ cs, c.name = n) ∧
        s.classes.get? n = cs.find? (·.name == n) ∧
        s.classFiles.lookup n = ((cs.zip bs).find? (·.1.name == n)).map (·.2) := by
  refine ⟨fun pre post _ _ he hpost => load_of_last_bad pre post he hpost, fun bs cs h => ?_⟩
  obtain ⟨s, hs, hspec⟩ := load_of_forall₂ h
  refine ⟨s, hs, fun n => ⟨?_, hspec n⟩⟩
  rw [ClassMap.contains, (hspec n).1, List.find?_isSome]
  simp

def Snapshot.sampleFile (access : UInt16) : List UInt8 :=
  [0xCA, 0xFE, 0xBA, 0xBE, 0, 0, 0, 0x34, 0, 3, 1, 0, 1, 0x43, 7, 0, 1,
    (access >>> 8).toUInt8, access.toUInt8, 0, 2, 0, 0, 0, 0, 0, 0, 0, 0, 0, 0]

def Snapshot.sampleClass (access : UInt16) : ClassModel :=
  { name := "C", access, version := ⟨0x34, 0⟩, superName := none, interfaces := [],
    signature := none, sourceFile := none, sourceDebug := none, outerClass := none,
    outerMethod := none, outerMethodDescriptor := none, nestHost := none, nestMembers := [],
    innerClasses := [], fields := [], methods := [] }

theorem Snapshot.load_sampleTwins :
    (ClassModel.parse [] readOptions = .error .truncated ∧
      (∀ b ∈ [sampleFile 0x01], ∃ c, ClassModel.parse b readOptions = .ok c) ∧
      load ([sampleFile 0x21] ++ [] :: [sampleFile 0x01]) = .error (.badClass .truncated)) ∧
    List.Forall₂ (fun b c => ClassModel.parse b readOptions = .ok c)
      [sampleFile 0x21, sampleFile 0x01] [sampleClass 0x21, sampleClass 0x01] ∧
    ∃ s, load [sampleFile 0x21, sampleFile 0x01] = .ok s ∧
      s.classes.get? "C" = some (sampleClass 0x21) ∧
      s.classFiles.lookup "C" = some (sampleFile 0x21) := by
  have hbad : ClassModel.parse [] readOptions = .error .truncated := rfl
  have h21 : ClassModel.parse (sampleFile 0x21) readOptions = .ok (sampleClass 0x21) := rfl
  have h01 : ClassModel.parse (sampleFile 0x01) readOptions = .ok (sampleClass 0x01) := rfl
  have hpost : ∀ b ∈ [sampleFile 0x01], ∃ c, ClassModel.parse b readOptions = .ok c := by
    simp [h01]
  have htwins : List.Forall₂ (fun b c => ClassModel.parse b readOptions = .ok c)
      [sampleFile 0x21, sampleFile 0x01] [sampleClass 0x21, sampleClass 0x01] :=
    .cons h21 (.cons h01 .nil)
  obtain ⟨s, hs, hspec⟩ := load_keeps_first_class_reports_last_error.2 _ _ htwins
  obtain ⟨-, hget, hfile⟩ := hspec "C"
  refine ⟨⟨hbad, hpost, load_keeps_first_class_reports_last_error.1 _ _ _ _ hbad hpost⟩, htwins,
    s, hs, ?_, ?_⟩
  · rw [hget]
    rfl
  · rw [hfile]
    rfl

end ClassPatch
