import Mathlib.Data.List.Induction
import ClassPatch.Bytecode.Equivalence

namespace ClassPatch

-- The labels a body names as places to go: the targets of its branches and switches, and the
-- bounds and entry of each handler.
def branchLabels (insns : List (Instruction Label)) (handlers : List (Handler Label)) :
    List Label :=
  insns.flatMap Instruction.targets ++ handlers.flatMap fun h => [h.start, h.«end», h.handler]

-- A body that places every label it branches to.
def ClosedBody (insns : List (Instruction Label)) (handlers : List (Handler Label)) : Prop :=
  ∀ l ∈ branchLabels insns handlers, .label l ∈ insns

variable {insns : List (Instruction Label)} {i : Instruction Label} {l l' : Label}

theorem placeOf_nil : placeOf [] l = none := rfl

theorem placeOf_append_label :
    placeOf (insns ++ [.label l']) l = if l' = l then some insns.length else placeOf insns l := by
  simp [placeOf, List.zipIdx_append]

theorem placeOf_append_of_not_label (hi : ∀ l', i ≠ .label l') :
    placeOf (insns ++ [i]) l = placeOf insns l := by
  cases i <;> simp_all [placeOf, List.zipIdx_append]

theorem placeOf_isSome : (placeOf insns l).isSome ↔ .label l ∈ insns := by
  induction insns using List.reverseRecOn with
  | nil => simp [placeOf_nil]
  | append_singleton insns i ih =>
    by_cases hi : ∃ l', i = .label l'
    · obtain ⟨l', rfl⟩ := hi
      by_cases hl : l' = l
      · simp [placeOf_append_label, hl]
      · simp [placeOf_append_label, hl, ih, Ne.symm hl]
    · push Not at hi
      rw [placeOf_append_of_not_label hi, ih]
      simp [(hi l).symm]

theorem mem_zip_self {α : Type} {xs : List α} {p : α × α} (h : p ∈ xs.zip xs) :
    p.1 ∈ xs ∧ p.2 = p.1 := by
  induction xs with
  | nil => simp at h
  | cons x xs ih =>
    rcases List.mem_cons.mp h with rfl | h
    · simp
    · exact ⟨List.mem_cons_of_mem x (ih h).1, (ih h).2⟩

namespace Correspondence

variable {place : Label → Option Nat}

theorem sameTarget_self (h : (place l).isSome) : sameTarget ⟨place, place⟩ l l = true := by
  obtain ⟨p, hp⟩ := Option.isSome_iff_exists.mp h
  simp [sameTarget, hp]

theorem sameInstruction_self (h : ∀ t ∈ i.targets, (place t).isSome) :
    sameInstruction ⟨place, place⟩ i i = true := by
  have hts : ∀ ts : List Label, (∀ t ∈ ts, (place t).isSome) →
      sameTargets ⟨place, place⟩ ts ts = true := fun ts hts => by
    simp only [sameTargets, beq_self_eq_true, Bool.true_and, List.all_eq_true]
    intro p hp
    obtain ⟨hm, he⟩ := mem_zip_self hp
    rw [he]
    exact sameTarget_self (hts _ hm)
  cases i <;> simp_all [sameInstruction, Instruction.targets, sameTarget_self]

end Correspondence

theorem equivalentCode_self {handlers : List (Handler Label)} (h : ClosedBody insns handlers) :
    equivalentCode insns insns handlers handlers = true := by
  have placed : ∀ l ∈ branchLabels insns handlers, (placeOf insns l).isSome :=
    fun l hl => placeOf_isSome.mpr (h l hl)
  simp only [equivalentCode, beq_self_eq_true, Bool.true_and, Bool.and_eq_true,
    List.all_eq_true]
  constructor
  · intro p hp
    obtain ⟨hm, he⟩ := mem_zip_self hp
    rw [he]
    refine Correspondence.sameInstruction_self fun t ht => placed t ?_
    exact List.mem_append_left _ (List.mem_flatMap.mpr ⟨_, hm, ht⟩)
  · intro p hp
    obtain ⟨hm, he⟩ := mem_zip_self hp
    rw [he]
    have hl : ∀ l ∈ [p.1.start, p.1.«end», p.1.handler], (placeOf insns l).isSome :=
      fun l hl => placed l (List.mem_append_right _ (List.mem_flatMap.mpr ⟨_, hm, hl⟩))
    simp only [List.mem_cons, List.not_mem_nil, or_false, forall_eq_or_imp, forall_eq] at hl
    simp [Correspondence.sameHandler, Correspondence.sameTarget_self, hl]

end ClassPatch
