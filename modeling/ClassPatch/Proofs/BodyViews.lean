import ClassPatch.Proofs.InstructionReadBack

namespace ClassPatch

namespace Instruction

variable {L : Type}

def frame? : Instruction L → Option (Frame String L)
  | .frame f => some f
  | _ => none

def line? : Instruction L → Option (UInt16 × L)
  | .lineNumber line start => some (line, start)
  | _ => none

end Instruction

section Views

variable {L : Type}

def realsBefore (insns : List (Instruction L)) (n : Nat) : Nat :=
  (insns.take n).countP (!·.isMarker)

def denotes (insns : List (Instruction Label)) (l : Label) : Nat :=
  realsBefore insns ((placeOf insns l).getD insns.length)

def instructionView (insns : List (Instruction Label)) : List (Instruction Nat) :=
  (insns.filter (!·.isMarker)).map (·.mapLabels (denotes insns))

def frameView (insns : List (Instruction Label)) : List (Nat × Frame String Nat) :=
  insns.zipIdx.filterMap fun q =>
    q.1.frame?.map fun f => (realsBefore insns q.2, f.map id (denotes insns))

def lineView (insns : List (Instruction Label)) : List (UInt16 × Nat) :=
  insns.filterMap fun i => i.line?.map fun p => (p.1, denotes insns p.2)

def LinesAtStart (insns : List (Instruction Label)) : Prop :=
  ∀ q ∈ insns.zipIdx, ∀ p ∈ q.1.line?, realsBefore insns q.2 = denotes insns p.2

def handlerView (insns : List (Instruction Label)) (handlers : List (Handler Label)) :
    List (Handler Nat) :=
  handlers.map (·.mapLabels (denotes insns))

end Views

section Widening

def moved (W : List Nat) (k : Nat) : Nat := k + W.countP (· < k)

def readBackAt (W : List Nat) (k : Nat) : Instruction Nat → List (Instruction Nat)
  | .jump op t =>
    match W.contains k, op.invertedBranch? with
    | true, some inv => [.jump inv (moved W (k + 1)), .jump Opcode.goto (moved W t)]
    | _, _ => [.jump op.narrowed (moved W t)]
  | i => [i.mapLabels (moved W)]

def readBack (W : List Nat) (acts : List (Instruction Nat)) : List (Instruction Nat) :=
  acts.zipIdx.flatMap fun q => readBackAt W q.2 q.1

variable {W : List Nat}

theorem countP_lt_succ (k : Nat) (W : List Nat) :
    W.countP (· < k + 1) = W.countP (· < k) + W.count k := by
  induction W with
  | nil => rfl
  | cons x W ih =>
    simp only [List.countP_cons, List.count_cons, ih, beq_iff_eq, decide_eq_true_eq]
    by_cases hx : x = k
    · simp [hx]
      omega
    · by_cases hlt : x < k
      · simp [hx, hlt, show x < k + 1 by omega]
        omega
      · simp [hx, hlt, show ¬x < k + 1 by omega]

theorem moved_succ (hW : W.Nodup) (k : Nat) :
    moved W (k + 1) = moved W k + 1 + if k ∈ W then 1 else 0 := by
  unfold moved
  rw [countP_lt_succ]
  by_cases hk : k ∈ W
  · rw [List.count_eq_one_of_mem hW hk, if_pos hk]
    omega
  · rw [List.count_eq_zero_of_not_mem hk, if_neg hk]
    omega

theorem readBackAt_of_not_jump {k : Nat} {i : Instruction Nat} (h : ∀ op t, i ≠ .jump op t) :
    readBackAt W k i = [i.mapLabels (moved W)] := by
  cases i
  case jump op t => exact absurd rfl (h op t)
  all_goals rfl

theorem readBackAt_mapLabels {k : Nat} {g : Label → Nat} {i : Instruction Label}
    (h : ∀ op t, i ≠ .jump op t) : readBackAt W k (i.mapLabels g) = [i.mapLabels (moved W ∘ g)] := by
  rw [readBackAt_of_not_jump, Instruction.mapLabels_mapLabels]
  intro op t ht
  cases i <;> simp_all [Instruction.mapLabels]

theorem readBackAt_inverted {k : Nat} {op inv : Opcode} {t : Nat} (hk : k ∈ W)
    (h : op.invertedBranch? = some inv) :
    readBackAt W k (.jump op t) = [.jump inv (moved W (k + 1)), .jump Opcode.goto (moved W t)] := by
  simp [readBackAt, hk, h]

theorem readBackAt_jump {k : Nat} {op : Opcode} {t : Nat}
    (h : k ∈ W → op.invertedBranch? = none) :
    readBackAt W k (.jump op t) = [.jump op.narrowed (moved W t)] := by
  by_cases hk : k ∈ W
  · simp [readBackAt, hk, h hk]
  · simp [readBackAt, hk]

end Widening

section Positions

variable {L : Type} {insns more : List (Instruction L)} {p : Nat}

theorem realsBefore_append_of_le (hp : p ≤ insns.length) :
    realsBefore (insns ++ more) p = realsBefore insns p := by
  simp [realsBefore, List.take_append_of_le_length hp]

theorem realsBefore_length : realsBefore insns insns.length = insns.countP (!·.isMarker) := by
  simp [realsBefore]

theorem realsBefore_succ {p : Nat} (hp : p < insns.length) :
    realsBefore insns (p + 1) = realsBefore insns p + if insns[p].isMarker then 0 else 1 := by
  simp only [realsBefore, List.take_add_one, List.getElem?_eq_getElem hp, Option.toList_some,
    List.countP_append, List.countP_singleton]
  cases insns[p].isMarker <;> rfl

theorem flatMap_zipIdx_reals {β : Type} (F : Nat → Instruction L → List β) :
    (insns.zipIdx.flatMap fun q => if q.1.isMarker then [] else F (realsBefore insns q.2) q.1) =
      (insns.filter (!·.isMarker)).zipIdx.flatMap fun q => F q.2 q.1 := by
  induction insns using List.reverseRecOn with
  | nil => rfl
  | append_singleton insns i ih =>
    -- the earlier positions count as they did, and the last one counts every instruction
    have hearlier : (insns.zipIdx.flatMap fun q =>
        if q.1.isMarker then [] else F (realsBefore (insns ++ [i]) q.2) q.1) =
        insns.zipIdx.flatMap fun q =>
          if q.1.isMarker then [] else F (realsBefore insns q.2) q.1 := by
      refine List.flatMap_congr fun q hq => ?_
      have hlt : q.2 < insns.length :=
        (List.getElem?_eq_some_iff.mp (List.mem_zipIdx_iff_getElem?.mp hq)).1
      rw [realsBefore_append_of_le hlt.le]
    rw [List.zipIdx_append, List.flatMap_append, hearlier, ih, List.filter_append,
      List.zipIdx_append, List.flatMap_append]
    congr 1
    have hlast : realsBefore (insns ++ [i]) insns.length = (insns.filter (!·.isMarker)).length := by
      rw [realsBefore_append_of_le le_rfl, realsBefore_length, List.countP_eq_length_filter]
    cases hi : i.isMarker
    · simp [hi, hlast]
    · simp [hi]

end Positions

theorem placeOf_append {insns more : List (Instruction Label)} {l : Label} :
    placeOf (insns ++ more) l = ((placeOf more l).map (insns.length + ·)).or (placeOf insns l) := by
  induction more using List.reverseRecOn with
  | nil => simp [placeOf_nil]
  | append_singleton more i ih =>
    rw [← List.append_assoc]
    by_cases hi : ∃ l', i = .label l'
    · obtain ⟨l', rfl⟩ := hi
      rw [placeOf_append_label, placeOf_append_label, ih]
      by_cases hl : l' = l
      · simp [hl]
      · simp [hl]
    · push Not at hi
      rw [placeOf_append_of_not_label hi, placeOf_append_of_not_label hi, ih]

theorem placeOf_lt {insns : List (Instruction Label)} {l : Label} {p : Nat}
    (h : placeOf insns l = some p) : p < insns.length := by
  induction insns using List.reverseRecOn generalizing p with
  | nil => cases h
  | append_singleton insns i ih =>
    rw [List.length_append, List.length_singleton]
    by_cases hi : ∃ l', i = .label l'
    · obtain ⟨l', rfl⟩ := hi
      rw [placeOf_append_label] at h
      split at h
      · cases h
        omega
      · exact Nat.lt_succ_of_lt (ih h)
    · push Not at hi
      rw [placeOf_append_of_not_label hi] at h
      exact Nat.lt_succ_of_lt (ih h)

end ClassPatch
