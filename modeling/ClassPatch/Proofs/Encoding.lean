import Mathlib.Data.List.Forall2
import Mathlib.Data.List.Induction
import ClassPatch.Bytecode.Layout
import ClassPatch.Proofs.Equivalence
import ClassPatch.Proofs.Monad

/-!
Equivalent bodies lay out alike. At each position two equivalent bodies hold elements of one kind
with equal operands, and their targets are placed at the same positions. The layout reads a body
only through these: the length of each element, where its targets are placed, and which markers
follow a branch. So from one pool the two bodies give the same bytes and the same handler table,
whatever their markers carry; only their line and frame tables may differ.
-/

namespace ClassPatch

section Positions

variable {insns : List (Instruction Label)} {ps : List (Label × Nat)} {l : Label}

-- Where a successful pass over the labels puts a label is where it is placed in the body.
theorem labelPositions_lookup (h : labelPositions insns = .ok ps) : ps.lookup l = placeOf insns l := by
  induction insns using List.reverseRecOn generalizing ps with
  | nil =>
    cases h
    rfl
  | append_singleton insns i ih =>
    simp only [labelPositions, List.zipIdx_append, List.foldlM_append] at h
    cases hp : labelPositions insns with
    | error e =>
      simp only [labelPositions] at hp
      simp [hp] at h
    | ok ps₀ =>
      simp only [labelPositions] at hp
      simp only [hp, Except.ok_bind, List.zipIdx_singleton, List.foldlM_cons, List.foldlM_nil,
        Nat.zero_add] at h
      have ih := ih hp
      by_cases hi : ∃ l', i = .label l'
      · -- a label placed here for the first time is found here
        obtain ⟨l', rfl⟩ := hi
        simp only at h
        split at h
        · simp at h
        · next hnew =>
          simp only [Except.ok_bind] at h
          cases h
          rw [placeOf_append_label]
          by_cases hl : l' = l
          · subst hl
            have hnone : ps₀.lookup l' = none := Option.not_isSome_iff_eq_none.mp hnew
            simp [List.lookup_append, hnone]
          · have hne : (l == l') = false := beq_false_of_ne (Ne.symm hl)
            simp [List.lookup_append, ih, List.lookup_cons, hne, hl]
      · push Not at hi
        rw [placeOf_append_of_not_label hi, ← ih]
        split at h
        · next l' => exact absurd rfl (hi l')
        · cases h
          rfl

end Positions

namespace Correspondence

variable {c : Correspondence} {l r : Label} {ls rs : List Label}

theorem sameTarget_iff : c.sameTarget l r = true ↔ ∃ p, c.left l = some p ∧ c.right r = some p := by
  unfold sameTarget
  split
  · next x y hx hy =>
    simp only [hx, hy, Option.some.injEq, beq_iff_eq, exists_eq_left']
    exact eq_comm
  · next hne =>
    simp only [Bool.false_eq_true, false_iff, not_exists, not_and]
    exact fun p hl hr => hne p p hl hr

theorem forall₂_of_sameTargets (h : c.sameTargets ls rs = true) :
    List.Forall₂ (fun l r => c.sameTarget l r = true) ls rs := by
  simp only [sameTargets, Bool.and_eq_true, beq_iff_eq, List.all_eq_true] at h
  exact List.forall₂_iff_zip.mpr ⟨h.1, fun hp => h.2 _ hp⟩

end Correspondence

section Targets

variable {c : Correspondence} {ps₁ ps₂ : List (Label × Nat)}

-- Labels placed at the same position have the same offset in any one list of offsets.
theorem labelOffset_eq_of_sameTarget (h₁ : ∀ l, ps₁.lookup l = c.left l)
    (h₂ : ∀ r, ps₂.lookup r = c.right r) (offsets : List Nat) {l r : Label}
    (h : c.sameTarget l r = true) :
    Layout.labelOffset ⟨offsets, ps₁⟩ l = Layout.labelOffset ⟨offsets, ps₂⟩ r := by
  obtain ⟨p, hl, hr⟩ := Correspondence.sameTarget_iff.mp h
  simp [Layout.labelOffset, h₁, h₂, hl, hr]

end Targets

section Instructions

variable {c : Correspondence} {lo₁ lo₂ : Label → Except FormatError Nat}

-- Switch targets that the two lookups send to one offset give the same relative jumps.
theorem mapM_relative_congr {ts ts' : List Label}
    (h : List.Forall₂ (fun l r => lo₁ l = lo₂ r) ts ts') (offset : Nat) :
    ts.mapM (fun l => do let target ← Build.lift (lo₁ l); pure ((target : Int) - offset)) =
      ts'.mapM (fun l => do let target ← Build.lift (lo₂ l); pure ((target : Int) - offset)) :=
  mapM_eq_of_forall₂ (h.imp fun l r hlr => by rw [hlr])

theorem instruction_congr {i₁ i₂ : Instruction Label}
    (h : c.sameInstruction i₁ i₂ = true) (hlo : ∀ l r, c.sameTarget l r = true → lo₁ l = lo₂ r)
    (offset : Nat) (wide : Bool) :
    Build.instruction i₁ offset wide lo₁ = Build.instruction i₂ offset wide lo₂ := by
  cases i₁ <;> cases i₂ <;>
    simp [Correspondence.sameInstruction, Instruction.opcode?, Instruction.kindIndex] at h
  case jump.jump op t op' t' =>
    obtain ⟨rfl, ht⟩ := h
    simp only [Build.instruction, hlo t t' ht]
  case tableSwitch.tableSwitch lo hi d ts lo' hi' d' ts' =>
    obtain ⟨⟨⟨rfl, rfl⟩, hd⟩, hts⟩ := h
    have hts := Correspondence.forall₂_of_sameTargets hts
    simp only [Build.instruction, hts.length_eq, hlo d d' hd,
      mapM_relative_congr (hts.imp fun l r h => hlo l r h)]
  case lookupSwitch.lookupSwitch d ks ts d' ks' ts' =>
    obtain ⟨⟨rfl, hd⟩, hts⟩ := h
    have hts := Correspondence.forall₂_of_sameTargets hts
    simp only [Build.instruction, hts.length_eq, hlo d d' hd,
      mapM_relative_congr (hts.imp fun l r h => hlo l r h)]
  all_goals simp only [Build.instruction, h]

-- Measuring reads every label at one offset, so matched elements measure alike.
theorem instruction_congr_const {i₁ i₂ : Instruction Label} (h : c.sameInstruction i₁ i₂ = true)
    (r : Except FormatError Nat) (offset : Nat) (wide : Bool) :
    Build.instruction i₁ offset wide (fun _ => r) = Build.instruction i₂ offset wide (fun _ => r) :=
  instruction_congr h (fun _ _ _ => rfl) offset wide

end Instructions

theorem forall₂_zipIdx {α β : Type} {R : α → β → Prop} {xs : List α} {ys : List β}
    (h : List.Forall₂ R xs ys) (k : Nat) :
    List.Forall₂ (fun p q => R p.1 q.1 ∧ p.2 = q.2) (xs.zipIdx k) (ys.zipIdx k) := by
  induction h generalizing k with
  | nil => exact .nil
  | cons hxy _ ih => exact .cons ⟨hxy, rfl⟩ (ih (k + 1))

section Measure

variable {c : Correspondence} {insns₁ insns₂ : List (Instruction Label)}

theorem offsetsFrom_congr {ps qs : List (Instruction Label × Nat)}
    (h : List.Forall₂ (fun p q => c.sameInstruction p.1 q.1 = true ∧ p.2 = q.2) ps qs)
    (wide : List Nat) (offset : Nat) :
    Layout.offsetsFrom wide offset ps = Layout.offsetsFrom wide offset qs := by
  induction h generalizing offset with
  | nil => rfl
  | @cons p q ps qs hpq _ ih =>
    obtain ⟨i, n⟩ := p
    obtain ⟨j, m⟩ := q
    obtain ⟨hij, rfl⟩ := hpq
    simp only [Layout.offsetsFrom, instruction_congr_const hij, ih]

theorem measure_congr (h : List.Forall₂ (fun a b => c.sameInstruction a b = true) insns₁ insns₂)
    (wide : List Nat) : Layout.measure insns₁ wide = Layout.measure insns₂ wide := by
  simp only [Layout.measure, offsetsFrom_congr (forall₂_zipIdx h 0)]

end Measure

section Markers

variable {c : Correspondence} {i j : Instruction Label} {insns₁ insns₂ : List (Instruction Label)}

theorem Instruction.isFrame_eq_kindIndex (i : Instruction Label) : i.isFrame = (i.kindIndex == 15) := by
  cases i <;> rfl

-- Matched elements are markers of one kind or no markers at all.
theorem Correspondence.markerKind_eq (h : c.sameInstruction i j = true) :
    (i.isMarker, i.isFrame) = (j.isMarker, j.isFrame) := by
  simp only [Correspondence.sameInstruction, Bool.and_eq_true, beq_iff_eq] at h
  obtain ⟨⟨hop, hkind⟩, -⟩ := h
  simp [Instruction.isMarker, Instruction.isFrame_eq_kindIndex, hop, hkind]

theorem map_markerKind_eq (h : List.Forall₂ (fun a b => c.sameInstruction a b = true) insns₁ insns₂) :
    insns₁.map (fun i => (i.isMarker, i.isFrame)) = insns₂.map (fun i => (i.isMarker, i.isFrame)) := by
  induction h with
  | nil => rfl
  | cons hij _ ih => rw [List.map_cons, List.map_cons, Correspondence.markerKind_eq hij, ih]

-- Whether a frame follows a position is read off the kinds of the markers only.
theorem frameFollows_eq_map (insns : List (Instruction Label)) (n : Nat) :
    frameFollows insns n =
      (((insns.map fun i => (i.isMarker, i.isFrame)).drop (n + 1)).takeWhile (·.1)).any (·.2) := by
  rw [frameFollows, ← List.map_drop, List.takeWhile_map, List.any_map]
  rfl

theorem frameFollows_congr (h : List.Forall₂ (fun a b => c.sameInstruction a b = true) insns₁ insns₂)
    (n : Nat) : frameFollows insns₁ n = frameFollows insns₂ n := by
  rw [frameFollows_eq_map, frameFollows_eq_map, map_markerKind_eq h]

theorem any_isFrame_congr (h : List.Forall₂ (fun a b => c.sameInstruction a b = true) insns₁ insns₂) :
    insns₁.any Instruction.isFrame = insns₂.any Instruction.isFrame := by
  have hany : ∀ insns : List (Instruction Label), insns.any Instruction.isFrame =
      (insns.map fun i => (i.isMarker, i.isFrame)).any (·.2) := fun insns => by
    rw [List.any_map]
    rfl
  rw [hany, hany, map_markerKind_eq h]

end Markers

section Widenings

variable {c : Correspondence} {i j : Instruction Label} {op : Opcode} {t t' : Label}

theorem Correspondence.sameInstruction_jump_left (h : c.sameInstruction (.jump op t) j = true) :
    ∃ t', j = .jump op t' ∧ c.sameTarget t t' = true := by
  cases j <;> simp [Correspondence.sameInstruction, Instruction.opcode?, Instruction.kindIndex] at h
  case jump op' t' => exact ⟨t', by rw [h.1], h.2⟩

theorem Correspondence.sameInstruction_jump_right (h : c.sameInstruction i (.jump op t') = true) :
    ∃ t, i = .jump op t := by
  cases i <;> simp [Correspondence.sameInstruction, Instruction.opcode?, Instruction.kindIndex] at h
  case jump op₀ t => exact ⟨t, by rw [h.1]⟩

variable {insns₁ insns₂ : List (Instruction Label)} {ps₁ ps₂ : List (Label × Nat)}

theorem widenings_congr (h : List.Forall₂ (fun a b => c.sameInstruction a b = true) insns₁ insns₂)
    (h₁ : ∀ l, ps₁.lookup l = c.left l) (h₂ : ∀ r, ps₂.lookup r = c.right r)
    (offsets wide : List Nat) (hasFrames : Bool) :
    widenings insns₁ ⟨offsets, ps₁⟩ wide hasFrames = widenings insns₂ ⟨offsets, ps₂⟩ wide hasFrames := by
  unfold widenings
  refine foldlM_eq_of_forall₂ (fun added p q hpq => ?_) [] (forall₂_zipIdx h 0)
  obtain ⟨i, n⟩ := p
  obtain ⟨j, m⟩ := q
  obtain ⟨hij, hnm⟩ := hpq
  simp only at hij hnm
  subst hnm
  by_cases hi : ∃ op t, i = .jump op t
  · obtain ⟨op, t, rfl⟩ := hi
    obtain ⟨t', rfl, ht⟩ := Correspondence.sameInstruction_jump_left hij
    simp only [labelOffset_eq_of_sameTarget h₁ h₂ offsets ht, frameFollows_congr h]
  · have hj : ∀ op t', j ≠ .jump op t' := by
      rintro op t' rfl
      exact hi ⟨op, Correspondence.sameInstruction_jump_right hij⟩
    -- neither element is a branch; splitting on the first settles the second by hj
    simp only
    split
    · next op t => exact absurd ⟨op, t, rfl⟩ hi
    · rfl

theorem settle_congr (h : List.Forall₂ (fun a b => c.sameInstruction a b = true) insns₁ insns₂)
    (h₁ : ∀ l, ps₁.lookup l = c.left l) (h₂ : ∀ r, ps₂.lookup r = c.right r) (hasFrames : Bool)
    (fuel : Nat) (wide : List Nat) :
    settle insns₁ ps₁ hasFrames fuel wide = settle insns₂ ps₂ hasFrames fuel wide := by
  induction fuel generalizing wide with
  | zero => simp only [settle, measure_congr h]
  | succ fuel ih => simp only [settle, measure_congr h, widenings_congr h h₁ h₂, ih]

end Widenings

section Body

variable {c : Correspondence} {m₁ m₂ : MethodModel} {ps₁ ps₂ : List (Label × Nat)}

theorem encodeBody_congr
    (hi : List.Forall₂ (fun a b => c.sameInstruction a b = true) m₁.instructions m₂.instructions)
    (hh : List.Forall₂ (fun a b => c.sameHandler a b = true) m₁.handlers m₂.handlers)
    (h₁ : ∀ l, ps₁.lookup l = c.left l) (h₂ : ∀ r, ps₂.lookup r = c.right r)
    (offsets wide : List Nat) :
    m₁.encodeBody ⟨offsets, ps₁⟩ wide = m₂.encodeBody ⟨offsets, ps₂⟩ wide := by
  have hlo := fun l r => labelOffset_eq_of_sameTarget h₁ h₂ offsets (l := l) (r := r)
  unfold MethodModel.encodeBody
  congr 1
  · -- the bytes: matched elements at one position, read at one offset
    refine mapM_eq_of_forall₂ ((forall₂_zipIdx hi 0).imp fun p q hpq => ?_)
    rw [hpq.2]
    exact instruction_congr hpq.1 hlo _ _
  · -- the handler table: one caught class and bounds placed alike
    funext bytes
    congr 1
    refine mapM_eq_of_forall₂ (hh.imp fun x y hxy => ?_)
    simp only [Correspondence.sameHandler, Bool.and_eq_true, beq_iff_eq] at hxy
    obtain ⟨⟨⟨hc, hs⟩, he⟩, hhd⟩ := hxy
    simp only [hlo _ _ hs, hlo _ _ he, hlo _ _ hhd, hc]

theorem forall₂_of_equivalentCode {insns₁ insns₂ : List (Instruction Label)}
    {hs₁ hs₂ : List (Handler Label)} (h : equivalentCode insns₁ insns₂ hs₁ hs₂ = true) :
    List.Forall₂ (fun a b => Correspondence.sameInstruction ⟨placeOf insns₁, placeOf insns₂⟩ a b = true)
        insns₁ insns₂ ∧
      List.Forall₂ (fun a b => Correspondence.sameHandler ⟨placeOf insns₁, placeOf insns₂⟩ a b = true)
        hs₁ hs₂ := by
  simp only [equivalentCode, Bool.and_eq_true, beq_iff_eq, List.all_eq_true] at h
  obtain ⟨⟨hlen, hhlen⟩, hi, hh⟩ := h
  exact ⟨List.forall₂_iff_zip.mpr ⟨hlen, fun hp => hi _ hp⟩,
    List.forall₂_iff_zip.mpr ⟨hhlen, fun hp => hh _ hp⟩⟩

-- The code and handler table of a body come from its label places, its settled layout and
-- the encoding of its elements, before any marker table touches the pool.
theorem code_eq_ok {m : MethodModel} {P P' : PoolBuilder} {a : CodeAttribute}
    (h : m.code P = .ok (a, P')) :
    ∃ ps offsets wide P₁ P₂, labelPositions m.instructions = .ok ps ∧
      settle m.instructions ps (m.instructions.any Instruction.isFrame) (m.instructions.length + 1) []
        P = .ok ((offsets, wide), P₁) ∧
      m.encodeBody ⟨offsets, ps⟩ wide P₁ = .ok ((a.code, a.handlers), P₂) := by
  unfold MethodModel.code at h
  obtain ⟨ps, P₀, hlift, h₁⟩ := Build.bind_eq_ok h
  obtain ⟨hp, rfl⟩ := Build.lift_eq_ok hlift
  obtain ⟨⟨offsets, wide⟩, P₁, hs, h₂⟩ := Build.bind_eq_ok h₁
  obtain ⟨⟨code, handlers⟩, P₂, he, h₃⟩ := Build.bind_eq_ok h₂
  -- the marker tables and their attributes only add to the pool
  obtain ⟨_, P₃, -, h₄⟩ := Build.bind_eq_ok h₃
  obtain ⟨_, P₄, -, h₅⟩ := Build.bind_eq_ok h₄
  cases h₅
  exact ⟨ps, offsets, wide, P₁, P₂, hp, hs, he⟩

end Body

-- From one pool, equivalent bodies are laid out as the same bytes with the same handler table:
-- what tells them apart, their labels and what their markers carry, reaches only the line and
-- frame tables.
theorem code_eq_of_equivalentCode {m₁ m₂ : MethodModel} {P P₁ P₂ : PoolBuilder}
    {a₁ a₂ : CodeAttribute}
    (h : equivalentCode m₁.instructions m₂.instructions m₁.handlers m₂.handlers = true)
    (h₁ : m₁.code P = .ok (a₁, P₁)) (h₂ : m₂.code P = .ok (a₂, P₂)) :
    a₁.code = a₂.code ∧ a₁.handlers = a₂.handlers := by
  obtain ⟨hi, hh⟩ := forall₂_of_equivalentCode h
  obtain ⟨ps₁, offsets₁, wide₁, Q₁, Q₁', hp₁, hs₁, he₁⟩ := code_eq_ok h₁
  obtain ⟨ps₂, offsets₂, wide₂, Q₂, Q₂', hp₂, hs₂, he₂⟩ := code_eq_ok h₂
  have hl₁ : ∀ l, ps₁.lookup l = placeOf m₁.instructions l := fun l => labelPositions_lookup hp₁
  have hl₂ : ∀ r, ps₂.lookup r = placeOf m₂.instructions r := fun r => labelPositions_lookup hp₂
  -- the two bodies settle on one layout with the same branches widened ...
  rw [settle_congr hi hl₁ hl₂, any_isFrame_congr hi, hi.length_eq, hs₂] at hs₁
  obtain ⟨⟨rfl, rfl⟩, rfl⟩ := Prod.mk.inj (Except.ok.inj hs₁)
  -- ... and encode to the same bytes and handler table in it
  rw [encodeBody_congr hi hh hl₁ hl₂, he₂] at he₁
  simp only [Except.ok.injEq, Prod.mk.injEq] at he₁
  obtain ⟨⟨hcode, hhandlers⟩, -⟩ := he₁
  exact ⟨hcode.symm, hhandlers.symm⟩

-- A loop covered by a handler, with its label numbers and its line number as parameters.
def coveredLoop (start stop : Label) (line : UInt16) : MethodModel :=
  { name := "run", descriptor := "()V", access := 1, signature := none, exceptions := [],
    annotationDefault := none, maxStack := 0, maxLocals := 1,
    instructions := [.label start, .lineNumber line start, .jump Opcode.goto start, .label stop],
    handlers := [{ start, «end» := stop, handler := start, catchType := some "java/lang/Error" }] }

-- The pool that laying out the covered loop leaves behind.
def coveredLoopPool : PoolBuilder :=
  { pool := { entries := [(1, .utf8 (.ofString "java/lang/Error")), (2, .classRef 1),
      (3, .utf8 (.ofString "LineNumberTable"))], next := 4 } }

-- The covered loop's code attribute, whose line table names the line.
def coveredLoopCode (line : UInt16) : CodeAttribute :=
  { maxStack := 0, maxLocals := 1, code := [167, 0, 0],
    handlers := [{ start := 0, «end» := 3, handler := 0, catchType := 2 }],
    attributes := [{ name := 3, info := [0, 1, 0, 0, 0, line.toUInt8] }] }

theorem code_eq_of_equivalentCode_coveredLoop :
    equivalentCode (coveredLoop ⟨0⟩ ⟨1⟩ 1).instructions (coveredLoop ⟨5⟩ ⟨2⟩ 9).instructions
        (coveredLoop ⟨0⟩ ⟨1⟩ 1).handlers (coveredLoop ⟨5⟩ ⟨2⟩ 9).handlers = true ∧
      (coveredLoop ⟨0⟩ ⟨1⟩ 1).code default = .ok (coveredLoopCode 1, coveredLoopPool) ∧
      (coveredLoop ⟨5⟩ ⟨2⟩ 9).code default = .ok (coveredLoopCode 9, coveredLoopPool) ∧
      (coveredLoopCode 1).code = (coveredLoopCode 9).code ∧
      (coveredLoopCode 1).handlers = (coveredLoopCode 9).handlers :=
  have h : equivalentCode (coveredLoop ⟨0⟩ ⟨1⟩ 1).instructions (coveredLoop ⟨5⟩ ⟨2⟩ 9).instructions
      (coveredLoop ⟨0⟩ ⟨1⟩ 1).handlers (coveredLoop ⟨5⟩ ⟨2⟩ 9).handlers = true := by decide
  have h₁ : (coveredLoop ⟨0⟩ ⟨1⟩ 1).code default = .ok (coveredLoopCode 1, coveredLoopPool) := rfl
  have h₂ : (coveredLoop ⟨5⟩ ⟨2⟩ 9).code default = .ok (coveredLoopCode 9, coveredLoopPool) := rfl
  ⟨h, h₁, h₂, code_eq_of_equivalentCode h h₁ h₂⟩

end ClassPatch
