import ClassPatch.Proofs.BodyViews

namespace ClassPatch

section Indexed

variable {L : Type}

def indexedFrom (k : Nat) : List (Instruction L) → List (Nat × Instruction L)
  | [] => []
  | i :: rest => (k, i) :: indexedFrom (if i.isMarker then k else k + 1) rest

variable {xs ys : List (Instruction L)} {k : Nat}

theorem indexedFrom_append :
    indexedFrom k (xs ++ ys) = indexedFrom k xs ++ indexedFrom (k + xs.countP (!·.isMarker)) ys := by
  induction xs generalizing k with
  | nil => rfl
  | cons i xs ih =>
    have hk : (if i.isMarker then k else k + 1) + xs.countP (!·.isMarker) =
        k + (i :: xs).countP (!·.isMarker) := by
      rw [List.countP_cons]
      cases i.isMarker <;> simp
      omega
    rw [List.cons_append, indexedFrom, indexedFrom, ih, hk, List.cons_append]

theorem indexedFrom_markers (hxs : ∀ i ∈ xs, i.isMarker = true) :
    indexedFrom k xs = xs.map ((k, ·)) := by
  induction xs with
  | nil => rfl
  | cons i xs ih =>
    simp only [indexedFrom, hxs i List.mem_cons_self, if_true, List.map_cons,
      ih fun i' hi' => hxs i' (List.mem_cons_of_mem i hi')]

theorem zipIdx_realsBefore (xs : List (Instruction L)) :
    xs.zipIdx.map (fun q => (realsBefore xs q.2, q.1)) = indexedFrom 0 xs := by
  induction xs using List.reverseRecOn with
  | nil => rfl
  | append_singleton xs i ih =>
    have hearlier : xs.zipIdx.map (fun q => (realsBefore (xs ++ [i]) q.2, q.1)) =
        xs.zipIdx.map (fun q => (realsBefore xs q.2, q.1)) := by
      refine List.map_congr_left fun q hq => ?_
      have hlt : q.2 < xs.length :=
        (List.getElem?_eq_some_iff.mp (List.mem_zipIdx_iff_getElem?.mp hq)).1
      rw [realsBefore_append_of_le hlt.le]
    rw [List.zipIdx_append, List.map_append, hearlier, ih, indexedFrom_append]
    simp only [List.zipIdx_cons, List.zipIdx_nil, List.map_cons, List.map_nil, Nat.zero_add]
    rw [realsBefore_append_of_le le_rfl, realsBefore_length]
    rfl

theorem frameView_eq (insns : List (Instruction Label)) :
    frameView insns = (indexedFrom 0 insns).filterMap fun q =>
      q.2.frame?.map fun f => (q.1, f.map id (denotes insns)) := by
  rw [← zipIdx_realsBefore, List.filterMap_map]
  rfl

theorem linesAtStart_iff {insns : List (Instruction Label)} :
    LinesAtStart insns ↔ ∀ q ∈ indexedFrom 0 insns, ∀ p ∈ q.2.line?, q.1 = denotes insns p.2 := by
  rw [← zipIdx_realsBefore]
  constructor
  · intro h q hq p hp
    obtain ⟨q', hq', rfl⟩ := List.mem_map.mp hq
    exact h q' hq' p hp
  · intro h q hq p hp
    exact h _ (List.mem_map_of_mem hq) p hp

end Indexed

namespace Instruction

variable {L : Type} {i : Instruction L}

theorem frame?_eq_none (h : i.isMarker = false) : i.frame? = none := by
  cases i <;> simp_all [frame?, isMarker, opcode?]

theorem line?_eq_none (h : i.isMarker = false) : i.line? = none := by
  cases i <;> simp_all [line?, isMarker, opcode?]

end Instruction

namespace OffsetBlock

def markers (b : OffsetBlock) : List (Instruction Label) :=
  (if b.placed then [.label b.label] else []) ++ b.lines.map (fun line => .lineNumber line b.label) ++
    (b.frame.map .frame).toList

variable {b : OffsetBlock} {l : Label}

theorem elements_eq (b : OffsetBlock) : b.elements = b.markers ++ b.instruction.toList := rfl

theorem isMarker_of_mem_markers : ∀ i ∈ b.markers, i.isMarker = true := by
  intro i hi
  simp only [markers, List.mem_append, List.mem_ite_nil_right, List.mem_singleton, List.mem_map,
    Option.mem_toList, Option.map_eq_some_iff] at hi
  rcases hi with (⟨-, rfl⟩ | ⟨line, -, rfl⟩) | ⟨f, -, rfl⟩ <;> rfl

theorem countP_elements (hb : ∀ i ∈ b.instruction, i.isMarker = false) :
    b.elements.countP (!·.isMarker) = b.instruction.toList.length := by
  rw [elements_eq, List.countP_append,
    List.countP_eq_zero.mpr fun i hi => by simp [isMarker_of_mem_markers i hi], Nat.zero_add,
    List.countP_eq_length]
  intro i hi
  simp [hb i (Option.mem_toList.mp hi)]

theorem indexedFrom_elements (k : Nat) : indexedFrom k b.elements = b.elements.map ((k, ·)) := by
  rw [elements_eq, indexedFrom_append, indexedFrom_markers isMarker_of_mem_markers,
    List.countP_eq_zero.mpr fun i hi => by simp [isMarker_of_mem_markers i hi], Nat.add_zero,
    List.map_append]
  cases b.instruction <;> rfl

theorem filter_elements (hb : ∀ i ∈ b.instruction, i.isMarker = false) :
    b.elements.filter (!·.isMarker) = b.instruction.toList := by
  rw [elements_eq, List.filter_append,
    List.filter_eq_nil_iff.mpr fun i hi => by simp [isMarker_of_mem_markers i hi], List.nil_append,
    List.filter_eq_self]
  intro i hi
  simp [hb i (Option.mem_toList.mp hi)]

theorem label_mem_elements (hb : ∀ i ∈ b.instruction, i.isMarker = false) :
    .label l ∈ b.elements ↔ b.placed = true ∧ b.label = l := by
  have hown : .label l ∉ b.instruction.toList := fun hmem => by
    simpa [Instruction.isMarker, Instruction.opcode?] using hb _ (Option.mem_toList.mp hmem)
  rw [elements_eq, List.mem_append, or_iff_left hown]
  cases hp : b.placed <;> cases b.frame <;> simp [markers, hp, eq_comm]

theorem placeOf_elements (hb : ∀ i ∈ b.instruction, i.isMarker = false) (hplaced : b.placed = true) :
    placeOf b.elements b.label = some 0 := by
  have hsplit : b.elements = [.label b.label] ++ (b.lines.map (fun line => .lineNumber line b.label) ++
      (b.frame.map .frame).toList ++ b.instruction.toList) := by
    simp [elements, hplaced]
  -- no other label marker stands in the block
  have hrest : placeOf (b.lines.map (fun line => .lineNumber line b.label) ++
      (b.frame.map .frame).toList ++ b.instruction.toList) b.label = none := by
    rw [← Option.not_isSome_iff_eq_none, placeOf_isSome]
    intro hmem
    simp only [List.mem_append, List.mem_map, Option.mem_toList, Option.map_eq_some_iff] at hmem
    rcases hmem with (⟨line, -, hline⟩ | ⟨f, -, hf⟩) | hown
    · cases hline
    · cases hf
    · simpa [Instruction.isMarker, Instruction.opcode?] using hb _ hown
  rw [hsplit, placeOf_append, hrest]
  simp [placeOf]

theorem filterMap_frame_elements {β : Type} (hb : ∀ i ∈ b.instruction, i.isMarker = false)
    (F : Frame String Label → β) :
    b.elements.filterMap (fun i => i.frame?.map F) = (b.frame.map F).toList := by
  have hinsn : b.instruction.toList.filterMap (fun i => i.frame?.map F) = [] := by
    cases h : b.instruction with
    | none => rfl
    | some i => simp [Instruction.frame?_eq_none (hb i h)]
  rw [elements_eq, List.filterMap_append, hinsn, List.append_nil]
  cases hp : b.placed <;> cases hf : b.frame <;>
    simp [markers, hp, hf, List.filterMap_append, Instruction.frame?]

theorem filterMap_line_elements {β : Type} (hb : ∀ i ∈ b.instruction, i.isMarker = false)
    (F : UInt16 × Label → β) :
    b.elements.filterMap (fun i => i.line?.map F) = b.lines.map fun line => F (line, b.label) := by
  have hinsn : b.instruction.toList.filterMap (fun i => i.line?.map F) = [] := by
    cases h : b.instruction with
    | none => rfl
    | some i => simp [Instruction.line?_eq_none (hb i h)]
  rw [elements_eq, List.filterMap_append, hinsn, List.append_nil]
  cases hp : b.placed <;> cases hf : b.frame <;>
    simp [markers, hp, hf, List.filterMap_append, List.filterMap_map, Instruction.line?]

theorem line_of_mem_elements (hb : ∀ i ∈ b.instruction, i.isMarker = false) {e : Instruction Label}
    {p : UInt16 × Label} (he : e ∈ b.elements) (hp : p ∈ e.line?) : p.1 ∈ b.lines ∧ p.2 = b.label := by
  rw [elements_eq, List.mem_append] at he
  rcases he with he | he
  · simp only [markers, List.mem_append, List.mem_ite_nil_right, List.mem_singleton, List.mem_map,
      Option.mem_toList, Option.map_eq_some_iff] at he
    rcases he with (⟨-, rfl⟩ | ⟨line, hline, rfl⟩) | ⟨f, -, rfl⟩
    · simp [Instruction.line?] at hp
    · simp only [Instruction.line?, Option.mem_def, Option.some.injEq] at hp
      subst hp
      exact ⟨hline, rfl⟩
    · simp [Instruction.line?] at hp
  · rw [Instruction.line?_eq_none (hb e (Option.mem_toList.mp he))] at hp
    cases hp

end OffsetBlock

namespace OffsetBlock

/-- Blocks laid one per offset of a code array: each holds no marker in place of an instruction,
every block but the last holds an instruction, and blocks whose label markers are placed carry
distinct labels. -/
structure Sequence (blocks : List OffsetBlock) : Prop where
  notMarker : ∀ b ∈ blocks, ∀ i ∈ b.instruction, i.isMarker = false
  instruction : ∀ j (hj : j + 1 < blocks.length), blocks[j].instruction.isSome = true
  distinct : ∀ i j (hi : i < blocks.length) (hj : j < blocks.length), blocks[i].placed = true →
    blocks[j].placed = true → blocks[i].label = blocks[j].label → i = j

namespace Sequence

variable {blocks : List OffsetBlock} (hs : Sequence blocks)
include hs

theorem tail {b : OffsetBlock} {bs : List OffsetBlock} (h : blocks = b :: bs) : Sequence bs := by
  subst h
  refine ⟨fun b' hb' => hs.notMarker b' (List.mem_cons_of_mem b hb'), fun j hj => ?_,
    fun i j hi hj hpi hpj hl => ?_⟩
  · simpa using hs.instruction (j + 1) (by simp; omega)
  · have := hs.distinct (i + 1) (j + 1) (by simp; omega) (by simp; omega) (by simpa using hpi)
      (by simpa using hpj) (by simpa using hl)
    omega

theorem indexedFrom_flatten (k : Nat) :
    indexedFrom k (blocks.map OffsetBlock.elements).flatten =
      (blocks.zipIdx k).flatMap fun q => q.1.elements.map ((q.2, ·)) := by
  induction blocks generalizing k with
  | nil => rfl
  | cons b bs ih =>
    have hbs := hs.tail rfl
    rw [List.map_cons, List.flatten_cons, indexedFrom_append, OffsetBlock.indexedFrom_elements,
      List.zipIdx_cons, List.flatMap_cons, ih hbs]
    cases bs with
    | nil => simp
    | cons b' bs' =>
      -- a block with one after it holds its instruction
      have hsome := hs.instruction 0 (by simp)
      simp only [List.getElem_cons_zero] at hsome
      rw [OffsetBlock.countP_elements (hs.notMarker b List.mem_cons_self)]
      obtain ⟨i, hi⟩ := Option.isSome_iff_exists.mp hsome
      simp [hi]

theorem countP_take_flatten {j : Nat} (hj : j < blocks.length) :
    ((blocks.take j).map OffsetBlock.elements).flatten.countP (!·.isMarker) = j := by
  rw [List.countP_flatten, List.map_map]
  have hones : ((blocks.take j).map ((List.countP (!·.isMarker)) ∘ OffsetBlock.elements)) =
      List.replicate j 1 := by
    refine List.eq_replicate_iff.mpr ⟨by simp; omega, fun n hn => ?_⟩
    obtain ⟨i, hi, rfl⟩ := List.getElem_of_mem hn
    simp only [List.length_map, List.length_take] at hi
    simp only [List.getElem_map, List.getElem_take, Function.comp_apply]
    rw [OffsetBlock.countP_elements (hs.notMarker _ (List.getElem_mem _))]
    obtain ⟨insn, hinsn⟩ := Option.isSome_iff_exists.mp (hs.instruction i (by omega))
    simp [hinsn]
  rw [hones, List.sum_replicate, smul_eq_mul, mul_one]

theorem denotes_label {j : Nat} (hj : j < blocks.length) (hplaced : blocks[j].placed = true) :
    denotes (blocks.map OffsetBlock.elements).flatten blocks[j].label = j := by
  set X := ((blocks.take j).map OffsetBlock.elements).flatten
  set Y := ((blocks.drop (j + 1)).map OffsetBlock.elements).flatten
  have hsplit : (blocks.map OffsetBlock.elements).flatten = X ++ blocks[j].elements ++ Y := by
    have h := congrArg (fun bs => (bs.map OffsetBlock.elements).flatten) (List.take_append_drop j blocks)
    rw [List.drop_eq_getElem_cons hj] at h
    simp only [List.map_append, List.map_cons, List.flatten_append, List.flatten_cons] at h
    rw [← h, List.append_assoc]
  -- no block after `j` places the label again
  have hY : placeOf Y blocks[j].label = none := by
    rw [← Option.not_isSome_iff_eq_none, placeOf_isSome]
    intro hmem
    obtain ⟨E, hE, hmemE⟩ := List.mem_flatten.mp hmem
    obtain ⟨b, hb, rfl⟩ := List.mem_map.mp hE
    obtain ⟨i, hi, rfl⟩ := List.getElem_of_mem hb
    rw [List.getElem_drop] at hmemE
    have hib : j + 1 + i < blocks.length := by simp at hi; omega
    obtain ⟨hpi, hli⟩ := (OffsetBlock.label_mem_elements
      (hs.notMarker _ (List.getElem_mem hib))).mp hmemE
    have := hs.distinct _ _ hib hj hpi hplaced hli
    omega
  have hplace : placeOf (blocks.map OffsetBlock.elements).flatten blocks[j].label = some X.length := by
    rw [hsplit, placeOf_append, hY, placeOf_append,
      OffsetBlock.placeOf_elements (hs.notMarker _ (List.getElem_mem hj)) hplaced]
    simp
  rw [denotes, hplace, Option.getD_some, hsplit, List.append_assoc, realsBefore_append_of_le le_rfl,
    realsBefore_length, hs.countP_take_flatten hj]

theorem filter_flatten :
    (blocks.map OffsetBlock.elements).flatten.filter (!·.isMarker) =
      blocks.flatMap fun b => b.instruction.toList := by
  rw [List.filter_flatten, List.map_map, List.flatMap_def]
  congr 1
  exact List.map_congr_left fun b hb => OffsetBlock.filter_elements (hs.notMarker b hb)

theorem frameView_flatten :
    frameView (blocks.map OffsetBlock.elements).flatten = blocks.zipIdx.filterMap fun q =>
      q.1.frame.map fun f => (q.2, f.map id (denotes (blocks.map OffsetBlock.elements).flatten)) := by
  rw [frameView_eq, hs.indexedFrom_flatten, List.filterMap_flatMap, List.filterMap_eq_flatMap_toList]
  refine List.flatMap_congr fun q hq => ?_
  rw [List.filterMap_map]
  exact OffsetBlock.filterMap_frame_elements (hs.notMarker q.1 (List.fst_mem_of_mem_zipIdx hq))
    fun f => (q.2, f.map id (denotes (blocks.map OffsetBlock.elements).flatten))

theorem lineView_flatten :
    lineView (blocks.map OffsetBlock.elements).flatten = blocks.flatMap fun b =>
      b.lines.map fun line => (line, denotes (blocks.map OffsetBlock.elements).flatten b.label) := by
  rw [lineView, List.filterMap_flatten, List.map_map, ← List.flatMap_def]
  exact List.flatMap_congr fun b hb => OffsetBlock.filterMap_line_elements (hs.notMarker b hb) _

theorem linesAtStart (hlines : ∀ b ∈ blocks, b.lines ≠ [] → b.placed = true) :
    LinesAtStart (blocks.map OffsetBlock.elements).flatten := by
  rw [linesAtStart_iff, hs.indexedFrom_flatten]
  intro q hq p hp
  obtain ⟨⟨b, j⟩, hbj, hq⟩ := List.mem_flatMap.mp hq
  obtain ⟨e, he, rfl⟩ := List.mem_map.mp hq
  obtain ⟨hj, hb⟩ := List.getElem?_eq_some_iff.mp (List.mem_zipIdx_iff_getElem?.mp hbj)
  dsimp only at hj hb he hp ⊢
  subst hb
  obtain ⟨hline, hstart⟩ :=
    OffsetBlock.line_of_mem_elements (hs.notMarker _ (List.getElem_mem hj)) he hp
  rw [hstart, hs.denotes_label hj (hlines _ (List.getElem_mem hj) (List.ne_nil_of_mem hline))]

end Sequence

end OffsetBlock

namespace CodeAttribute

variable {c : CodeAttribute} {r : Resolver} {tables : SideTables}
  {decoded : List (Nat × Instruction Int)}

theorem getElem?_steps_fst {j : Nat} {s : Nat × Option (Instruction Int)}
    (h : (c.steps decoded)[j]? = some s) : (c.boundaries decoded)[j]? = some s.1 := by
  rw [← steps_map_fst, List.getElem?_map, h]
  rfl

theorem getElem?_steps_snd {j : Nat} {s : Nat × Option (Instruction Int)}
    (h : (c.steps decoded)[j]? = some s) : s.2 = decoded[j]?.map (·.2) := by
  unfold steps at h
  by_cases hj : j < decoded.length
  · rw [List.getElem?_append_left (by simpa using hj), List.getElem?_map,
      List.getElem?_eq_getElem hj] at h
    cases h
    simp [List.getElem?_eq_getElem hj]
  · rw [List.getElem?_append_right (by simpa using hj)] at h
    rw [List.getElem?_eq_none (by omega)]
    obtain ⟨-, rfl⟩ := List.getElem?_eq_some_iff.mp h
    simp

theorem map_boundaries {γ : Type} (F : Nat → γ) :
    (c.boundaries decoded).map F = (c.steps decoded).map (F ∘ Prod.fst) := by
  rw [← steps_map_fst, List.map_map]

theorem blockAt_frame {o : Nat} {insn : Option (Instruction Int)} {b : OffsetBlock}
    (h : c.blockAt tables decoded r o insn = .ok b) :
    (tables.frameAt? o).mapM (fun f => f.mapM r.pool.className fun site =>
      pure (c.labelAt tables decoded site.toNat)) = .ok b.frame := by
  obtain ⟨frame, hframe, h⟩ := Except.bind_eq_ok_iff.mp h
  cases h
  exact hframe

namespace Decoding

variable {blocks : List OffsetBlock} {handlers : List (Handler Label)}
  (D : c.Decoding r tables decoded blocks handlers)
include D

theorem length_blocks : blocks.length = (c.boundaries decoded).length := by
  rw [← D.laid.length_eq, ← steps_map_fst, List.length_map]

theorem boundaries_nodup : (c.boundaries decoded).Nodup :=
  D.boundaries_pairwise.imp Nat.ne_of_lt

theorem block_eq {j : Nat} {b : OffsetBlock} (hb : blocks[j]? = some b) :
    ∃ s, (c.steps decoded)[j]? = some s ∧ c.blockAt tables decoded r s.1 s.2 = .ok b := by
  obtain ⟨hlen, hall⟩ := List.forall₂_iff_get.mp D.laid
  obtain ⟨hj, rfl⟩ := List.getElem?_eq_some_iff.mp hb
  exact ⟨_, List.getElem?_eq_getElem (hlen ▸ hj), hall j (hlen ▸ hj) hj⟩

theorem sequence : OffsetBlock.Sequence blocks where
  notMarker := D.block_not_marker
  instruction j hj := by
    obtain ⟨s, hs, hb⟩ := D.block_eq (List.getElem?_eq_getElem (Nat.lt_of_succ_lt hj))
    obtain ⟨-, -, -, -, hins⟩ := blockAt_eq_ok hb
    have hlt : j < decoded.length := by
      rw [D.length_blocks, boundaries, List.length_append, List.length_map] at hj
      simpa using hj
    rw [hins, getElem?_steps_snd hs, List.getElem?_eq_getElem hlt]
    rfl
  distinct i j hi hj hpi hpj hl := by
    obtain ⟨s, hs, hbs⟩ := D.block_eq (List.getElem?_eq_getElem hi)
    obtain ⟨t, ht, hbt⟩ := D.block_eq (List.getElem?_eq_getElem hj)
    obtain ⟨hls, hps, -⟩ := blockAt_eq_ok hbs
    obtain ⟨hlt, hpt, -⟩ := blockAt_eq_ok hbt
    have hms : s.1 ∈ c.labelled tables decoded := by
      simpa [hps] using hpi
    have hmt : t.1 ∈ c.labelled tables decoded := by
      simpa [hpt] using hpj
    -- labels are ranks among the labelled offsets, so equal labels stand at one offset
    have hst : s.1 = t.1 :=
      (List.idxOf_inj hms).mp (congrArg Label.id (hls.symm.trans (hl.trans hlt)))
    obtain ⟨hi', hsi⟩ := List.getElem?_eq_some_iff.mp (getElem?_steps_fst hs)
    obtain ⟨hj', htj⟩ := List.getElem?_eq_some_iff.mp (getElem?_steps_fst ht)
    exact D.boundaries_nodup.getElem_inj_iff.mp (hsi.trans (hst.trans htj.symm))

theorem denotes_labelAt {o : Nat} (ho : o ∈ c.labelled tables decoded) :
    denotes (blocks.map OffsetBlock.elements).flatten (c.labelAt tables decoded o) =
      (c.boundaries decoded).idxOf o := by
  have hmem := D.mem_boundaries_of_labelled ho
  have hlt := List.idxOf_lt_length_of_mem hmem
  obtain ⟨s, hs, hb⟩ := D.block_eq (List.getElem?_eq_getElem (D.length_blocks ▸ hlt))
  have hso : s.1 = o := by
    have h := getElem?_steps_fst hs
    rw [List.getElem?_eq_getElem hlt, List.getElem_idxOf] at h
    exact (Option.some.inj h).symm
  obtain ⟨hlabel, hplaced, -⟩ := blockAt_eq_ok hb
  rw [hso] at hlabel hplaced
  rw [← hlabel]
  exact D.sequence.denotes_label _ (by simpa [hplaced] using ho)

theorem flatMap_instruction : blocks.flatMap (fun b => b.instruction.toList) =
    decoded.map fun p => p.2.mapLabels fun t => c.labelAt tables decoded t.toNat := by
  rw [List.flatMap_def, map_eq_map_of_forall₂ (G := fun s => (s.2.map fun i =>
    i.mapLabels fun t => c.labelAt tables decoded t.toNat).toList) D.laid
    fun s _ b _ hsb => by rw [(blockAt_eq_ok hsb).2.2.2.2]]
  simp only [steps, List.map_append, List.map_map, List.map_cons, List.map_nil, List.flatten_append,
    Function.comp_def, Option.map_some, Option.map_none, Option.toList_some, Option.toList_none,
    List.flatten_cons, List.flatten_nil, List.append_nil]
  rw [← List.flatMap_def, ← List.map_eq_flatMap]

theorem instructionView_eq : instructionView (blocks.map OffsetBlock.elements).flatten =
    decoded.map fun p => p.2.mapLabels fun t => (c.boundaries decoded).idxOf t.toNat := by
  rw [instructionView, D.sequence.filter_flatten, D.flatMap_instruction, List.map_map]
  refine List.map_congr_left fun p hp => ?_
  have hreal : p.2.isMarker = false := by
    simpa using Resolver.instructionsFrom_not_marker D.read p hp
  rw [Function.comp_apply, Instruction.mapLabels_mapLabels]
  refine Instruction.mapLabels_congr (fun l hl => ?_) fun t ht => ?_
  · rw [Instruction.label?_of_not_marker hreal] at hl
    cases hl
  · -- every target is referred to, so labelled
    rw [Instruction.references_of_not_marker hreal] at ht
    have hlabelled : t.toNat ∈ c.labelled tables decoded :=
      mem_labelled.mpr ⟨t, mem_referredOffsets.mpr (.inl ⟨p, hp, ht⟩), rfl⟩
    exact D.denotes_labelAt hlabelled

theorem lineView_eq : lineView (blocks.map OffsetBlock.elements).flatten =
    (c.boundaries decoded).flatMap fun o =>
      (tables.linesAt o).map fun line => (line, (c.boundaries decoded).idxOf o) := by
  rw [D.sequence.lineView_flatten, List.flatMap_def, List.flatMap_def, map_boundaries]
  congr 1
  refine map_eq_map_of_forall₂ D.laid fun s _ b _ hsb => ?_
  obtain ⟨hlabel, -, hlines, -⟩ := blockAt_eq_ok hsb
  rw [Function.comp_apply, hlines, hlabel]
  by_cases hnil : tables.linesAt s.1 = []
  · rw [hnil]
    rfl
  · -- an offset with lines is labelled
    rw [D.denotes_labelAt (mem_labelled_of_linesAt hnil)]

theorem linesAtStart : LinesAtStart (blocks.map OffsetBlock.elements).flatten :=
  D.sequence.linesAtStart fun b hb hne => by
    obtain ⟨s, -, hsb⟩ := exists_of_forall₂_right D.laid b hb
    obtain ⟨-, hplaced, hlines, -⟩ := blockAt_eq_ok hsb
    rw [hlines] at hne
    simpa [hplaced] using mem_labelled_of_linesAt hne

theorem handler_mapLabels {h : RawHandler} {h' : Handler Label} (hmem : h ∈ c.handlers)
    (hh : c.handlerAt tables decoded r h = .ok h') :
    h'.mapLabels (denotes (blocks.map OffsetBlock.elements).flatten) =
      ⟨(c.boundaries decoded).idxOf h.start.toNat, (c.boundaries decoded).idxOf h.«end».toNat,
        (c.boundaries decoded).idxOf h.handler.toNat, h'.catchType⟩ ∧
      r.pool.optionalClassName h.catchType = .ok h'.catchType := by
  obtain ⟨catchType, hcatch, hh⟩ := Except.bind_eq_ok_iff.mp hh
  cases hh
  -- the bounds and the entry of a handler are referred to, so labelled
  have hlabelled : ∀ x ∈ [h.start, h.«end», h.handler], x.toNat ∈ c.labelled tables decoded :=
    fun x hx => mem_labelled.mpr ⟨_, mem_referredOffsets.mpr (.inr (.inl ⟨h, hmem, x, hx, rfl⟩)), rfl⟩
  refine ⟨?_, hcatch⟩
  simp only [Handler.mapLabels]
  rw [D.denotes_labelAt (hlabelled _ (by simp)), D.denotes_labelAt (hlabelled _ (by simp)),
    D.denotes_labelAt (hlabelled _ (by simp))]

section Frames

variable {K : Frame UInt16 UInt16 → Frame String UInt16}
  (hK : ∀ o f, tables.frameAt? o = some f → f.mapM r.pool.className pure = .ok (K f))
include hK

theorem block_frame {o : Nat} {insn : Option (Instruction Int)} {b : OffsetBlock}
    (h : c.blockAt tables decoded r o insn = .ok b) :
    b.frame.map (fun f => f.map id (denotes (blocks.map OffsetBlock.elements).flatten)) =
      (tables.frameAt? o).map fun f => (K f).map id fun s => (c.boundaries decoded).idxOf s.toNat := by
  have hframe := blockAt_frame h
  cases hf : tables.frameAt? o with
  | none =>
    rw [hf] at hframe
    have hb : b.frame = none := (Except.ok.inj hframe).symm
    rw [hb]
    rfl
  | some f =>
    rw [hf, Option.mapM_some, Frame.mapM_pure, hK o f hf] at hframe
    have hb : b.frame = some ((K f).map id fun site => c.labelAt tables decoded site.toNat) :=
      (Except.ok.inj hframe).symm
    rw [hb, Option.map_some, Option.map_some, Frame.map_map]
    congr 1
    refine Frame.map_congr fun u hu => ?_
    -- the sites of a frame in the table are referred to, so labelled
    rw [Frame.sites_of_mapM (k := id) (hK o f hf), List.map_id] at hu
    have hlabelled : u.toNat ∈ c.labelled tables decoded :=
      mem_labelled.mpr ⟨_, mem_referredOffsets.mpr (.inr (.inr (.inr
        ⟨o, SideTables.mem_frameKeys_of_frameAt? hf, f, hf, u, hu, rfl⟩))), rfl⟩
    exact D.denotes_labelAt hlabelled

theorem frameView_eq : frameView (blocks.map OffsetBlock.elements).flatten =
    (c.boundaries decoded).zipIdx.filterMap fun q => (tables.frameAt? q.1).map fun f =>
      (q.2, (K f).map id fun s => (c.boundaries decoded).idxOf s.toNat) := by
  have hframes : blocks.map (fun b => b.frame.map fun f =>
      f.map id (denotes (blocks.map OffsetBlock.elements).flatten)) =
      (c.boundaries decoded).map fun o => (tables.frameAt? o).map fun f =>
        (K f).map id fun s => (c.boundaries decoded).idxOf s.toNat := by
    rw [map_boundaries]
    exact map_eq_map_of_forall₂ D.laid fun s _ b _ hsb => D.block_frame hK hsb
  have hzip := congrArg (fun l => l.zipIdx.filterMap fun q => q.1.map ((q.2, ·))) hframes
  simp only [List.zipIdx_map, List.filterMap_map, Function.comp_def, Prod.map, id,
    Option.map_map] at hzip
  rw [D.sequence.frameView_flatten]
  exact hzip

end Frames

end Decoding

end CodeAttribute

end ClassPatch
