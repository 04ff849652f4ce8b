import Mathlib.Data.List.Sort
import ClassPatch.Proofs.InstructionStream
import ClassPatch.Proofs.EquivalenceLaws

/-!
Decoded bodies are closed and labelled canonically. Decoding reads the instructions in offset
order, each from at least one byte; it gives a label to each offset something refers to, numbered
by rank among those offsets, and lays out at each offset its label, its lines and its frame before
its instruction. So every label a decoded body refers to is placed exactly once, every placed
label is referred to, and the labels stand in the body as `0, 1, 2, …`.
-/

namespace ClassPatch

section Lists

variable {α β γ : Type} {R : α → β → Prop} {as : List α} {bs : List β}

theorem exists_of_forall₂_left (h : List.Forall₂ R as bs) : ∀ a ∈ as, ∃ b ∈ bs, R a b := by
  induction h with
  | nil => simp
  | cons hab _ ih =>
    intro a ha
    rcases List.mem_cons.mp ha with rfl | ha
    · exact ⟨_, List.mem_cons_self, hab⟩
    · obtain ⟨b, hb, hr⟩ := ih a ha
      exact ⟨b, List.mem_cons_of_mem _ hb, hr⟩

theorem exists_of_forall₂_right (h : List.Forall₂ R as bs) : ∀ b ∈ bs, ∃ a ∈ as, R a b := by
  induction h with
  | nil => simp
  | cons hab _ ih =>
    intro b hb
    rcases List.mem_cons.mp hb with rfl | hb
    · exact ⟨_, List.mem_cons_self, hab⟩
    · obtain ⟨a, ha, hr⟩ := ih b hb
      exact ⟨a, List.mem_cons_of_mem _ ha, hr⟩

theorem map_eq_map_of_forall₂ {F : β → γ} {G : α → γ} (h : List.Forall₂ R as bs)
    (hFG : ∀ a ∈ as, ∀ b ∈ bs, R a b → F b = G a) : bs.map F = as.map G := by
  induction h with
  | nil => rfl
  | cons hab _ ih =>
    rw [List.map_cons, List.map_cons, hFG _ List.mem_cons_self _ List.mem_cons_self hab,
      ih fun a ha b hb => hFG a (List.mem_cons_of_mem _ ha) b (List.mem_cons_of_mem _ hb)]

theorem flatMap_singleton_if (p : α → Bool) (f : α → β) (l : List α) :
    l.flatMap (fun a => if p a then [f a] else []) = (l.filter p).map f := by
  induction l with
  | nil => rfl
  | cons a l ih => cases hp : p a <;> simp [hp, ih]

theorem mapM_map_eq_ok {ε : Type} {f : β → γ} {g : α → Except ε β} {zs : List γ} :
    as.mapM (fun a => f <$> g a) = .ok zs → ∃ ys, as.mapM g = .ok ys ∧ zs = ys.map f := by
  induction as generalizing zs with
  | nil =>
    intro h
    cases h
    exact ⟨[], rfl, rfl⟩
  | cons a as ih =>
    intro h
    rw [List.mapM_cons] at h
    obtain ⟨z, hz, h⟩ := Except.bind_eq_ok_iff.mp h
    obtain ⟨zs', hzs, h⟩ := Except.bind_eq_ok_iff.mp h
    cases h
    obtain ⟨y, hy, rfl⟩ := Except.map_eq_ok_iff.mp hz
    obtain ⟨ys, hys, rfl⟩ := ih hzs
    exact ⟨y :: ys, by simp [hy, hys], rfl⟩

end Lists

theorem checkOffsets_eq_ok {boundaries : List Nat} :
    ∀ {ts : List Int}, checkOffsets boundaries ts = .ok () ↔ ∀ t ∈ ts, 0 ≤ t ∧ t.toNat ∈ boundaries
  | [] => by simp [checkOffsets]
  | t :: ts => by
    unfold checkOffsets
    by_cases ht : (0 ≤ t && boundaries.contains t.toNat) = true
    · simp only [ht, ↓reduceIte, checkOffsets_eq_ok, List.mem_cons, forall_eq_or_imp]
      simp only [Bool.and_eq_true, decide_eq_true_eq, List.contains_iff_mem] at ht
      exact ⟨fun h => ⟨ht, h⟩, fun h => h.2⟩
    · simp only [ht, Bool.false_eq_true, ↓reduceIte, List.mem_cons, forall_eq_or_imp,
        reduceCtorEq, false_iff, not_and]
      simp only [Bool.and_eq_true, decide_eq_true_eq, List.contains_iff_mem, not_and] at ht
      exact fun h => absurd h.2 (ht h.1)

theorem mem_insertSorted {n m : Nat} : ∀ {ns : List Nat}, m ∈ insertSorted n ns ↔ m = n ∨ m ∈ ns
  | [] => by simp [insertSorted]
  | k :: ns => by
    unfold insertSorted
    split_ifs with hlt heq
    · simp
    · subst heq
      simp
    · simp only [List.mem_cons, mem_insertSorted]
      tauto

theorem pairwise_insertSorted {n : Nat} :
    ∀ {ns : List Nat}, ns.Pairwise (· < ·) → (insertSorted n ns).Pairwise (· < ·)
  | [], _ => by simp [insertSorted]
  | k :: ns, h => by
    obtain ⟨hk, hns⟩ := List.pairwise_cons.mp h
    unfold insertSorted
    split_ifs with hlt heq
    · refine List.pairwise_cons.mpr ⟨fun m hm => ?_, h⟩
      rcases List.mem_cons.mp hm with rfl | hm
      · exact hlt
      · exact Nat.lt_trans hlt (hk m hm)
    · exact h
    · refine List.pairwise_cons.mpr ⟨fun m hm => ?_, pairwise_insertSorted hns⟩
      rcases mem_insertSorted.mp hm with rfl | hm
      · omega
      · exact hk m hm

theorem mem_sortedDistinct {m : Nat} {ns : List Nat} : m ∈ sortedDistinct ns ↔ m ∈ ns := by
  induction ns with
  | nil => simp [sortedDistinct]
  | cons n ns ih =>
    simp only [sortedDistinct, List.foldr_cons] at ih ⊢
    rw [mem_insertSorted, ih, List.mem_cons]

theorem pairwise_sortedDistinct (ns : List Nat) : (sortedDistinct ns).Pairwise (· < ·) := by
  induction ns with
  | nil => simp [sortedDistinct]
  | cons n ns ih =>
    simp only [sortedDistinct, List.foldr_cons] at ih ⊢
    exact pairwise_insertSorted ih


namespace VerificationType

variable {C C' U U' : Type} {g : C → Except FormatError C'} {k : U → U'}

theorem sites_of_mapM {t : VerificationType C U} {t' : VerificationType C' U'}
    (h : t.mapM g (fun u => pure (k u)) = .ok t') : t'.sites = t.sites.map k := by
  cases t <;> simp only [mapM] at h
  case object cls =>
    obtain ⟨c', -, h⟩ := Except.bind_eq_ok_iff.mp h
    cases h
    rfl
  all_goals
    cases h
    rfl

theorem flatMap_sites_of_mapM {ts : List (VerificationType C U)} {ts' : List (VerificationType C' U')}
    (h : ts.mapM (mapM g fun u => pure (k u)) = .ok ts') :
    ts'.flatMap sites = (ts.flatMap sites).map k := by
  have hts := forall₂_of_mapM_eq_ok h
  clear h
  induction hts with
  | nil => rfl
  | cons ht _ ih => simp [sites_of_mapM ht, ih]

end VerificationType

theorem Frame.sites_of_mapM {C C' U U' : Type} {g : C → Except FormatError C'} {k : U → U'}
    {f : Frame C U} {f' : Frame C' U'} (h : f.mapM g (fun u => pure (k u)) = .ok f') :
    f'.sites = f.sites.map k := by
  cases f <;> simp only [Frame.mapM] at h
  case sameLocalsOneStack t =>
    obtain ⟨t', ht, h⟩ := Except.bind_eq_ok_iff.mp h
    cases h
    exact VerificationType.sites_of_mapM ht
  case append locals =>
    obtain ⟨ls, hls, h⟩ := Except.bind_eq_ok_iff.mp h
    cases h
    exact VerificationType.flatMap_sites_of_mapM hls
  case full locals stack =>
    obtain ⟨ls, hls, h⟩ := Except.bind_eq_ok_iff.mp h
    obtain ⟨ss, hss, h⟩ := Except.bind_eq_ok_iff.mp h
    cases h
    simp [Frame.sites, VerificationType.flatMap_sites_of_mapM hls,
      VerificationType.flatMap_sites_of_mapM hss]
  all_goals
    cases h
    rfl

namespace Instruction

variable {L L' : Type} {i : Instruction L}

def label? : Instruction L → Option L
  | .label l => some l
  | _ => none

def references : Instruction L → List L
  | .lineNumber _ start => [start]
  | .frame f => f.sites
  | i => i.targets

@[simp] theorem label?_label (l : L) : (Instruction.label l).label? = some l := rfl

@[simp] theorem label?_lineNumber (line : UInt16) (l : L) :
    (Instruction.lineNumber line l).label? = none := rfl

@[simp] theorem label?_frame (f : Frame String L) : (Instruction.frame f).label? = none := rfl

@[simp] theorem references_label (l : L) : (Instruction.label l).references = [] := rfl

@[simp] theorem references_lineNumber (line : UInt16) (l : L) :
    (Instruction.lineNumber line l).references = [l] := rfl

@[simp] theorem references_frame (f : Frame String L) : (Instruction.frame f).references = f.sites :=
  rfl

theorem label?_of_not_marker (h : i.isMarker = false) : i.label? = none := by
  cases i <;> simp_all [label?, isMarker, opcode?]

theorem references_of_not_marker (h : i.isMarker = false) : i.references = i.targets := by
  cases i <;> simp_all [references, isMarker, opcode?]

@[simp] theorem isMarker_mapLabels (f : L → L') : (i.mapLabels f).isMarker = i.isMarker := by
  cases i <;> rfl

end Instruction

/-- The labels the markers of a body place, in order. -/
def placedLabels {L : Type} (insns : List (Instruction L)) : List L :=
  insns.filterMap Instruction.label?

/-- The labels a body and its handlers refer to. -/
def referencedLabels {L : Type} (insns : List (Instruction L)) (handlers : List (Handler L)) :
    List L :=
  insns.flatMap Instruction.references ++ handlers.flatMap Handler.targets

/-- What a decoded body holds at one offset: the label of the offset, whether its marker is
placed there, the lines that start there, the frame there, and the instruction there. -/
structure OffsetBlock where
  label : Label
  placed : Bool
  lines : List UInt16
  frame : Option (Frame String Label)
  instruction : Option (Instruction Label)

namespace OffsetBlock

/-- The elements of a block: the label, the lines starting at it, the frame, the instruction. -/
def elements (b : OffsetBlock) : List (Instruction Label) :=
  (if b.placed then [.label b.label] else []) ++ b.lines.map (fun line => .lineNumber line b.label) ++
    (b.frame.map .frame).toList ++ b.instruction.toList

variable {b : OffsetBlock}

theorem placedLabels_elements (hb : ∀ i ∈ b.instruction, i.isMarker = false) :
    placedLabels b.elements = if b.placed then [b.label] else [] := by
  obtain ⟨label, placed, lines, frame, instruction⟩ := b
  have hown : instruction.toList.filterMap Instruction.label? = [] := by
    cases instruction with
    | none => rfl
    | some i => simp [Instruction.label?_of_not_marker (hb i rfl)]
  simp only [elements, placedLabels, List.filterMap_append, hown]
  cases frame <;> cases placed <;> simp [Function.comp_def]

theorem references_elements (hb : ∀ i ∈ b.instruction, i.isMarker = false) :
    b.elements.flatMap Instruction.references =
      b.lines.map (fun _ => b.label) ++ ((b.frame.map Frame.sites).getD []) ++
        ((b.instruction.map Instruction.targets).getD []) := by
  obtain ⟨label, placed, lines, frame, instruction⟩ := b
  have hown : instruction.toList.flatMap Instruction.references =
      (instruction.map Instruction.targets).getD [] := by
    cases instruction with
    | none => rfl
    | some i => simp [Instruction.references_of_not_marker (hb i rfl)]
  have hlines : (lines.map fun line => Instruction.lineNumber line label).flatMap
      Instruction.references = lines.map fun _ => label := by
    induction lines <;> simp_all
  simp only [elements, List.flatMap_append, hown, hlines]
  cases frame <;> cases placed <;> simp

end OffsetBlock

namespace SideTables

variable {t : SideTables} {offset : Nat}

theorem linesAt_ne_nil_iff : t.linesAt offset ≠ [] ↔ offset ∈ t.lineKeys := by
  simp only [linesAt, lineKeys, mem_sortedDistinct, ne_eq, List.map_eq_nil_iff,
    List.filter_eq_nil_iff, not_forall, beq_iff_eq, Decidable.not_not, List.mem_map]
  exact ⟨fun ⟨p, hp, h⟩ => ⟨p, hp, h⟩, fun ⟨p, hp, h⟩ => ⟨p, hp, h⟩⟩

theorem mem_frameKeys_of_frameAt? {f : Frame UInt16 UInt16} (h : t.frameAt? offset = some f) :
    offset ∈ t.frameKeys := by
  obtain ⟨p, hp, -⟩ := Option.map_eq_some_iff.mp h
  have hoff : p.1 = offset := by simpa using List.find?_some hp
  have hmem : p ∈ t.frames := List.mem_reverse.mp (List.mem_of_find?_eq_some hp)
  exact mem_sortedDistinct.mpr (List.mem_map.mpr ⟨p, hmem, hoff⟩)

end SideTables

namespace CodeAttribute

variable (c : CodeAttribute) (tables : SideTables) (decoded : List (Nat × Instruction Int))

def boundaries : List Nat := decoded.map (·.1) ++ [c.code.length]

def referredOffsets : List Int :=
  decoded.flatMap (fun p => p.2.targets) ++
    c.handlers.flatMap (fun h => [Int.ofNat h.start.toNat, Int.ofNat h.«end».toNat,
      Int.ofNat h.handler.toNat]) ++
    tables.lineKeys.map Int.ofNat ++
    (tables.frameKeys.flatMap fun o => ((tables.frameAt? o).map Frame.sites).getD []).map
      (fun s => Int.ofNat s.toNat)

def labelled : List Nat := sortedDistinct ((c.referredOffsets tables decoded).map Int.toNat)

def labelAt (offset : Nat) : Label := ⟨(c.labelled tables decoded).idxOf offset⟩

/-- The offsets of a body in order, each with the instruction that starts there; the end has
none. -/
def steps : List (Nat × Option (Instruction Int)) :=
  decoded.map (fun p => (p.1, some p.2)) ++ [(c.code.length, none)]

def placeAt (r : Resolver) (offset : Nat) (insn : Option (Instruction Int)) :
    Except FormatError (List (Instruction Label)) := do
  let label := if (c.labelled tables decoded).contains offset then
    [.label (c.labelAt tables decoded offset)] else []
  let lines := (tables.linesAt offset).map fun line =>
    .lineNumber line (c.labelAt tables decoded offset)
  let frame ← match tables.frameAt? offset with
    | some f => do
      let f' ← f.mapM r.pool.className (fun site => pure (c.labelAt tables decoded site.toNat))
      pure [Instruction.frame f']
    | none => pure []
  let own := (insn.map fun i => i.mapLabels fun t => c.labelAt tables decoded t.toNat).toList
  pure (label ++ lines ++ frame ++ own)

def handlerAt (r : Resolver) (h : RawHandler) : Except FormatError (Handler Label) := do
  let catchType ← r.pool.optionalClassName h.catchType
  pure { start := c.labelAt tables decoded h.start.toNat, «end» := c.labelAt tables decoded h.«end».toNat,
         handler := c.labelAt tables decoded h.handler.toNat, catchType : Handler Label }

theorem body_eq (r : Resolver) (options : ReadOptions) : c.body r options = (do
    let tables ← SideTables.read r.pool options c.attributes
    let decoded ← r.instructions c.code
    checkOffsets (c.boundaries decoded) (tables.frameKeys.map Int.ofNat)
    checkOffsets (c.boundaries decoded) (c.referredOffsets tables decoded)
    let instructions ← (c.steps decoded).mapM fun s => c.placeAt tables decoded r s.1 s.2
    let handlers ← c.handlers.mapM (c.handlerAt tables decoded r)
    pure (instructions.flatten, handlers)) := rfl

def blockAt (r : Resolver) (offset : Nat) (insn : Option (Instruction Int)) :
    Except FormatError OffsetBlock := do
  let frame ← (tables.frameAt? offset).mapM fun f =>
    f.mapM r.pool.className (fun site => pure (c.labelAt tables decoded site.toNat))
  pure { label := c.labelAt tables decoded offset
         placed := (c.labelled tables decoded).contains offset
         lines := tables.linesAt offset
         frame
         instruction := insn.map (·.mapLabels fun t => c.labelAt tables decoded t.toNat) }

theorem placeAt_eq (r : Resolver) (offset : Nat) (insn : Option (Instruction Int)) :
    c.placeAt tables decoded r offset insn =
      OffsetBlock.elements <$> c.blockAt tables decoded r offset insn := by
  unfold placeAt blockAt
  cases tables.frameAt? offset with
  | none => rfl
  | some f =>
    dsimp only [Option.mapM_some]
    generalize f.mapM r.pool.className (fun site => pure (c.labelAt tables decoded site.toNat)) = m
    cases m <;> rfl

variable {c tables decoded} {r : Resolver}

theorem blockAt_eq_ok {offset : Nat} {insn : Option (Instruction Int)} {b : OffsetBlock}
    (h : c.blockAt tables decoded r offset insn = .ok b) :
    b.label = c.labelAt tables decoded offset ∧
      b.placed = (c.labelled tables decoded).contains offset ∧ b.lines = tables.linesAt offset ∧
      b.frame.map Frame.sites = (tables.frameAt? offset).map
        (fun f => f.sites.map fun s => c.labelAt tables decoded s.toNat) ∧
      b.instruction = insn.map (·.mapLabels fun t => c.labelAt tables decoded t.toNat) := by
  obtain ⟨frame, hframe, h⟩ := Except.bind_eq_ok_iff.mp h
  cases h
  refine ⟨rfl, rfl, rfl, ?_, rfl⟩
  cases hf : tables.frameAt? offset with
  | none =>
    rw [hf] at hframe
    cases hframe
    rfl
  | some f =>
    rw [hf, Option.mapM_some] at hframe
    obtain ⟨f', hf', rfl⟩ := Except.map_eq_ok_iff.mp hframe
    simp [Frame.sites_of_mapM hf']

theorem mapM_placeAt_eq_ok {steps : List (Nat × Option (Instruction Int))}
    {xs : List (List (Instruction Label))}
    (h : steps.mapM (fun s => c.placeAt tables decoded r s.1 s.2) = .ok xs) :
    ∃ blocks, List.Forall₂ (fun s b => c.blockAt tables decoded r s.1 s.2 = .ok b) steps blocks ∧
      xs = blocks.map OffsetBlock.elements := by
  simp only [placeAt_eq] at h
  obtain ⟨blocks, hblocks, rfl⟩ := mapM_map_eq_ok h
  exact ⟨blocks, forall₂_of_mapM_eq_ok hblocks, rfl⟩

theorem mem_labelled {o : Nat} :
    o ∈ c.labelled tables decoded ↔ ∃ t ∈ c.referredOffsets tables decoded, t.toNat = o := by
  simp [labelled, mem_sortedDistinct]

theorem labelled_pairwise : (c.labelled tables decoded).Pairwise (· < ·) :=
  pairwise_sortedDistinct _

theorem map_labelAt_labelled :
    (c.labelled tables decoded).map (c.labelAt tables decoded) =
      (List.range (c.labelled tables decoded).length).map Label.mk := by
  have hnd : (c.labelled tables decoded).Nodup := labelled_pairwise.imp Nat.ne_of_lt
  apply List.ext_getElem (by simp)
  intro i h₁ h₂
  simp [labelAt, hnd.idxOf_getElem]

theorem mem_referredOffsets {t : Int} : t ∈ c.referredOffsets tables decoded ↔
    (∃ p ∈ decoded, t ∈ p.2.targets) ∨
    (∃ h ∈ c.handlers, ∃ x ∈ [h.start, h.«end», h.handler], Int.ofNat x.toNat = t) ∨
    (∃ o ∈ tables.lineKeys, Int.ofNat o = t) ∨
    (∃ o ∈ tables.frameKeys, ∃ f, tables.frameAt? o = some f ∧ ∃ s ∈ f.sites,
      Int.ofNat s.toNat = t) := by
  simp only [referredOffsets, List.mem_append, List.mem_flatMap, List.mem_map, or_assoc]
  refine or_congr_right (or_congr ?_ (or_congr_right ?_))
  · simp [eq_comm]
  · constructor
    · rintro ⟨s, ⟨o, ho, hs⟩, rfl⟩
      cases hf : tables.frameAt? o with
      | none => simp [hf] at hs
      | some f =>
        simp only [hf, Option.map_some, Option.getD_some] at hs
        exact ⟨o, ho, f, hf, s, hs, rfl⟩
    · rintro ⟨o, ho, f, hf, s, hs, rfl⟩
      exact ⟨s, ⟨o, ho, by simp [hf, hs]⟩, rfl⟩

theorem lineKey_mem_referredOffsets {o : Nat} (ho : o ∈ tables.lineKeys) :
    Int.ofNat o ∈ c.referredOffsets tables decoded :=
  mem_referredOffsets.mpr (.inr (.inr (.inl ⟨o, ho, rfl⟩)))

theorem mem_labelled_of_linesAt {o : Nat} (ho : tables.linesAt o ≠ []) :
    o ∈ c.labelled tables decoded :=
  mem_labelled.mpr ⟨_, lineKey_mem_referredOffsets (SideTables.linesAt_ne_nil_iff.mp ho), rfl⟩

theorem mem_steps {s : Nat × Option (Instruction Int)} :
    s ∈ c.steps decoded ↔ (∃ p ∈ decoded, (p.1, some p.2) = s) ∨ s = (c.code.length, none) := by
  simp [steps]

theorem steps_map_fst : (c.steps decoded).map Prod.fst = c.boundaries decoded := by
  simp [steps, boundaries, Function.comp_def]

theorem handlerAt_targets {h : RawHandler} {h' : Handler Label}
    (hh : c.handlerAt tables decoded r h = .ok h') :
    h'.targets = [h.start, h.«end», h.handler].map fun x => c.labelAt tables decoded x.toNat := by
  obtain ⟨catchType, -, hh⟩ := Except.bind_eq_ok_iff.mp hh
  cases hh
  rfl

/-- A successful decoding of a body with its side tables: the instructions read, the offsets
checked against the boundaries, a block laid at each offset and each handler labelled. -/
structure Decoding (c : CodeAttribute) (r : Resolver) (tables : SideTables)
    (decoded : List (Nat × Instruction Int)) (blocks : List OffsetBlock)
    (handlers : List (Handler Label)) : Prop where
  read : r.instructions c.code = .ok decoded
  framesChecked : checkOffsets (c.boundaries decoded) (tables.frameKeys.map Int.ofNat) = .ok ()
  referredChecked : checkOffsets (c.boundaries decoded) (c.referredOffsets tables decoded) = .ok ()
  laid : List.Forall₂ (fun s b => c.blockAt tables decoded r s.1 s.2 = .ok b) (c.steps decoded) blocks
  labelledHandlers :
    List.Forall₂ (fun h h' => c.handlerAt tables decoded r h = .ok h') c.handlers handlers

theorem body_eq_ok {options : ReadOptions} {insns : List (Instruction Label)}
    {handlers : List (Handler Label)} (h : c.body r options = .ok (insns, handlers)) :
    ∃ tables decoded blocks, SideTables.read r.pool options c.attributes = .ok tables ∧
      c.Decoding r tables decoded blocks handlers ∧ insns = (blocks.map OffsetBlock.elements).flatten := by
  rw [body_eq] at h
  obtain ⟨tables, htables, h⟩ := Except.bind_eq_ok_iff.mp h
  obtain ⟨decoded, hread, h⟩ := Except.bind_eq_ok_iff.mp h
  obtain ⟨⟨⟩, hframes, h⟩ := Except.bind_eq_ok_iff.mp h
  obtain ⟨⟨⟩, hreferred, h⟩ := Except.bind_eq_ok_iff.mp h
  obtain ⟨xs, hxs, h⟩ := Except.bind_eq_ok_iff.mp h
  obtain ⟨hs, hhs, h⟩ := Except.bind_eq_ok_iff.mp h
  cases h
  obtain ⟨blocks, hblocks, rfl⟩ := mapM_placeAt_eq_ok hxs
  exact ⟨tables, decoded, blocks, htables,
    ⟨hread, hframes, hreferred, hblocks, forall₂_of_mapM_eq_ok hhs⟩, rfl⟩

theorem mem_referencedLabels_of_block {blocks : List OffsetBlock} {handlers : List (Handler Label)}
    {b : OffsetBlock} {l : Label} (hb : b ∈ blocks)
    (hl : l ∈ b.elements.flatMap Instruction.references) :
    l ∈ referencedLabels (blocks.map OffsetBlock.elements).flatten handlers := by
  obtain ⟨i, hi, hl⟩ := List.mem_flatMap.mp hl
  exact List.mem_append_left _
    (List.mem_flatMap.mpr ⟨i, List.mem_flatten.mpr ⟨_, List.mem_map_of_mem hb, hi⟩, hl⟩)

namespace Decoding

variable {blocks : List OffsetBlock} {handlers : List (Handler Label)}
  (D : c.Decoding r tables decoded blocks handlers)
include D

theorem boundaries_pairwise : (c.boundaries decoded).Pairwise (· < ·) :=
  Resolver.instructions_offsets D.read

theorem mem_boundaries_of_labelled {o : Nat} (ho : o ∈ c.labelled tables decoded) :
    o ∈ c.boundaries decoded := by
  obtain ⟨t, ht, rfl⟩ := mem_labelled.mp ho
  exact (checkOffsets_eq_ok.mp D.referredChecked t ht).2

theorem exists_block {o : Nat} (ho : o ∈ c.boundaries decoded) :
    ∃ b ∈ blocks, ∃ insn, c.blockAt tables decoded r o insn = .ok b := by
  rw [← steps_map_fst] at ho
  obtain ⟨s, hs, rfl⟩ := List.mem_map.mp ho
  obtain ⟨b, hb, hsb⟩ := exists_of_forall₂_left D.laid s hs
  exact ⟨b, hb, s.2, hsb⟩

theorem filter_boundaries :
    (c.boundaries decoded).filter (fun o => (c.labelled tables decoded).contains o) =
      c.labelled tables decoded := by
  refine (D.boundaries_pairwise.filter _).eq_of_mem_iff labelled_pairwise fun o => ?_
  simp only [List.mem_filter, List.contains_iff_mem]
  exact ⟨fun h => h.2, fun h => ⟨D.mem_boundaries_of_labelled h, h⟩⟩

theorem block_not_marker : ∀ b ∈ blocks, ∀ i ∈ b.instruction, i.isMarker = false := by
  intro b hb i hi
  obtain ⟨s, hs, hsb⟩ := exists_of_forall₂_right D.laid b hb
  obtain ⟨-, -, -, -, hins⟩ := blockAt_eq_ok hsb
  rw [hins] at hi
  obtain ⟨j, hj, rfl⟩ := Option.mem_map.mp hi
  rcases mem_steps.mp hs with ⟨p, hp, rfl⟩ | rfl
  · cases hj
    simpa using Resolver.instructionsFrom_not_marker D.read p hp
  · cases hj

theorem placedLabels_eq :
    placedLabels (blocks.map OffsetBlock.elements).flatten =
      (c.labelled tables decoded).map (c.labelAt tables decoded) := by
  have hblocks : blocks.map (fun b => placedLabels b.elements) = (c.steps decoded).map
      fun s => if (c.labelled tables decoded).contains s.1 then [c.labelAt tables decoded s.1]
        else [] := by
    refine map_eq_map_of_forall₂ D.laid fun s _ b hb hsb => ?_
    obtain ⟨hlabel, hplaced, -⟩ := blockAt_eq_ok hsb
    rw [OffsetBlock.placedLabels_elements (D.block_not_marker b hb), hlabel, hplaced]
  calc placedLabels (blocks.map OffsetBlock.elements).flatten
      = (blocks.map fun b => placedLabels b.elements).flatten := by
        simp [placedLabels, List.filterMap_flatten, Function.comp_def]
    _ = (c.boundaries decoded).flatMap fun o =>
          if (c.labelled tables decoded).contains o then [c.labelAt tables decoded o] else [] := by
        rw [hblocks, ← steps_map_fst, List.flatMap_map, List.flatMap_def]
    _ = (c.labelled tables decoded).map (c.labelAt tables decoded) := by
        rw [flatMap_singleton_if, D.filter_boundaries]

theorem referenced_of_referred {t : Int} (ht : t ∈ c.referredOffsets tables decoded) :
    c.labelAt tables decoded t.toNat ∈
      referencedLabels (blocks.map OffsetBlock.elements).flatten handlers := by
  rcases mem_referredOffsets.mp ht with
    ⟨p, hp, ht⟩ | ⟨h, hh, x, hx, rfl⟩ | ⟨o, ho, rfl⟩ | ⟨o, ho, f, hf, s, hs, rfl⟩
  case inl =>
    -- a target of an instruction, which the block at its offset holds
    obtain ⟨b, hb, hpb⟩ := exists_of_forall₂_left D.laid _ (mem_steps.mpr (.inl ⟨p, hp, rfl⟩))
    obtain ⟨-, -, -, -, hins⟩ := blockAt_eq_ok hpb
    refine mem_referencedLabels_of_block hb ?_
    rw [OffsetBlock.references_elements (D.block_not_marker b hb), hins]
    simp only [Option.map_some, Option.getD_some, Instruction.targets_mapLabels]
    exact List.mem_append_right _ (List.mem_map_of_mem ht)
  case inr.inl =>
    obtain ⟨h', hh', hhh'⟩ := exists_of_forall₂_left D.labelledHandlers h hh
    refine List.mem_append_right _ (List.mem_flatMap.mpr ⟨h', hh', ?_⟩)
    rw [handlerAt_targets hhh']
    exact List.mem_map_of_mem hx
  case inr.inr.inl =>
    -- the start of a line, whose block carries the line
    have hlines : tables.linesAt o ≠ [] := SideTables.linesAt_ne_nil_iff.mpr ho
    have hbound : o ∈ c.boundaries decoded := by
      simpa using (checkOffsets_eq_ok.mp D.referredChecked _ (lineKey_mem_referredOffsets ho)).2
    obtain ⟨b, hb, insn, hob⟩ := D.exists_block hbound
    obtain ⟨hlabel, -, hblines, -⟩ := blockAt_eq_ok hob
    refine mem_referencedLabels_of_block hb ?_
    rw [OffsetBlock.references_elements (D.block_not_marker b hb), hblines, hlabel]
    obtain ⟨line, hline⟩ := List.exists_mem_of_ne_nil _ hlines
    exact List.mem_append_left _ (List.mem_append_left _ (List.mem_map.mpr ⟨line, hline, rfl⟩))
  case inr.inr.inr =>
    -- a site of a frame, whose block carries the frame
    have hbound : o ∈ c.boundaries decoded := by
      simpa using (checkOffsets_eq_ok.mp D.framesChecked _ (List.mem_map_of_mem ho)).2
    obtain ⟨b, hb, insn, hob⟩ := D.exists_block hbound
    obtain ⟨-, -, -, hframe, -⟩ := blockAt_eq_ok hob
    refine mem_referencedLabels_of_block hb ?_
    rw [OffsetBlock.references_elements (D.block_not_marker b hb), hframe, hf]
    exact List.mem_append_left _ (List.mem_append_right _ (by simpa using ⟨s, hs, rfl⟩))

theorem referred_of_referenced {l : Label}
    (hl : l ∈ referencedLabels (blocks.map OffsetBlock.elements).flatten handlers) :
    ∃ t ∈ c.referredOffsets tables decoded, c.labelAt tables decoded t.toNat = l := by
  rcases List.mem_append.mp hl with hl | hl
  · obtain ⟨i, hi, hl⟩ := List.mem_flatMap.mp hl
    obtain ⟨xs, hxs, hi⟩ := List.mem_flatten.mp hi
    obtain ⟨b, hb, rfl⟩ := List.mem_map.mp hxs
    obtain ⟨s, hs, hsb⟩ := exists_of_forall₂_right D.laid b hb
    obtain ⟨hlabel, -, hlines, hframe, hins⟩ := blockAt_eq_ok hsb
    have hl' : l ∈ b.elements.flatMap Instruction.references := List.mem_flatMap.mpr ⟨i, hi, hl⟩
    rw [OffsetBlock.references_elements (D.block_not_marker b hb)] at hl'
    rcases List.mem_append.mp hl' with hl' | hl'
    rcases List.mem_append.mp hl' with hl' | hl'
    · -- the label of a line start
      obtain ⟨line, hline, rfl⟩ := List.mem_map.mp hl'
      have hkey := SideTables.linesAt_ne_nil_iff.mp (hlines ▸ List.ne_nil_of_mem hline)
      exact ⟨_, lineKey_mem_referredOffsets hkey, by simp [hlabel]⟩
    · -- a site of the frame
      rw [hframe] at hl'
      cases hf : tables.frameAt? s.1 with
      | none => simp [hf] at hl'
      | some f =>
        simp only [hf, Option.map_some, Option.getD_some, List.mem_map] at hl'
        obtain ⟨site, hsite, rfl⟩ := hl'
        refine ⟨Int.ofNat site.toNat, mem_referredOffsets.mpr (.inr (.inr (.inr ?_))), by simp⟩
        exact ⟨s.1, SideTables.mem_frameKeys_of_frameAt? hf, f, hf, site, hsite, rfl⟩
    · -- a target of the instruction
      rw [hins] at hl'
      rcases mem_steps.mp hs with ⟨p, hp, rfl⟩ | rfl
      · simp only [Option.map_some, Option.getD_some, Instruction.targets_mapLabels,
          List.mem_map] at hl'
        obtain ⟨t, ht, rfl⟩ := hl'
        exact ⟨t, mem_referredOffsets.mpr (.inl ⟨p, hp, ht⟩), rfl⟩
      · simp at hl'
  · obtain ⟨h', hh', hl⟩ := List.mem_flatMap.mp hl
    obtain ⟨h, hh, hhh'⟩ := exists_of_forall₂_right D.labelledHandlers h' hh'
    rw [handlerAt_targets hhh'] at hl
    obtain ⟨x, hx, rfl⟩ := List.mem_map.mp hl
    exact ⟨_, mem_referredOffsets.mpr (.inr (.inl ⟨h, hh, x, hx, rfl⟩)), by simp⟩

end Decoding

end CodeAttribute

/-- Decoded bodies are closed and labelled canonically. Every label the body or its handlers
refer to is placed by exactly one marker, every placed label is referred to, and the markers
place `0, 1, 2, …` in order. The body is laid out offset by offset in increasing order, and each
offset holds its label, the lines that start there in table order, at most one frame, then the
instruction read there. -/
theorem body_canonical {c : CodeAttribute} {r : Resolver} {options : ReadOptions}
    {insns : List (Instruction Label)} {handlers : List (Handler Label)}
    (h : c.body r options = .ok (insns, handlers)) :
    (∀ l ∈ referencedLabels insns handlers, (placedLabels insns).count l = 1) ∧
    (∀ l ∈ placedLabels insns, l ∈ referencedLabels insns handlers) ∧
    placedLabels insns = (List.range (placedLabels insns).length).map Label.mk ∧
    ∃ tables decoded blocks, SideTables.read r.pool options c.attributes = .ok tables ∧
      r.instructions c.code = .ok decoded ∧
      ((c.steps decoded).map Prod.fst).Pairwise (· < ·) ∧
      insns = (blocks.map OffsetBlock.elements).flatten ∧
      List.Forall₂ (fun s b => b.lines = tables.linesAt s.1 ∧ (b.lines ≠ [] → b.placed = true) ∧
        b.frame.isSome = (tables.frameAt? s.1).isSome ∧
        b.instruction.map Instruction.shape = s.2.map Instruction.shape) (c.steps decoded) blocks := by
  obtain ⟨tables, decoded, blocks, htables, D, rfl⟩ := CodeAttribute.body_eq_ok h
  have hplaced := D.placedLabels_eq
  have hnodup : ((c.labelled tables decoded).map (c.labelAt tables decoded)).Nodup := by
    rw [CodeAttribute.map_labelAt_labelled]
    exact List.nodup_range.map fun _ _ h => congrArg Label.id h
  refine ⟨fun l hl => ?_, fun l hl => ?_, ?_, tables, decoded, blocks, htables, D.read, ?_, rfl, ?_⟩
  · -- a referred label is the label of a labelled offset, which is placed once
    obtain ⟨t, ht, rfl⟩ := D.referred_of_referenced hl
    rw [hplaced]
    exact List.count_eq_one_of_mem hnodup
      (List.mem_map_of_mem (CodeAttribute.mem_labelled.mpr ⟨t, ht, rfl⟩))
  · rw [hplaced] at hl
    obtain ⟨o, ho, rfl⟩ := List.mem_map.mp hl
    obtain ⟨t, ht, rfl⟩ := CodeAttribute.mem_labelled.mp ho
    exact D.referenced_of_referred ht
  · rw [hplaced, CodeAttribute.map_labelAt_labelled]
    simp
  · rw [CodeAttribute.steps_map_fst]
    exact D.boundaries_pairwise
  · refine D.laid.imp fun s b hsb => ?_
    obtain ⟨-, hplacedb, hlines, hframe, hins⟩ := CodeAttribute.blockAt_eq_ok hsb
    refine ⟨hlines, fun hne => ?_, ?_, ?_⟩
    · rw [hplacedb, List.contains_iff_mem]
      exact CodeAttribute.mem_labelled_of_linesAt (hlines ▸ hne)
    · simpa using congrArg Option.isSome hframe
    · rw [hins, Option.map_map]
      simp [Function.comp_def]

theorem body_canonical_selfLoop :
    (⟨0, 0, [0xA7, 0x00, 0x00], [], []⟩ : CodeAttribute).body default {} =
        .ok ([.label ⟨0⟩, .jump Opcode.goto ⟨0⟩], []) ∧
      placedLabels ([.label ⟨0⟩, .jump Opcode.goto ⟨0⟩] : List (Instruction Label)) =
        (List.range (placedLabels ([.label ⟨0⟩, .jump Opcode.goto ⟨0⟩] :
          List (Instruction Label))).length).map Label.mk :=
  have h : (⟨0, 0, [0xA7, 0x00, 0x00], [], []⟩ : CodeAttribute).body default {} =
      .ok ([.label ⟨0⟩, .jump Opcode.goto ⟨0⟩], []) := by rfl
  ⟨h, (body_canonical h).2.2.1⟩

end ClassPatch
