import ClassPatch.Proofs.MarkerTables

/-!
A method body written as a `Code` attribute reads back as the body it was written from. Reading
gives labels of its own and lays the markers out offset by offset, so the two bodies are compared
through their views: the instructions, markers left out, each label named by the instruction it
denotes; the frames, each with the instruction it stands before; the line numbers; the handlers.

The instructions read back are the body's as `readBack` gives them: each conditional branch the
layout widened reads as two, and every index in the other views moves to match. The line
numbers read back grouped by the offset they start at, so as a permutation of the body's, each
right before the instruction its start denotes.
-/

namespace ClassPatch

section Lists

variable {α β : Type} {R Q : α → β → Prop}

theorem forall₂_and {as : List α} {bs : List β} (h₁ : List.Forall₂ R as bs)
    (h₂ : List.Forall₂ Q as bs) : List.Forall₂ (fun a b => R a b ∧ Q a b) as bs := by
  induction h₁ with
  | nil => exact .nil
  | cons hab _ ih =>
    cases h₂ with
    | cons hab' h₂ => exact .cons ⟨hab, hab'⟩ (ih h₂)

theorem forall₂_comp {γ : Type} {P : β → γ → Prop} {as : List α} {bs : List β} {cs : List γ}
    (h₁ : List.Forall₂ R as bs) (h₂ : List.Forall₂ P bs cs) :
    List.Forall₂ (fun a c => ∃ b ∈ bs, R a b ∧ P b c) as cs := by
  induction h₁ generalizing cs with
  | nil =>
    cases h₂
    exact .nil
  | cons hab _ ih =>
    cases h₂ with
    | cons hbc h₂ =>
      refine .cons ⟨_, List.mem_cons_self, hab, hbc⟩ ((ih h₂).imp fun a c hac => ?_)
      obtain ⟨b, hb, h⟩ := hac
      exact ⟨b, List.mem_cons_of_mem _ hb, h⟩

theorem filterMap_eq_map_of_forall₂ {γ : Type} {F : α → Option γ} {G : β → γ} {as : List α}
    {bs : List β} (h : List.Forall₂ R as bs) (hFG : ∀ a ∈ as, ∀ b, R a b → F a = some (G b)) :
    as.filterMap F = bs.map G := by
  induction h with
  | nil => rfl
  | cons hab _ ih =>
    rw [List.filterMap_cons_some (hFG _ List.mem_cons_self _ hab),
      ih fun a ha b hab => hFG a (List.mem_cons_of_mem _ ha) b hab, List.map_cons]

theorem zipIdx_eq_map_idxOf {B : List Nat} (hB : B.Nodup) :
    B.zipIdx = B.map fun o => (o, B.idxOf o) := by
  refine List.ext_getElem (by simp) fun i h₁ h₂ => ?_
  simp [List.getElem_zipIdx, hB.idxOf_getElem]

theorem perm_flatMap_filter_key :
    ∀ {B : List Nat} {L : List (Nat × β)}, B.Nodup → (∀ x ∈ L, x.1 ∈ B) →
      (B.flatMap fun o => L.filter (·.1 == o)).Perm L
  | [], L, _, hL => by
    cases L with
    | nil => exact .nil
    | cons x _ => exact absurd (hL x List.mem_cons_self) List.not_mem_nil
  | o :: B, L, hB, hL => by
    obtain ⟨ho, hB⟩ := List.nodup_cons.mp hB
    -- the other keys group the entries whose key is not `o`
    have hrest : (B.flatMap fun o' => L.filter (·.1 == o')) =
        B.flatMap fun o' => (L.filter fun x => !(x.1 == o)).filter (·.1 == o') := by
      refine List.flatMap_congr fun o' ho' => ?_
      rw [List.filter_filter]
      refine List.filter_congr fun x _ => ?_
      by_cases hx : x.1 = o'
      · simp [hx, show o' ≠ o from fun h => ho (h ▸ ho')]
      · simp [hx]
    rw [List.flatMap_cons, hrest]
    refine (List.Perm.append_left _ (perm_flatMap_filter_key hB fun x hx => ?_)).trans
      (List.filter_append_perm _ L)
    obtain ⟨hx, hne⟩ := List.mem_filter.mp hx
    rcases List.mem_cons.mp (hL x hx) with h | h
    · simp [h] at hne
    · exact h

theorem filterMap_lookup {V : Type} {look : Nat → Option V} :
    ∀ {B : List Nat} {xs : List (Nat × V)}, B.Pairwise (· < ·) → (xs.map (·.1)).Pairwise (· < ·) →
      (∀ x ∈ xs, x.1 ∈ B) → (∀ x ∈ xs, look x.1 = some x.2) →
      (∀ o ∈ B, ∀ v, look o = some v → ∃ x ∈ xs, x.1 = o) →
      B.filterMap (fun o => (look o).map ((o, ·))) = xs
  | [], xs, _, _, hxs, _, _ => by
    cases xs with
    | nil => rfl
    | cons x _ => exact absurd (hxs x List.mem_cons_self) List.not_mem_nil
  | o :: B, xs, hB, hsorted, hxs, hlook, hfound => by
    obtain ⟨hlt, hB⟩ := List.pairwise_cons.mp hB
    cases ho : look o with
    | none =>
      -- no entry has the key `o`
      rw [List.filterMap_cons_none (by simp [ho])]
      refine filterMap_lookup hB hsorted (fun x hx => ?_) hlook
        fun o' ho' => hfound o' (List.mem_cons_of_mem _ ho')
      rcases List.mem_cons.mp (hxs x hx) with h | h
      · rw [← h, hlook x hx] at ho
        cases ho
      · exact h
    | some v =>
      obtain ⟨x, hx, hxo⟩ := hfound o List.mem_cons_self v ho
      cases xs with
      | nil => exact absurd hx List.not_mem_nil
      | cons y rest =>
        rw [List.map_cons, List.pairwise_cons] at hsorted
        have habove : ∀ z ∈ rest, y.1 < z.1 := fun z hz => hsorted.1 _ (List.mem_map_of_mem hz)
        -- the entry of the key `o` comes first, the keys being sorted
        have hy : y.1 = o := by
          rcases List.mem_cons.mp (hxs y List.mem_cons_self) with h | h
          · exact h
          · rcases List.mem_cons.mp hx with rfl | hx
            · exact hxo
            · have := hlt _ h
              have := habove x hx
              omega
        have hyv : y = (o, v) := by
          have := hlook y List.mem_cons_self
          rw [hy, ho, Option.some.injEq] at this
          exact Prod.ext hy this.symm
        rw [List.filterMap_cons_some (f := fun o => (look o).map ((o, ·))) (b := (o, v)) (by simp [ho]),
          hyv]
        congr 1
        refine filterMap_lookup hB hsorted.2 (fun z hz => ?_)
          (fun z hz => hlook z (List.mem_cons_of_mem _ hz)) fun o' ho' v' hv' => ?_
        · have := habove z hz
          rcases List.mem_cons.mp (hxs z (List.mem_cons_of_mem _ hz)) with h | h
          · omega
          · exact h
        · obtain ⟨z, hz, hzo⟩ := hfound o' (List.mem_cons_of_mem _ ho') v' hv'
          rcases List.mem_cons.mp hz with rfl | hz
          · have := hlt o' ho'
            omega
          · exact ⟨z, hz, hzo⟩

end Lists

theorem mem_widenedAt {insns : List (Instruction Label)} {wide : List Nat} {k : Nat}
    (hk : k ∈ widenedAt insns wide) :
    ∃ op t, (instructionView insns)[k]? = some (.jump op t) ∧ op.invertedBranch?.isSome = true := by
  simp only [widenedAt, List.mem_dedup, List.mem_map, List.mem_filter, Bool.and_eq_true] at hk
  obtain ⟨⟨i, p⟩, ⟨hq, -, hinv⟩, rfl⟩ := hk
  obtain ⟨hp, hpi⟩ := List.getElem?_eq_some_iff.mp (List.mem_zipIdx_iff_getElem?.mp hq)
  dsimp only at hinv hp hpi ⊢
  subst hpi
  obtain ⟨op, t, hjt⟩ : ∃ op t, insns[p] = .jump op t := by
    revert hinv
    cases insns[p] <;> simp [Instruction.invertible]
  refine ⟨op, denotes insns t, ?_, by simpa [hjt, Instruction.invertible] using hinv⟩
  rw [instructionView, List.getElem?_map,
    getElem?_filter_realsBefore hp (Instruction.not_marker_of_invertible hinv), hjt]
  rfl

namespace Layout

/-- A layout of a body with the branches at `wide` widened, as the writer settles on it: each
label at the place the body gives it, every offset below 65536, a marker taking no room and a
widened conditional branch eight bytes, and the targets of every instruction placed. -/
structure Valid (lay : Layout) (insns : List (Instruction Label)) (wide : List Nat) : Prop where
  positions : ∀ l, lay.positions.lookup l = placeOf insns l
  bound : ∀ x ∈ lay.offsets, x < 65536
  stay : ∀ p (hp : p < insns.length), insns[p].isMarker = true →
    lay.offsets.getD (p + 1) 0 = lay.offsets.getD p 0
  widen : ∀ p (hp : p < insns.length), wide.contains p = true → insns[p].invertible = true →
    lay.offsets.getD (p + 1) 0 = lay.offsets.getD p 0 + 8
  targets : ∀ i ∈ insns, ∀ l ∈ i.targets, ∃ v, lay.labelOffset l = .ok v

namespace Valid

variable {lay : Layout} {insns : List (Instruction Label)} {wide : List Nat}
  (hv : lay.Valid insns wide)
include hv

theorem placed {l : Label} {v : Nat} (h : lay.labelOffset l = .ok v) :
    ∃ p, placeOf insns l = some p ∧ lay.offsetOf l = lay.offsets.getD p 0 := by
  unfold labelOffset at h
  split at h
  · next p hp =>
    exact ⟨p, (hv.positions l).symm.trans hp, by simp [offsetOf, hp]⟩
  · cases h

theorem targets_placed :
    ∀ i ∈ insns, ∀ l ∈ i.targets, ∃ p, placeOf insns l = some p ∧
      lay.offsetOf l = lay.offsets.getD p 0 := fun i hi l hl => by
  obtain ⟨v, hl⟩ := hv.targets i hi l hl
  exact hv.placed hl

theorem placed_toUInt16 {l : Label} {v : Nat} (h : lay.labelOffset l = .ok v) :
    ∃ p ≤ insns.length, (lay.offsetOf l).toUInt16.toNat = lay.offsets.getD p 0 := by
  obtain ⟨p, hp, hpos⟩ := hv.placed h
  exact ⟨p, (placeOf_lt hp).le, by
    rw [UInt16.toNat_ofNat_of_lt' (Layout.offsetOf_lt hv.bound l), hpos]⟩

theorem offset_mem_boundaries {p : Nat} (hp : p ≤ insns.length) :
    lay.offsets.getD p 0 ∈ emittedBoundaries lay.offsetOf lay.offsets wide insns :=
  List.mem_of_getElem? (getElem?_boundaries hv.stay (insns.length - p) p (by omega))

theorem target_emitted {e : Nat × Instruction Int}
    (he : e ∈ emittedBody lay.offsetOf lay.offsets wide insns) {t : Int} (ht : t ∈ e.2.targets) :
    ∃ p ≤ insns.length, t = lay.offsets.getD p 0 := by
  obtain ⟨q, hq, he⟩ := List.mem_flatMap.mp he
  obtain ⟨hp, hq1⟩ := List.getElem?_eq_some_iff.mp (List.mem_zipIdx_iff_getElem?.mp hq)
  have hplaced : ∀ l ∈ q.1.targets, ∃ p ≤ insns.length, (lay.offsetOf l : Int) = lay.offsets.getD p 0 := by
    intro l hl
    obtain ⟨p, hp, hpos⟩ := hv.targets_placed q.1 (List.fst_mem_of_mem_zipIdx hq) l hl
    exact ⟨p, (placeOf_lt hp).le, by rw [hpos]⟩
  by_cases hjump : ∃ op l, q.1 = .jump op l
  · obtain ⟨op, l, hjl⟩ := hjump
    obtain ⟨p, hp', hl⟩ := hplaced l (by simp [hjl, Instruction.targets])
    by_cases hw : wide.contains q.2 = true ∧ op.invertedBranch?.isSome = true
    · -- a widened conditional branch also jumps to the next position
      obtain ⟨inv, hinv⟩ := Option.isSome_iff_exists.mp hw.2
      rw [hjl, hw.1, Instruction.emitted_inverted hinv] at he
      have hnext := hv.widen q.2 hp hw.1 (by simp [hq1, hjl, Instruction.invertible, hinv])
      simp only [List.mem_cons, List.not_mem_nil, or_false] at he
      rcases he with rfl | rfl
      · simp only [Instruction.targets, List.mem_singleton] at ht
        exact ⟨q.2 + 1, hp, by omega⟩
      · simp only [Instruction.targets, List.mem_singleton] at ht
        exact ⟨p, hp', by rw [ht, hl]⟩
    · have hnone : wide.contains q.2 = true → op.invertedBranch? = none := fun hc =>
        Option.not_isSome_iff_eq_none.mp fun hs => hw ⟨hc, hs⟩
      rw [hjl, Instruction.emitted_jump hnone, List.mem_singleton] at he
      subst he
      simp only [Instruction.targets, List.mem_singleton] at ht
      exact ⟨p, hp', by rw [ht, hl]⟩
  · push Not at hjump
    rw [Instruction.emitted_of_not_jump hjump] at he
    split at he
    · cases he
    · rw [List.mem_singleton] at he
      subst he
      simp only [Instruction.targets_mapLabels, List.mem_map] at ht
      obtain ⟨l, hl, rfl⟩ := ht
      exact hplaced l hl

end Valid

def lineTable (lay : Layout) (insns : List (Instruction Label)) : List (Nat × UInt16) :=
  insns.filterMap fun i => i.line?.map fun p => (lay.offsetOf p.2, p.1)

open Build PoolBuilder

theorem valid_of_emitted {insns : List (Instruction Label)} {ps : List (Label × Nat)}
    {offsets wide : List Nat} {P₀ P₁ P₁' : PoolBuilder} {bss : List (List UInt8)}
    (hps : labelPositions insns = .ok ps) (hm : measure insns wide P₀ = .ok (offsets, P₁))
    (hemit : insns.zipIdx.mapM (emit ⟨offsets, ps⟩ wide) P₁ = .ok (bss, P₁')) :
    Layout.Valid ⟨offsets, ps⟩ insns wide ∧ P₁' = P₁ ∧
      (∀ p ≤ insns.length, (bss.take p).flatten.length = offsets.getD p 0) ∧
      bss.flatten.length = offsets.getD insns.length 0 := by
  obtain ⟨rfl, hoff⟩ := emit_at_offsets hm (Extends.refl _) hemit
  have hf := Build.forall₂_of_mapM hemit
  have hlen : bss.length = insns.length := by simpa using hf.length_eq.symm
  have hall : bss.flatten.length = offsets.getD insns.length 0 := by
    rw [← hoff _ le_rfl, ← hlen, List.take_length]
  -- each position's bytes take the room up to the next offset
  have hroom : ∀ p (hp : p < insns.length), ∃ bs T T',
      Build.instruction insns[p] (offsets.getD p 0) (wide.contains p) (labelOffset ⟨offsets, ps⟩) T =
        .ok (bs, T') ∧ offsets.getD (p + 1) 0 = offsets.getD p 0 + bs.length := by
    intro p hp
    obtain ⟨T, T', hT⟩ := hf.get (by simpa using hp) (by omega)
    refine ⟨_, T, T', by simpa [emit, List.getElem_zipIdx] using hT, ?_⟩
    rw [← hoff (p + 1) hp, ← hoff p hp.le, List.take_add_one,
      List.getElem?_eq_getElem (by omega : p < bss.length), Option.toList_some,
      List.flatten_append, List.length_append, List.flatten_singleton]
  have hlength : offsets.length = insns.length + 1 := by
    simpa using offsetsFrom_length _ _ (measure_eq_ok hm).1
  refine ⟨⟨fun l => labelPositions_lookup hps, fun x hx => ?_, fun p hp hmarker => ?_,
    fun p hp hwide hinv => ?_, fun i hi l hl => ?_⟩, rfl, hoff, hall⟩
  · -- every offset is at most the end of the code, which `measure` bounds
    change x ∈ offsets at hx
    obtain ⟨j, hj, rfl⟩ := List.getElem_of_mem hx
    have hlast : offsets.getLastD 0 = offsets.getD insns.length 0 := by
      rw [List.getLastD_eq_getLast?, List.getLast?_eq_getElem?, hlength, Nat.add_sub_cancel,
        List.getD_eq_getElem?_getD]
    have hprefix : (bss.take j).flatten.length ≤ bss.flatten.length := by
      conv_rhs => rw [← List.take_append_drop j bss, List.flatten_append, List.length_append]
      omega
    have hj' : offsets[j] = (bss.take j).flatten.length := by
      rw [hoff j (by omega), List.getD_eq_getElem?_getD, List.getElem?_eq_getElem hj,
        Option.getD_some]
    have := (measure_eq_ok hm).2
    omega
  · obtain ⟨bs, T, T', hT, hnext⟩ := hroom p hp
    rw [hnext, (Build.instruction_marker hmarker hT).1, List.length_nil, Nat.add_zero]
  · obtain ⟨bs, T, T', hT, hnext⟩ := hroom p hp
    -- a conditional branch widened is its inverse and a `goto_w`
    obtain ⟨op, l, hjl⟩ : ∃ op l, insns[p] = .jump op l := by
      revert hinv
      cases insns[p] <;> simp [Instruction.invertible]
    obtain ⟨inv, hinv'⟩ : ∃ inv, op.invertedBranch? = some inv := by
      simpa [hjl, Instruction.invertible, Option.isSome_iff_exists] using hinv
    rw [hjl, hwide] at hT
    rw [hnext, Build.length_instruction_inverted hinv' hT]
  · obtain ⟨p, hp, rfl⟩ := List.getElem_of_mem hi
    obtain ⟨bs, T, T', hT, -⟩ := hroom p hp
    exact Build.instruction_targets_ok hT l hl

end Layout

namespace MethodModel

open Build PoolBuilder

variable {m : MethodModel}

theorem code_steps {S S' : PoolBuilder} {c : CodeAttribute} (h : m.code S = .ok (c, S')) :
    ∃ ps offsets wide P₁ P₂ lines frames P₃, labelPositions m.instructions = .ok ps ∧
      settle m.instructions ps (m.instructions.any Instruction.isFrame) (m.instructions.length + 1)
        [] S = .ok ((offsets, wide), P₁) ∧
      m.encodeBody ⟨offsets, ps⟩ wide P₁ = .ok ((c.code, c.handlers), P₂) ∧
      markerTables ⟨offsets, ps⟩ none m.instructions.zipIdx P₂ = .ok ((lines, frames), P₃) ∧
      markerAttributes lines frames P₃ = .ok (c.attributes, S') := by
  unfold MethodModel.code at h
  obtain ⟨ps, P₀, hlift, h₁⟩ := bind_eq_ok h
  obtain ⟨hp, rfl⟩ := lift_eq_ok hlift
  obtain ⟨⟨offsets, wide⟩, P₁, hs, h₂⟩ := bind_eq_ok h₁
  obtain ⟨⟨code, handlers⟩, P₂, he, h₃⟩ := bind_eq_ok h₂
  obtain ⟨⟨lines, frames⟩, P₃, ht, h₄⟩ := bind_eq_ok h₃
  obtain ⟨attributes, P₄, ha, h₅⟩ := bind_eq_ok h₄
  obtain ⟨rfl, rfl⟩ := pure_eq_ok h₅
  exact ⟨ps, offsets, wide, P₁, P₂, lines, frames, P₃, hp, hs, he, ht, ha⟩

theorem encodeBody_spec {lay : Layout} {wide : List Nat} {P P' : PoolBuilder} {code : List UInt8}
    {raws : List RawHandler} (hinterns : ∀ i ∈ m.instructions, i.Interns) (hP : P.Laid 0)
    (h : m.encodeBody lay wide P = .ok ((code, raws), P')) :
    ∃ bss P₁, m.instructions.zipIdx.mapM (lay.emit wide) P = .ok (bss, P₁) ∧ code = bss.flatten ∧
      P'.Laid 0 ∧ P₁.Extends P' ∧
      P'.Resolves fun r => List.Forall₂ (fun h raw => (∀ l ∈ h.targets, ∃ v, lay.labelOffset l = .ok v) ∧
        raw.start = (lay.offsetOf h.start).toUInt16 ∧ raw.«end» = (lay.offsetOf h.«end»).toUInt16 ∧
        raw.handler = (lay.offsetOf h.handler).toUInt16 ∧
        r.pool.optionalClassName raw.catchType = .ok h.catchType) m.handlers raws := by
  unfold MethodModel.encodeBody at h
  obtain ⟨bss, P₁, h₁, h₂⟩ := bind_eq_ok h
  obtain ⟨hs, P₂, h₃, h₄⟩ := bind_eq_ok h₂
  obtain ⟨hcode, rfl⟩ := pure_eq_ok h₄
  obtain ⟨rfl, rfl⟩ := Prod.mk.inj hcode
  have hspec₁ := Specified.mapM (fun q hq =>
    specified_instruction (hinterns _ (List.fst_mem_of_mem_zipIdx hq)) _ _ _) _ _ _ hP h₁
  have hmap := mapM_spec (Q := fun r h raw => (∀ l ∈ h.targets, ∃ v, lay.labelOffset l = .ok v) ∧
      raw.start = (lay.offsetOf h.start).toUInt16 ∧ raw.«end» = (lay.offsetOf h.«end»).toUInt16 ∧
      raw.handler = (lay.offsetOf h.handler).toUInt16 ∧
      r.pool.optionalClassName raw.catchType = .ok h.catchType)
    (fun hm _ S S' raw hS hw => ?_) hspec₁.laid h₃
  · exact ⟨bss, P₁, h₁, rfl, hmap.1.laid, hmap.1.grows, hmap.2⟩
  refine ⟨((Specified.lift _).bind fun _ => (Specified.lift _).bind fun _ =>
    (Specified.lift _).bind fun _ => ?_) S raw S' hS hw, ?_⟩
  · dsimp only
    split
    · exact (specified_classRef _).bind fun _ => .pure _
    · exact (Specified.pure _).bind fun _ => .pure _
  -- one handler: three offsets, then the catch type
  obtain ⟨start, S₁, hw₁, hw₂⟩ := bind_eq_ok hw
  obtain ⟨hstart, rfl⟩ := lift_eq_ok hw₁
  obtain ⟨stop, S₂, hw₃, hw₄⟩ := bind_eq_ok hw₂
  obtain ⟨hstop, rfl⟩ := lift_eq_ok hw₃
  obtain ⟨entry, S₃, hw₅, hw₆⟩ := bind_eq_ok hw₄
  obtain ⟨hentry, rfl⟩ := lift_eq_ok hw₅
  have htargets : ∀ l ∈ hm.targets, ∃ v, lay.labelOffset l = .ok v := by
    simp only [Handler.targets, List.mem_cons, List.not_mem_nil, or_false]
    rintro l (rfl | rfl | rfl)
    exacts [⟨_, hstart⟩, ⟨_, hstop⟩, ⟨_, hentry⟩]
  obtain rfl := Layout.labelOffset_eq_ok hstart
  obtain rfl := Layout.labelOffset_eq_ok hstop
  obtain rfl := Layout.labelOffset_eq_ok hentry
  -- a class reference for a caught class, 0 for any
  cases hname : hm.catchType with
  | some name =>
    simp only [hname] at hw₆
    obtain ⟨catchType, S₄, hw₇, hw₈⟩ := bind_eq_ok hw₆
    obtain ⟨rfl, rfl⟩ := pure_eq_ok hw₈
    exact fun T hT hlaid => ⟨htargets, rfl, rfl, rfl, (optionalClass_some hS hw₇).2 T hT hlaid⟩
  | none =>
    simp only [hname] at hw₆
    obtain ⟨catchType, S₄, hw₇, hw₈⟩ := bind_eq_ok hw₆
    obtain ⟨rfl, rfl⟩ := pure_eq_ok hw₇
    obtain ⟨rfl, rfl⟩ := pure_eq_ok hw₈
    exact fun _ _ _ => ⟨htargets, rfl, rfl, rfl, by simp [Pool.optionalClassName]⟩

end MethodModel

/-- A body the writer lays out so that it reads back: its instructions in the forms reading gives
them, or `goto_w` and `jsr_w`; fewer than 65536 line numbers and frames; and every full frame
with fewer than 65536 locals and stack entries. -/
structure MethodModel.Readable (m : MethodModel) : Prop where
  encodable : ∀ i ∈ m.instructions, i.Encodable
  lines : (lineView m.instructions).length < 65536
  frames : (frameView m.instructions).length < 65536
  countsFit : ∀ i ∈ m.instructions, ∀ f ∈ i.frame?, f.CountsFit

/-- What reading needs of a `Code` attribute written, resolved by `r`, for the body `insns` and
its handlers in the layout `lay` with the branches at `wide` widened: its bytes read as the
laid-out instructions; its attributes as the line table and the frames `stored`, at increasing
offsets, each at its marker's offset with its classes resolving to the marker's; every line
start placed; and each handler stored with its labels at their offsets. -/
structure CodeAttribute.Writes (c : CodeAttribute) (r : Resolver) (lay : Layout) (wide : List Nat)
    (insns : List (Instruction Label)) (handlers : List (Handler Label))
    (stored : List (Nat × Frame UInt16 UInt16)) : Prop where
  read : r.instructions c.code = .ok (emittedBody lay.offsetOf lay.offsets wide insns)
  length : c.code.length = lay.offsets.getD insns.length 0
  tables : SideTables.read r.pool {} c.attributes = .ok ⟨lay.lineTable insns, stored⟩
  starts : ∀ i ∈ insns, ∀ p ∈ i.line?, ∃ v, lay.labelOffset p.2 = .ok v
  sorted : (stored.map (·.1)).Pairwise (· < ·)
  frames : List.Forall₂ (fun q s => ∃ f, q.1 = .frame f ∧ s.1 = lay.offsets.getD q.2 0 ∧
      (∀ l ∈ f.sites, ∃ v, lay.labelOffset l = .ok v) ∧
      s.2.mapM r.pool.className pure = .ok (f.map id fun l => (lay.offsetOf l).toUInt16))
    (insns.zipIdx.filter (·.1.isFrame)) stored
  handlers : List.Forall₂ (fun h raw => (∀ l ∈ h.targets, ∃ v, lay.labelOffset l = .ok v) ∧
      raw.start = (lay.offsetOf h.start).toUInt16 ∧ raw.«end» = (lay.offsetOf h.«end»).toUInt16 ∧
      raw.handler = (lay.offsetOf h.handler).toUInt16 ∧
      r.pool.optionalClassName raw.catchType = .ok h.catchType)
    handlers c.handlers

theorem Instruction.isSome_frame? {L : Type} (i : Instruction L) : i.frame?.isSome = i.isFrame := by
  cases i <;> rfl

theorem length_frameOffsets : ∀ (previous : Option Nat) (fs : List StackMapFrame),
    (frameOffsets previous fs).length = fs.length
  | _, [] => rfl
  | _, _ :: fs => by simp [frameOffsets, length_frameOffsets _ fs]

section Counts

variable {insns : List (Instruction Label)}

theorem length_frameView : (frameView insns).length = (insns.zipIdx.filter (·.1.isFrame)).length := by
  simp [frameView, List.length_filterMap_eq_countP, List.countP_eq_length_filter,
    Instruction.isSome_frame?]

theorem Layout.length_lineTable (lay : Layout) :
    (lay.lineTable insns).length = (lineView insns).length := by
  simp [Layout.lineTable, lineView, List.length_filterMap_eq_countP]

theorem Layout.lineTable_of_entries {lay : Layout} (hbound : ∀ x ∈ lay.offsets, x < 65536) :
    (insns.zipIdx.filterMap fun q => q.1.line?.map fun p =>
        (⟨(lay.offsetOf p.2).toUInt16, p.1⟩ : RawLine)).map (fun e => (e.start.toNat, e.line)) =
      lay.lineTable insns := by
  conv_rhs => rw [Layout.lineTable, ← List.zipIdx_map_fst 0 insns, List.filterMap_map]
  rw [List.map_filterMap]
  refine List.filterMap_congr fun q _ => ?_
  simp only [Option.map_map, Function.comp_def]
  refine Option.map_congr fun p _ => ?_
  rw [UInt16.toNat_ofNat_of_lt' (Layout.offsetOf_lt hbound p.2)]

end Counts

namespace MethodModel

open Build PoolBuilder

variable {m : MethodModel}

theorem code_writes {S S' : PoolBuilder} {c : CodeAttribute} (hm : m.Readable) (hS : S.Laid 0)
    (h : m.code S = .ok (c, S')) :
    ∃ lay wide stored, lay.Valid m.instructions wide ∧
      S'.Resolves fun r => c.Writes r lay wide m.instructions m.handlers stored := by
  obtain ⟨ps, offsets, wide, P₁, P₂, lines, frames, P₃, hps, hs, he, ht, ha⟩ := m.code_steps h
  have hinterns : ∀ i ∈ m.instructions, i.Interns := fun i hi => (hm.encodable i hi).interns
  have hspec₁ := specified_settle hinterns ps _ _ [] S (offsets, wide) P₁ hS hs
  -- the loop ended on a round that laid the body out as it is emitted
  obtain ⟨k, -, hr⟩ := rounds_settle m.instructions ps (m.instructions.any Instruction.isFrame) S
  rw [hs] at hr
  obtain ⟨P₀, hmeasure, -⟩ := hr.last rfl
  obtain ⟨bss, P₁', hemit, hcode, hlaid₂, hgrows₂, hhandlers⟩ :=
    encodeBody_spec hinterns hspec₁.laid he
  obtain ⟨hv, rfl, hoff, hall⟩ := Layout.valid_of_emitted hps hmeasure hemit
  have hread := emitted_readsAt hm.encodable hspec₁.laid hemit hoff hv.bound
  have hspec₃ := specified_markerTables _ none _ P₂ _ P₃ hlaid₂ ht
  obtain ⟨hlines, hplaced, stored, htable, hrel, hres⟩ := markerTables_spec hlaid₂ ht
  -- the frames stand at offsets of the layout and their lists fit their counts
  obtain ⟨hfo, hfits, -, hsorted⟩ := frameOffsets_of_frameTable htable
    (fun x hx => by
      obtain ⟨q, -, f, -, hx1, -⟩ := exists_of_forall₂_right hrel x hx
      rw [hx1, List.getD_eq_getElem?_getD]
      cases hq : offsets[q.2]? with
      | none => simp
      | some y => exact hv.bound y (List.mem_of_getElem? hq))
    (fun x hx => by
      obtain ⟨q, hq, f, hf, -, -, hcounts⟩ := exists_of_forall₂_right hrel x hx
      exact hcounts (hm.countsFit q.1 (List.fst_mem_of_mem_zipIdx (List.mem_filter.mp hq).1) f
        (by simp [hf, Instruction.frame?])))
  have hentries : lines.map (fun e => (e.start.toNat, e.line)) =
      Layout.lineTable ⟨offsets, ps⟩ m.instructions := by
    rw [hlines]
    exact Layout.lineTable_of_entries hv.bound
  have hlinesFit : lines.length < 65536 := by
    have := congrArg List.length hentries
    rw [List.length_map, Layout.length_lineTable] at this
    exact this ▸ hm.lines
  have hframesFit : frames.length < 65536 := by
    rw [← length_frameOffsets none frames, hfo, ← hrel.length_eq, ← length_frameView]
    exact hm.frames
  have hattrs := markerAttributes_spec hlinesFit hframesFit hfits hspec₃.laid ha
  have hspec₄ := specified_markerAttributes lines frames P₃ _ S' hspec₃.laid ha
  refine ⟨⟨offsets, ps⟩, wide, stored, hv, fun T hT hlaid => ⟨?_, hcode ▸ hall, ?_,
    fun i hi p hp => ?_, hsorted, ?_, hhandlers T (hspec₃.grows.trans (hspec₄.grows.trans hT)) hlaid⟩⟩
  · rw [hcode]
    exact hread T (hgrows₂.trans (hspec₃.grows.trans (hspec₄.grows.trans hT))) hlaid
  · rw [hattrs T hT hlaid, hentries, hfo]
  · obtain ⟨k, hk, rfl⟩ := List.getElem_of_mem hi
    exact hplaced (m.instructions[k], k)
      (List.mem_zipIdx_iff_getElem?.mpr (List.getElem?_eq_getElem hk)) p hp
  · refine (forall₂_and hrel (hres T (hspec₄.grows.trans hT) hlaid)).imp fun q s hqs => ?_
    obtain ⟨⟨f, hf, hs1, hsites, -⟩, hresolve⟩ := hqs
    exact ⟨f, hf, hs1, hsites, hresolve f hf⟩

end MethodModel

theorem SideTables.mem_of_frameAt? {t : SideTables} {o : Nat} {f : Frame UInt16 UInt16}
    (h : t.frameAt? o = some f) : ∃ x ∈ t.frames, x.1 = o ∧ x.2 = f := by
  obtain ⟨x, hx, rfl⟩ := Option.map_eq_some_iff.mp h
  exact ⟨x, List.mem_reverse.mp (List.mem_of_find?_eq_some hx), by simpa using List.find?_some hx,
    rfl⟩

namespace CodeAttribute.Writes

open PoolBuilder

variable {c : CodeAttribute} {r : Resolver} {lay : Layout} {wide : List Nat}
  {insns : List (Instruction Label)} {handlers : List (Handler Label)}
  {stored : List (Nat × Frame UInt16 UInt16)}

section Tables

variable (hw : c.Writes r lay wide insns handlers stored)
include hw

theorem boundaries_eq :
    c.boundaries (emittedBody lay.offsetOf lay.offsets wide insns) =
      emittedBoundaries lay.offsetOf lay.offsets wide insns := by
  rw [boundaries, emittedBoundaries, hw.length]

theorem frameAt?_of_mem {x : Nat × Frame UInt16 UInt16} (hx : x ∈ stored) :
    SideTables.frameAt? ⟨lay.lineTable insns, stored⟩ x.1 = some x.2 := by
  have hnd : (stored.map (·.1)).Nodup := hw.sorted.imp Nat.ne_of_lt
  obtain ⟨y, hy⟩ : ∃ y, stored.reverse.find? (·.1 == x.1) = some y :=
    Option.isSome_iff_exists.mp (List.find?_isSome.mpr ⟨x, List.mem_reverse.mpr hx, by simp⟩)
  have hy1 : y.1 = x.1 := by simpa using List.find?_some hy
  have hyx : y = x :=
    List.inj_on_of_nodup_map hnd (List.mem_reverse.mp (List.mem_of_find?_eq_some hy)) hx hy1
  simp [SideTables.frameAt?, hy, hyx]

theorem stored_offset {x : Nat × Frame UInt16 UInt16} (hx : x ∈ stored) :
    ∃ p ≤ insns.length, x.1 = lay.offsets.getD p 0 := by
  obtain ⟨q, hq, -, -, hx1, -⟩ := exists_of_forall₂_right hw.frames x hx
  obtain ⟨hp, -⟩ := List.getElem?_eq_some_iff.mp
    (List.mem_zipIdx_iff_getElem?.mp (List.mem_filter.mp hq).1)
  exact ⟨q.2, hp.le, hx1⟩

variable (hv : lay.Valid insns wide)
include hv

theorem referred_offset {t : Int}
    (ht : t ∈ c.referredOffsets ⟨lay.lineTable insns, stored⟩
      (emittedBody lay.offsetOf lay.offsets wide insns)) :
    ∃ p ≤ insns.length, t = lay.offsets.getD p 0 := by
  rcases mem_referredOffsets.mp ht with ⟨e, he, ht⟩ | ⟨raw, hraw, x, hx, rfl⟩ |
    ⟨o, ho, rfl⟩ | ⟨o, -, f, hf, s, hs, rfl⟩
  · exact hv.target_emitted he ht
  · -- a handler stores the offsets of its labels
    obtain ⟨h, -, htargets, hstart, hend, hentry, -⟩ := exists_of_forall₂_right hw.handlers raw hraw
    simp only [List.mem_cons, List.not_mem_nil, or_false] at hx
    obtain ⟨l, hl, rfl⟩ : ∃ l ∈ h.targets, x = (lay.offsetOf l).toUInt16 := by
      rcases hx with rfl | rfl | rfl
      exacts [⟨h.start, by simp [Handler.targets], hstart⟩, ⟨h.«end», by simp [Handler.targets], hend⟩,
        ⟨h.handler, by simp [Handler.targets], hentry⟩]
    obtain ⟨v, hl⟩ := htargets l hl
    obtain ⟨p, hp, hpos⟩ := hv.placed_toUInt16 hl
    exact ⟨p, hp, by rw [← hpos]; rfl⟩
  · -- a line starts at the offset of its start
    obtain ⟨y, hy, rfl⟩ := List.mem_map.mp (mem_sortedDistinct.mp ho)
    obtain ⟨i, hi, hline⟩ := List.mem_filterMap.mp hy
    obtain ⟨p, hp, rfl⟩ := Option.map_eq_some_iff.mp hline
    obtain ⟨v, hstart⟩ := hw.starts i hi p hp
    obtain ⟨p', hp', hpos⟩ := hv.placed hstart
    exact ⟨p', (placeOf_lt hp').le, by rw [← hpos]; rfl⟩
  · -- a frame stores the offsets of its sites
    obtain ⟨x, hx, -, rfl⟩ := SideTables.mem_of_frameAt? hf
    obtain ⟨q, -, f₀, -, -, hsites, hresolve⟩ := exists_of_forall₂_right hw.frames x hx
    have hmap : x.2.sites = f₀.sites.map fun l => (lay.offsetOf l).toUInt16 := by
      simpa using (Frame.sites_of_mapM (k := id) hresolve).symm
    rw [hmap] at hs
    obtain ⟨l, hl, rfl⟩ := List.mem_map.mp hs
    obtain ⟨v, hl⟩ := hsites l hl
    obtain ⟨p, hp, hpos⟩ := hv.placed_toUInt16 hl
    exact ⟨p, hp, by rw [← hpos]; rfl⟩

theorem decoding :
    ∃ blocks handlers', c.Decoding r ⟨lay.lineTable insns, stored⟩
      (emittedBody lay.offsetOf lay.offsets wide insns) blocks handlers' := by
  have hmem : ∀ p ≤ insns.length,
      lay.offsets.getD p 0 ∈ c.boundaries (emittedBody lay.offsetOf lay.offsets wide insns) :=
    fun p hp => hw.boundaries_eq ▸ hv.offset_mem_boundaries hp
  obtain ⟨blocks, hblocks⟩ := exists_forall₂_of_forall₂ (R := Eq) (List.forall₂_refl _)
    (S := fun (s : Nat × Option (Instruction Int)) (b : OffsetBlock) => c.blockAt ⟨lay.lineTable insns, stored⟩
      (emittedBody lay.offsetOf lay.offsets wide insns) r s.1 s.2 = .ok b) fun s _ _ _ => by
    rw [blockAt_eq_laid]
    -- the frame at an offset is a stored one, whose classes resolve
    cases hf : SideTables.frameAt? ⟨lay.lineTable insns, stored⟩ s.1 with
    | none => exact ⟨_, by simp [SideTables.resolvedFrame, hf]; rfl⟩
    | some f =>
      obtain ⟨x, hx, -, rfl⟩ := SideTables.mem_of_frameAt? hf
      obtain ⟨q, -, f₀, -, -, -, hresolve⟩ := exists_of_forall₂_right hw.frames x hx
      exact ⟨_, by simp [SideTables.resolvedFrame, hf, hresolve]; rfl⟩
  obtain ⟨handlers', hhandlers⟩ := exists_forall₂_of_forall₂ (R := Eq) (List.forall₂_refl c.handlers)
    (S := fun (raw : RawHandler) (h' : Handler Label) => c.handlerAt ⟨lay.lineTable insns, stored⟩
      (emittedBody lay.offsetOf lay.offsets wide insns) r raw = .ok h') fun raw hraw _ _ => by
    obtain ⟨h, -, -, -, -, -, hcatch⟩ := exists_of_forall₂_right hw.handlers raw hraw
    exact ⟨_, by rw [handlerAt_eq, hcatch]; rfl⟩
  refine ⟨blocks, handlers', ⟨hw.read, checkOffsets_eq_ok.mpr fun t ht => ?_,
    checkOffsets_eq_ok.mpr fun t ht => ?_, hblocks, hhandlers⟩⟩
  · obtain ⟨o, ho, rfl⟩ := List.mem_map.mp ht
    obtain ⟨x, hx, rfl⟩ := List.mem_map.mp (mem_sortedDistinct.mp ho)
    obtain ⟨p, hp, hx1⟩ := hw.stored_offset hx
    exact ⟨Int.natCast_nonneg _, by rw [hx1]; exact hmem p hp⟩
  · obtain ⟨p, hp, rfl⟩ := hw.referred_offset hv ht
    exact ⟨Int.natCast_nonneg _, by rw [Int.toNat_natCast]; exact hmem p hp⟩

end Tables

section Views

variable {blocks : List OffsetBlock} {handlers' : List (Handler Label)}
  (hw : c.Writes r lay wide insns handlers stored)
  (D : c.Decoding r ⟨lay.lineTable insns, stored⟩ (emittedBody lay.offsetOf lay.offsets wide insns)
    blocks handlers')
include hw D

theorem emittedBoundaries_nodup : (emittedBoundaries lay.offsetOf lay.offsets wide insns).Nodup :=
  hw.boundaries_eq ▸ D.boundaries_nodup

variable (hv : lay.Valid insns wide)
include hv

theorem idxOf_offsetOf {l : Label} {v : Nat} (hl : lay.labelOffset l = .ok v) :
    (c.boundaries (emittedBody lay.offsetOf lay.offsets wide insns)).idxOf (lay.offsetOf l) =
      moved (widenedAt insns wide) (denotes insns l) := by
  obtain ⟨p, hp, hpos⟩ := hv.placed hl
  rw [hw.boundaries_eq, hpos, idxOf_placed hv.stay (hw.emittedBoundaries_nodup D) hp]

theorem idxOf_stored {l : Label} {v : Nat} (hl : lay.labelOffset l = .ok v) :
    (c.boundaries (emittedBody lay.offsetOf lay.offsets wide insns)).idxOf
        (lay.offsetOf l).toUInt16.toNat = moved (widenedAt insns wide) (denotes insns l) := by
  rw [UInt16.toNat_ofNat_of_lt' (Layout.offsetOf_lt hv.bound l), hw.idxOf_offsetOf D hv hl]

theorem instructionView_eq_readBack :
    instructionView (blocks.map OffsetBlock.elements).flatten =
      readBack (widenedAt insns wide) (instructionView insns) := by
  rw [D.instructionView_eq, hw.boundaries_eq]
  exact map_emittedBody hv.stay (hw.emittedBoundaries_nodup D) hv.widen hv.targets_placed

theorem frameView_eq_moved :
    frameView (blocks.map OffsetBlock.elements).flatten = (frameView insns).map
      (Prod.map (moved (widenedAt insns wide)) (Frame.map id (moved (widenedAt insns wide)))) := by
  let W := widenedAt insns wide
  let B := c.boundaries (emittedBody lay.offsetOf lay.offsets wide insns)
  let tables : SideTables := ⟨lay.lineTable insns, stored⟩
  -- the classes of a stored frame resolve
  let K : Frame UInt16 UInt16 → Frame String UInt16 := fun f =>
    (f.mapM r.pool.className pure).toOption.getD (f.map (fun _ => "") id)
  have hK : ∀ o f, tables.frameAt? o = some f → f.mapM r.pool.className pure = .ok (K f) := by
    intro o f hf
    obtain ⟨x, hx, -, rfl⟩ := SideTables.mem_of_frameAt? hf
    obtain ⟨q, -, f₀, -, -, -, hresolve⟩ := exists_of_forall₂_right hw.frames x hx
    simp [K, hresolve, Except.toOption]
  let G : Nat × Frame UInt16 UInt16 → Nat × Frame String Nat := fun x =>
    (B.idxOf x.1, (K x.2).map id fun s => B.idxOf s.toNat)
  have hstored : B.filterMap (fun o => (tables.frameAt? o).map ((o, ·))) = stored :=
    filterMap_lookup D.boundaries_pairwise hw.sorted
      (fun x hx => by
        obtain ⟨p, hp, hx1⟩ := hw.stored_offset hx
        show x.1 ∈ c.boundaries _
        rw [hx1, hw.boundaries_eq]
        exact hv.offset_mem_boundaries hp)
      (fun x hx => hw.frameAt?_of_mem hx)
      (fun o _ v hf => by
        obtain ⟨x, hx, hx1, -⟩ := SideTables.mem_of_frameAt? hf
        exact ⟨x, hx, hx1⟩)
  calc frameView (blocks.map OffsetBlock.elements).flatten
      = B.filterMap fun o => (tables.frameAt? o).map fun f =>
          (B.idxOf o, (K f).map id fun s => B.idxOf s.toNat) := by
        rw [D.frameView_eq hK, zipIdx_eq_map_idxOf D.boundaries_nodup, List.filterMap_map]
        rfl
    -- read back, the frames are the stored ones in order, each at the rank of its offset
    _ = (B.filterMap fun o => (tables.frameAt? o).map ((o, ·))).map G := by
        rw [List.map_filterMap]
        simp only [Option.map_map]
        rfl
    _ = stored.map G := by rw [hstored]
    -- written, each frame marker gave the stored frame at its place
    _ = (insns.zipIdx.filter (·.1.isFrame)).filterMap fun q => q.1.frame?.map fun f =>
          (moved W (realsBefore insns q.2), f.map id (moved W ∘ denotes insns)) := by
        refine (filterMap_eq_map_of_forall₂ hw.frames fun q hq x hqx => ?_).symm
        obtain ⟨f, hf, hx1, hsites, hresolve⟩ := hqx
        obtain ⟨hp, -⟩ := List.getElem?_eq_some_iff.mp
          (List.mem_zipIdx_iff_getElem?.mp (List.mem_filter.mp hq).1)
        have hKx : K x.2 = f.map id fun l => (lay.offsetOf l).toUInt16 := by
          simp [K, hresolve, Except.toOption]
        rw [hf]
        simp only [Instruction.frame?, Option.map_some, Option.some.injEq, G, hKx, Frame.map_map]
        refine Prod.ext ?_ (Frame.map_congr fun l hl => ?_)
        · show _ = (c.boundaries _).idxOf x.1
          rw [hx1, hw.boundaries_eq, idxOf_offset hv.stay (hw.emittedBoundaries_nodup D) hp.le]
        · obtain ⟨v, hl⟩ := hsites l hl
          exact (hw.idxOf_stored D hv hl).symm
    _ = (frameView insns).map (Prod.map (moved W) (Frame.map id (moved W))) := by
        rw [List.filterMap_filter, frameView, List.map_filterMap]
        refine List.filterMap_congr fun q _ => ?_
        obtain ⟨i, k⟩ := q
        cases i <;> simp [Instruction.frame?, Instruction.isFrame, Frame.map_map]

theorem lineView_perm_moved :
    (lineView (blocks.map OffsetBlock.elements).flatten).Perm
      ((lineView insns).map (Prod.map id (moved (widenedAt insns wide)))) := by
  let B := c.boundaries (emittedBody lay.offsetOf lay.offsets wide insns)
  let tables : SideTables := ⟨lay.lineTable insns, stored⟩
  have hgroup : (B.flatMap fun o => (tables.linesAt o).map fun line => (line, B.idxOf o)) =
      (B.flatMap fun o => (lay.lineTable insns).filter (·.1 == o)).map
        fun x => (x.2, B.idxOf x.1) := by
    rw [List.map_flatMap]
    refine List.flatMap_congr fun o _ => ?_
    rw [SideTables.linesAt, List.map_map]
    refine List.map_congr_left fun x hx => ?_
    have hxo : x.1 = o := by simpa using (List.mem_filter.mp hx).2
    simp [hxo]
  have hwritten : (lineView insns).map (Prod.map id (moved (widenedAt insns wide))) =
      (lay.lineTable insns).map fun x => (x.2, B.idxOf x.1) := by
    rw [lineView, Layout.lineTable, List.map_filterMap, List.map_filterMap]
    refine List.filterMap_congr fun i hi => ?_
    simp only [Option.map_map]
    refine Option.map_congr fun p hp => ?_
    obtain ⟨v, hstart⟩ := hw.starts i hi p hp
    exact congrArg (Prod.mk p.1) (hw.idxOf_offsetOf D hv hstart).symm
  rw [D.lineView_eq, hgroup, hwritten]
  refine (perm_flatMap_filter_key D.boundaries_nodup fun x hx => ?_).map _
  -- every line starts at the offset of a position
  obtain ⟨i, hi, hline⟩ := List.mem_filterMap.mp hx
  obtain ⟨p, hp, rfl⟩ := Option.map_eq_some_iff.mp hline
  obtain ⟨v, hstart⟩ := hw.starts i hi p hp
  obtain ⟨p', hp', hpos⟩ := hv.placed hstart
  show lay.offsetOf p.2 ∈ c.boundaries _
  rw [hpos, hw.boundaries_eq]
  exact hv.offset_mem_boundaries (placeOf_lt hp').le

theorem handlerView_eq_moved :
    handlerView (blocks.map OffsetBlock.elements).flatten handlers' =
      (handlerView insns handlers).map (Handler.mapLabels (moved (widenedAt insns wide))) := by
  rw [handlerView, handlerView, List.map_map]
  refine map_eq_map_of_forall₂ (forall₂_comp hw.handlers D.labelledHandlers)
    fun h _ h' _ hcomp => ?_
  obtain ⟨raw, hraw, hstored, hh⟩ := hcomp
  obtain ⟨htargets, hstart, hend, hentry, hcatch⟩ := hstored
  obtain ⟨hmap, hcatch'⟩ := D.handler_mapLabels hraw hh
  have hlabel : ∀ l ∈ h.targets, (c.boundaries (emittedBody lay.offsetOf lay.offsets wide insns)).idxOf
      (lay.offsetOf l).toUInt16.toNat = moved (widenedAt insns wide) (denotes insns l) := by
    intro l hl
    obtain ⟨v, hl⟩ := htargets l hl
    exact hw.idxOf_stored D hv hl
  rw [hmap, hstart, hend, hentry, Except.ok.inj (hcatch'.symm.trans hcatch),
    hlabel _ (by simp [Handler.targets]), hlabel _ (by simp [Handler.targets]),
    hlabel _ (by simp [Handler.targets])]
  rfl

end Views

end CodeAttribute.Writes

/-- A body `insns` with the handlers `handlers` simulates the method `m`: its instructions are the
method's as `readBack` gives them for a set `W` of the method's conditional branches, each read as
its inverse to the next instruction and a `goto` to its target; its frames and handlers are the
method's, every index moved to where its instruction lands; and its line numbers are the method's
in another order, moved likewise, each right before the instruction its start denotes. -/
def MethodModel.SimulatedBy (m : MethodModel) (insns : List (Instruction Label))
    (handlers : List (Handler Label)) : Prop :=
  ∃ W : List Nat, (∀ k ∈ W, ∃ op t, (instructionView m.instructions)[k]? = some (.jump op t) ∧
      op.invertedBranch?.isSome = true) ∧
    instructionView insns = readBack W (instructionView m.instructions) ∧
    frameView insns = (frameView m.instructions).map (Prod.map (moved W) (Frame.map id (moved W))) ∧
    (lineView insns).Perm ((lineView m.instructions).map (Prod.map id (moved W))) ∧
    LinesAtStart insns ∧
    handlerView insns handlers = (handlerView m.instructions m.handlers).map
      (Handler.mapLabels (moved W))

/-- A readable body written as a `Code` attribute reads back, from every pool extending the one
the writer leaves, without flags, as a body that simulates it. -/
theorem MethodModel.code_readsBack {m : MethodModel} {S S' : PoolBuilder} {c : CodeAttribute}
    (hm : m.Readable) (hS : S.Laid 0) (h : m.code S = .ok (c, S')) :
    S'.Resolves fun r => ∃ insns handlers, c.body r {} = .ok (insns, handlers) ∧
      m.SimulatedBy insns handlers := by
  obtain ⟨lay, wide, stored, hv, hwrites⟩ := m.code_writes hm hS h
  intro T hT hlaid
  have hw := hwrites T hT hlaid
  obtain ⟨blocks, handlers', D⟩ := hw.decoding hv
  exact ⟨_, handlers', CodeAttribute.body_eq_ok_of_decoding hw.tables D, widenedAt m.instructions wide,
    fun k hk => mem_widenedAt hk, hw.instructionView_eq_readBack D hv, hw.frameView_eq_moved D hv,
    hw.lineView_perm_moved D hv, D.linesAtStart, hw.handlerView_eq_moved D hv⟩

theorem coveredLoop_code_readsBack :
    (coveredLoop ⟨0⟩ ⟨1⟩ 1).Readable ∧ coveredLoopPool.Resolves fun r => ∃ insns handlers,
      (coveredLoopCode 1).body r {} = .ok (insns, handlers) ∧
      (coveredLoop ⟨0⟩ ⟨1⟩ 1).SimulatedBy insns handlers := by
  have hm : (coveredLoop ⟨0⟩ ⟨1⟩ 1).Readable := by
    refine ⟨fun i hi => ?_, by decide, by decide, by simp [coveredLoop, Instruction.frame?]⟩
    simp only [coveredLoop, List.mem_cons, List.not_mem_nil, or_false] at hi
    rcases hi with rfl | rfl | rfl | rfl
    · exact .inl trivial
    · exact .inl trivial
    · exact .inl (show Opcode.isShortJump Opcode.goto.code = true by decide)
    · exact .inl trivial
  exact ⟨hm, MethodModel.code_readsBack hm PoolBuilder.laid_empty rfl⟩

end ClassPatch
