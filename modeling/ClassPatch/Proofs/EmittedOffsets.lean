import ClassPatch.Proofs.DecodedViews

namespace ClassPatch

namespace Instruction

variable {L : Type}

def invertible : Instruction L → Bool
  | .jump op _ => op.invertedBranch?.isSome
  | _ => false

theorem not_marker_of_invertible {i : Instruction L} (h : i.invertible = true) :
    i.isMarker = false := by
  cases i <;> simp_all [invertible, isMarker, opcode?]

variable {pos : Label → Nat} {o : Nat} {w : Bool}

theorem length_emitted (i : Instruction Label) :
    (i.emitted pos o w).length = if i.isMarker then 0 else if w && i.invertible then 2 else 1 := by
  cases i
  case jump op t =>
    cases w <;> cases h : op.invertedBranch? <;> simp [emitted, invertible, isMarker, opcode?, h]
  all_goals simp [emitted, invertible, isMarker, opcode?]

theorem head?_emitted {i : Instruction Label} (h : i.isMarker = false) :
    (i.emitted pos o w).head?.map Prod.fst = some o := by
  cases i
  case jump op t => cases w <;> cases hi : op.invertedBranch? <;> simp [emitted, hi]
  all_goals simp_all [emitted]

end Instruction

namespace Build

variable {o : Nat} {w : Bool} {lo : Label → Except FormatError Nat} {S S' : PoolBuilder}
  {bs : List UInt8}

theorem forall₂_of_mapM {α β : Type} {g : α → Build β} :
    ∀ {l : List α} {S S' : PoolBuilder} {ys : List β}, l.mapM g S = .ok (ys, S') →
      List.Forall₂ (fun a b => ∃ T T', g a T = .ok (b, T')) l ys
  | [], _, _, _, h => by
    rw [List.mapM_nil] at h
    obtain ⟨rfl, -⟩ := pure_eq_ok h
    exact .nil
  | a :: l, _, _, _, h => by
    rw [List.mapM_cons] at h
    obtain ⟨b, S₁, h₁, h₂⟩ := bind_eq_ok h
    obtain ⟨ys, S₂, h₃, h₄⟩ := bind_eq_ok h₂
    obtain ⟨rfl, -⟩ := pure_eq_ok h₄
    exact .cons ⟨_, _, h₁⟩ (forall₂_of_mapM h₃)

theorem instruction_marker {i : Instruction Label} (hi : i.isMarker = true)
    (h : instruction i o w lo S = .ok (bs, S')) : bs = [] ∧ S' = S := by
  cases i <;> simp [Instruction.isMarker, Instruction.opcode?] at hi
  all_goals
    unfold instruction at h
    exact pure_eq_ok h

theorem length_instruction_inverted {op inv : Opcode} {l : Label}
    (hinv : op.invertedBranch? = some inv) (h : instruction (.jump op l) o true lo S = .ok (bs, S')) :
    bs.length = 8 := by
  unfold instruction at h
  obtain ⟨target, S₁, -, h⟩ := bind_eq_ok h
  simp only [hinv] at h
  obtain ⟨rfl, -⟩ := pure_eq_ok h
  simp

end Build

theorem Layout.offsetsFrom_length {wide : List Nat} :
    ∀ (L : List (Instruction Label × Nat)) (off : Nat) {S : PoolBuilder} {os : List Nat}
      {S' : PoolBuilder}, offsetsFrom wide off L S = .ok (os, S') → os.length = L.length + 1
  | [], off, S, os, S', h => by
    cases h
    rfl
  | (i, p) :: rest, off, S, os, S', h => by
    obtain ⟨bytes, S₁, -, h₂⟩ := Build.bind_eq_ok h
    obtain ⟨more, S₂, h₃, h₄⟩ := Build.bind_eq_ok h₂
    cases h₄
    simp [Layout.offsetsFrom_length rest _ h₃]

section Reals

variable {L : Type} {insns : List (Instruction L)}

theorem realsBefore_mono {m n : Nat} (h : m ≤ n) : realsBefore insns m ≤ realsBefore insns n :=
  (List.take_sublist_take_left h).countP_le

theorem realsBefore_lt {p q : Nat} (hpq : p < q) (hp : p < insns.length)
    (hreal : insns[p].isMarker = false) : realsBefore insns p < realsBefore insns q := by
  have hsucc := realsBefore_succ hp
  rw [hreal, if_neg (by simp)] at hsucc
  have hmono : realsBefore insns (p + 1) ≤ realsBefore insns q := realsBefore_mono hpq
  omega

theorem getElem?_filter_realsBefore {p : Nat} (hp : p < insns.length)
    (hreal : insns[p].isMarker = false) :
    (insns.filter (!·.isMarker))[realsBefore insns p]? = some insns[p] := by
  have hsplit : insns.filter (!·.isMarker) =
      (insns.take p).filter (!·.isMarker) ++ insns[p] :: (insns.drop (p + 1)).filter (!·.isMarker) := by
    conv_lhs => rw [← List.take_append_drop p insns, List.drop_eq_getElem_cons hp]
    rw [List.filter_append, List.filter_cons_of_pos (by simp [hreal])]
  rw [hsplit, realsBefore, List.countP_eq_length_filter, List.getElem?_append_right le_rfl,
    Nat.sub_self, List.getElem?_cons_zero]

end Reals

def widenedAt (insns : List (Instruction Label)) (wide : List Nat) : List Nat :=
  ((insns.zipIdx.filter fun q => wide.contains q.2 && q.1.invertible).map
    fun q => realsBefore insns q.2).dedup

def emittedBody (pos : Label → Nat) (offsets wide : List Nat) (insns : List (Instruction Label)) :
    List (Nat × Instruction Int) :=
  insns.zipIdx.flatMap fun q => q.1.emitted pos (offsets.getD q.2 0) (wide.contains q.2)

def emittedBoundaries (pos : Label → Nat) (offsets wide : List Nat)
    (insns : List (Instruction Label)) : List Nat :=
  (emittedBody pos offsets wide insns).map Prod.fst ++ [offsets.getD insns.length 0]

section Ranks

variable {insns : List (Instruction Label)} {pos : Label → Nat} {offsets wide : List Nat}

theorem widenedAt_nodup : (widenedAt insns wide).Nodup := List.nodup_dedup _

theorem realsBefore_mem_widenedAt {p : Nat} (hp : p < insns.length)
    (hreal : insns[p].isMarker = false) :
    realsBefore insns p ∈ widenedAt insns wide ↔
      wide.contains p = true ∧ insns[p].invertible = true := by
  simp only [widenedAt, List.mem_dedup, List.mem_map, List.mem_filter, Bool.and_eq_true]
  constructor
  · rintro ⟨⟨i, k⟩, ⟨hq, hwide, hinv⟩, hcount⟩
    dsimp only at hwide hinv hcount
    obtain ⟨hk, hki⟩ := List.getElem?_eq_some_iff.mp (List.mem_zipIdx_iff_getElem?.mp hq)
    dsimp only at hk hki
    subst hki
    -- two instructions at different positions are counted differently
    have hkp : k = p := by
      have hk' := Instruction.not_marker_of_invertible hinv
      rcases Nat.lt_trichotomy k p with hlt | heq | hgt
      · exact absurd hcount (realsBefore_lt hlt hk hk').ne
      · exact heq
      · exact absurd hcount (realsBefore_lt hgt hp hreal).ne'
    subst hkp
    exact ⟨hwide, hinv⟩
  · rintro ⟨hwide, hinv⟩
    exact ⟨(insns[p], p), ⟨List.mem_zipIdx_iff_getElem?.mpr (List.getElem?_eq_getElem hp),
      hwide, hinv⟩, rfl⟩

theorem emittedBody_take_prefix (p : Nat) :
    emittedBody pos offsets wide (insns.take p) <+: emittedBody pos offsets wide insns := by
  obtain ⟨R, hR⟩ : ∃ R, insns.zipIdx = (insns.take p).zipIdx ++ R :=
    ⟨_, by conv_lhs => rw [← List.take_append_drop p insns, List.zipIdx_append]⟩
  exact ⟨_, by rw [emittedBody, emittedBody, hR, List.flatMap_append]⟩

theorem emittedBody_take_succ {p : Nat} (hp : p < insns.length) :
    emittedBody pos offsets wide (insns.take (p + 1)) = emittedBody pos offsets wide (insns.take p) ++
      insns[p].emitted pos (offsets.getD p 0) (wide.contains p) := by
  have hlen : (insns.take p).length = p := List.length_take_of_le hp.le
  rw [emittedBody, emittedBody, List.take_add_one, List.getElem?_eq_getElem hp, Option.toList_some,
    List.zipIdx_append, List.flatMap_append, hlen]
  simp

theorem length_emittedBody_take :
    ∀ p ≤ insns.length, (emittedBody pos offsets wide (insns.take p)).length =
      moved (widenedAt insns wide) (realsBefore insns p)
  | 0, _ => by simp [emittedBody, moved, realsBefore]
  | p + 1, hp => by
    have hlt : p < insns.length := hp
    rw [emittedBody_take_succ hlt, List.length_append, length_emittedBody_take p hlt.le,
      Instruction.length_emitted, realsBefore_succ hlt]
    cases hreal : insns[p].isMarker
    · -- an instruction lands once more after a widened branch
      simp only [Bool.false_eq_true, if_false]
      rw [moved_succ widenedAt_nodup]
      by_cases hw : wide.contains p = true ∧ insns[p].invertible = true
      · rw [if_pos ((realsBefore_mem_widenedAt hlt hreal).mpr hw), hw.1, hw.2, Bool.and_self,
          if_pos rfl]
      · rw [if_neg fun h => hw ((realsBefore_mem_widenedAt hlt hreal).mp h),
          if_neg (by simpa using hw)]
    · simp

variable (hstay : ∀ p (hp : p < insns.length), insns[p].isMarker = true →
  offsets.getD (p + 1) 0 = offsets.getD p 0)
include hstay

theorem getElem?_boundaries :
    ∀ d p, p + d = insns.length →
      (emittedBoundaries pos offsets wide insns)[
        (emittedBody pos offsets wide (insns.take p)).length]? = some (offsets.getD p 0)
  | 0, p, hp => by
    obtain rfl : p = insns.length := hp
    rw [emittedBoundaries, List.take_length, List.getElem?_append_right (by simp)]
    simp
  | d + 1, p, hp => by
    have hlt : p < insns.length := by omega
    cases hreal : insns[p].isMarker
    · -- an instruction is read first at its offset
      obtain ⟨R, hR⟩ : emittedBody pos offsets wide (insns.take (p + 1)) <+:
          emittedBody pos offsets wide insns := emittedBody_take_prefix (p + 1)
      rw [emittedBody_take_succ hlt] at hR
      have hhead : (insns[p].emitted pos (offsets.getD p 0) (wide.contains p)).head?.map
          Prod.fst = some (offsets.getD p 0) := Instruction.head?_emitted hreal
      have hne : insns[p].emitted pos (offsets.getD p 0) (wide.contains p) ≠ [] := fun h => by
        rw [h] at hhead
        simp at hhead
      obtain ⟨e, rest, he⟩ := List.exists_cons_of_ne_nil hne
      rw [he, List.head?_cons, Option.map_some, Option.some.injEq] at hhead
      rw [emittedBoundaries, ← hR, he, List.append_assoc, List.map_append, List.append_assoc,
        List.getElem?_append_right (by simp), List.length_map, Nat.sub_self]
      simp [hhead]
    · -- a marker reads as nothing and takes no bytes
      have hnext := getElem?_boundaries d (p + 1) (by omega)
      rw [emittedBody_take_succ hlt, List.length_append, Instruction.length_emitted, hreal,
        if_pos rfl, Nat.add_zero, hstay p hlt hreal] at hnext
      exact hnext

variable (hB : (emittedBoundaries pos offsets wide insns).Nodup)
include hB

theorem idxOf_offset {p : Nat} (hp : p ≤ insns.length) :
    (emittedBoundaries pos offsets wide insns).idxOf (offsets.getD p 0) =
      moved (widenedAt insns wide) (realsBefore insns p) := by
  have hget : (emittedBoundaries pos offsets wide insns)[
      (emittedBody pos offsets wide (insns.take p)).length]? = some (offsets.getD p 0) :=
    getElem?_boundaries hstay (insns.length - p) p (by omega)
  obtain ⟨hlt, heq⟩ := List.getElem?_eq_some_iff.mp hget
  rw [← heq, hB.idxOf_getElem, length_emittedBody_take p hp]

theorem idxOf_placed {l : Label} {p : Nat} (hl : placeOf insns l = some p) :
    (emittedBoundaries pos offsets wide insns).idxOf (offsets.getD p 0) =
      moved (widenedAt insns wide) (denotes insns l) := by
  have hp : p < insns.length := placeOf_lt hl
  rw [idxOf_offset hstay hB hp.le, denotes, hl, Option.getD_some]

variable (hwiden : ∀ p (hp : p < insns.length), wide.contains p = true →
    insns[p].invertible = true → offsets.getD (p + 1) 0 = offsets.getD p 0 + 8)
  (hpos : ∀ i ∈ insns, ∀ l ∈ i.targets, ∃ p, placeOf insns l = some p ∧ pos l = offsets.getD p 0)
include hwiden hpos

theorem map_emitted_eq {p : Nat} (hp : p < insns.length) :
    (insns[p].emitted pos (offsets.getD p 0) (wide.contains p)).map
        (fun e => e.2.mapLabels fun t => (emittedBoundaries pos offsets wide insns).idxOf t.toNat) =
      if insns[p].isMarker then [] else
        readBackAt (widenedAt insns wide) (realsBefore insns p) (insns[p].mapLabels (denotes insns)) := by
  -- a target is named by the rank of where it is placed
  have htargets : ∀ l ∈ insns[p].targets, (emittedBoundaries pos offsets wide insns).idxOf (pos l) =
      moved (widenedAt insns wide) (denotes insns l) := by
    intro l hl
    obtain ⟨p', hp', hpos'⟩ := hpos _ (List.getElem_mem hp) l hl
    rw [hpos', idxOf_placed hstay hB hp']
  by_cases hjump : ∃ op t, insns[p] = .jump op t
  · obtain ⟨op, t, hjt⟩ := hjump
    have hreal : insns[p].isMarker = false := by rw [hjt]; rfl
    have ht := htargets t (by simp [hjt, Instruction.targets])
    rw [if_neg (by simp [hreal])]
    by_cases hw : wide.contains p = true ∧ op.invertedBranch?.isSome = true
    · -- a widened conditional branch reads as its inverse to the next instruction and a `goto`
      obtain ⟨inv, hinv⟩ := Option.isSome_iff_exists.mp hw.2
      have hinvertible : insns[p].invertible = true := by simp [hjt, Instruction.invertible, hinv]
      have hmem := (realsBefore_mem_widenedAt hp hreal).mpr ⟨hw.1, hinvertible⟩
      have hnext := idxOf_offset hstay hB (show p + 1 ≤ insns.length from hp)
      rw [hwiden p hp hw.1 hinvertible, realsBefore_succ hp, hreal, if_neg (by simp)] at hnext
      simp only [hjt, hw.1, Instruction.emitted_inverted hinv, Instruction.mapLabels,
        readBackAt_inverted hmem hinv, List.map_cons, List.map_nil, Int.toNat_natCast, hnext, ht]
    · have hnone : wide.contains p = true → op.invertedBranch? = none := fun hc =>
        Option.not_isSome_iff_eq_none.mp fun hs => hw ⟨hc, hs⟩
      have hout : realsBefore insns p ∈ widenedAt insns wide → op.invertedBranch? = none :=
        fun hmem => hnone ((realsBefore_mem_widenedAt hp hreal).mp hmem).1
      simp only [hjt, Instruction.emitted_jump hnone, Instruction.mapLabels, readBackAt_jump hout,
        List.map_cons, List.map_nil, Int.toNat_natCast, ht]
  · push Not at hjump
    rw [Instruction.emitted_of_not_jump hjump]
    by_cases hmarker : insns[p].isMarker = true
    · rw [if_pos hmarker, if_pos hmarker, List.map_nil]
    · -- every other instruction reads as itself, its labels at the offsets of their places
      have hreal : insns[p].isMarker = false := by simpa using hmarker
      rw [if_neg hmarker, if_neg hmarker, readBackAt_mapLabels hjump, List.map_cons, List.map_nil,
        Instruction.mapLabels_mapLabels]
      congr 1
      refine Instruction.mapLabels_congr (fun l hl => ?_) fun l hl => ?_
      · rw [Instruction.label?_of_not_marker hreal] at hl
        cases hl
      · rw [Instruction.references_of_not_marker hreal] at hl
        simp only [Function.comp_apply, Int.toNat_natCast]
        exact htargets l hl

theorem map_emittedBody :
    (emittedBody pos offsets wide insns).map
        (fun e => e.2.mapLabels fun t => (emittedBoundaries pos offsets wide insns).idxOf t.toNat) =
      readBack (widenedAt insns wide) (instructionView insns) := by
  have hview : readBack (widenedAt insns wide) (instructionView insns) =
      insns.zipIdx.flatMap fun q => if q.1.isMarker then [] else
        readBackAt (widenedAt insns wide) (realsBefore insns q.2) (q.1.mapLabels (denotes insns)) := by
    rw [flatMap_zipIdx_reals fun k i => readBackAt (widenedAt insns wide) k (i.mapLabels (denotes insns)),
      readBack, instructionView, List.zipIdx_map, List.flatMap_map]
    rfl
  rw [hview, emittedBody, List.map_flatMap]
  refine List.flatMap_congr fun q hq => ?_
  obtain ⟨hp, hq1⟩ := List.getElem?_eq_some_iff.mp (List.mem_zipIdx_iff_getElem?.mp hq)
  rw [← hq1]
  exact map_emitted_eq hstay hB hwiden hpos hp

end Ranks

end ClassPatch
