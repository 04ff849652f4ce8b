import ClassPatch.Proofs.CodeInterning
import ClassPatch.Proofs.WideningLoop
import ClassPatch.Proofs.ClassRoundTrip

namespace ClassPatch

namespace Opcode

def narrowed (op : Opcode) : Opcode :=
  if op == gotoWide then goto else if op == jsrWide then jsr else op

theorem narrowed_of_not_wide {op : Opcode} (h : op.isWideJump = false) : op.narrowed = op := by
  simp only [isWideJump, Bool.or_eq_false_iff, beq_eq_false_iff_ne] at h
  simp [narrowed, h.1, h.2]

section Inverses

set_option maxRecDepth 8192

-- the inverse of a conditional branch is a conditional branch again
theorem inverted_shortJump (c : UInt8) :
    ((⟨c⟩ : Opcode).invertedBranch?.all fun inv => isShortJump inv.code) = true := by
  revert c
  decide

end Inverses

theorem isShortJump_of_inverted {op inv : Opcode} (h : op.invertedBranch? = some inv) :
    isShortJump inv.code = true := by
  have := inverted_shortJump op.code
  rw [show (⟨op.code⟩ : Opcode) = op from rfl, h] at this
  simpa using this

end Opcode

namespace Instruction

def Encodable {L : Type} (i : Instruction L) : Prop :=
  i.Decodable ∨ ∃ op t, i = .jump op t ∧ op.isWideJump = true

theorem Encodable.interns {L : Type} {i : Instruction L} (h : i.Encodable) : i.Interns := by
  rcases h with h | ⟨op, t, rfl, -⟩
  · exact h.interns
  · trivial

def emitted (pos : Label → Nat) (o : Nat) (w : Bool) : Instruction Label → List (Nat × Instruction Int)
  | .jump op t =>
    match w, op.invertedBranch? with
    | true, some inv =>
      [(o, .jump inv ((o + 8 : Nat) : Int)), (o + 3, .jump Opcode.goto (pos t : Int))]
    | _, _ => [(o, .jump op.narrowed (pos t : Int))]
  | i => if i.isMarker then [] else [(o, i.mapLabels fun l => (pos l : Int))]

variable {pos : Label → Nat} {o : Nat} {w : Bool}

theorem emitted_inverted {op inv : Opcode} {t : Label} (h : op.invertedBranch? = some inv) :
    (Instruction.jump op t).emitted pos o true =
      [(o, .jump inv ((o + 8 : Nat) : Int)), (o + 3, .jump Opcode.goto (pos t : Int))] := by
  simp [emitted, h]

theorem emitted_jump {op : Opcode} {t : Label} (h : w = true → op.invertedBranch? = none) :
    (Instruction.jump op t).emitted pos o w = [(o, .jump op.narrowed (pos t : Int))] := by
  cases w
  · rfl
  · simp [emitted, h rfl]

theorem emitted_of_not_jump {i : Instruction Label} (h : ∀ op t, i ≠ .jump op t) :
    i.emitted pos o w = if i.isMarker then [] else [(o, i.mapLabels fun l => (pos l : Int))] := by
  cases i
  case jump op t => exact absurd rfl (h op t)
  all_goals rfl

end Instruction

namespace Resolver

variable {r : Resolver}

theorem instructionsFrom_fuel {length : Nat} :
    ∀ {fuel₁ fuel₂ : Nat} {input : List UInt8}, input.length ≤ fuel₁ → input.length ≤ fuel₂ →
      r.instructionsFrom length fuel₁ input = r.instructionsFrom length fuel₂ input
  | 0, fuel₂, input, h₁, _ => by
    obtain rfl : input = [] := List.eq_nil_of_length_eq_zero (by omega)
    cases fuel₂ <;> rfl
  | _ + 1, fuel₂, [], _, _ => by cases fuel₂ <;> rfl
  | _ + 1, 0, _ :: _, _, h₂ => by simp at h₂
  | fuel₁ + 1, fuel₂ + 1, b :: more, h₁, h₂ => by
    simp only [instructionsFrom]
    cases hrun : (r.instructionAt (length - (b :: more).length)).run (b :: more) with
    | error e => rfl
    | ok p =>
      obtain ⟨i, rest⟩ := p
      have hlt := instructionAt_shrinks hrun
      simp only [List.length_cons] at h₁ h₂ hlt
      simp only [Except.ok_bind]
      rw [instructionsFrom_fuel (show rest.length ≤ fuel₁ by omega)
        (show rest.length ≤ fuel₂ by omega)]

def ReadsAt (r : Resolver) (o : Nat) (bs : List UInt8) (ds : List (Nat × Instruction Int)) : Prop :=
  ∀ rest length, o + (bs ++ rest).length = length →
    r.instructionsFrom length (bs ++ rest).length (bs ++ rest) =
      (fun more => ds ++ more) <$> r.instructionsFrom length rest.length rest

namespace ReadsAt

variable {o : Nat} {bs bs' : List UInt8} {ds ds' : List (Nat × Instruction Int)}

theorem nil : r.ReadsAt o [] [] := fun rest length _ => by
  simp only [List.nil_append]
  cases r.instructionsFrom length rest.length rest <;> rfl

theorem single {i : Instruction Int} (hr : Reader.Reads (r.instructionAt o) bs i) :
    r.ReadsAt o bs [(o, i)] := by
  intro rest length hlen
  have hrun : (r.instructionAt o).run (bs ++ rest) = .ok (i, rest) := hr rest
  -- an instruction takes a byte at least, so the input is not empty
  obtain ⟨b, more, hbm⟩ : ∃ b more, bs ++ rest = b :: more := by
    have := instructionAt_shrinks hrun
    cases h : bs ++ rest with
    | nil => simp [h] at this
    | cons b more => exact ⟨b, more, rfl⟩
  have hoff : length - (more.length + 1) = o := by
    have := congrArg List.length hbm
    simp only [List.length_cons] at this
    omega
  have hlt : rest.length ≤ more.length := by
    have := instructionAt_shrinks hrun
    simp only [hbm, List.length_cons] at this
    omega
  rw [hbm] at hrun ⊢
  simp only [instructionsFrom, List.length_cons, hoff, hrun, Except.ok_bind]
  rw [instructionsFrom_fuel hlt le_rfl]
  cases r.instructionsFrom length rest.length rest <;> rfl

theorem append (h₁ : r.ReadsAt o bs ds) (h₂ : r.ReadsAt (o + bs.length) bs' ds') :
    r.ReadsAt o (bs ++ bs') (ds ++ ds') := by
  intro rest length hlen
  rw [List.append_assoc] at hlen ⊢
  rw [h₁ (bs' ++ rest) length hlen, h₂ rest length (by simp at hlen ⊢; omega)]
  cases r.instructionsFrom length rest.length rest <;> simp [Functor.map, Except.map]

end ReadsAt

theorem readsAt_flatten {α : Type} {G : α → Nat} {E : α → List (Nat × Instruction Int)} :
    ∀ {items : List α} {bss : List (List UInt8)} {o : Nat},
      List.Forall₂ (fun q bs => r.ReadsAt (G q) bs (E q)) items bss →
      (∀ j (hj : j < items.length), G items[j] = o + (bss.take j).flatten.length) →
      r.ReadsAt o bss.flatten (items.flatMap E)
  | [], [], _, .nil, _ => ReadsAt.nil
  | q :: items, bs :: bss, o, .cons hq hrest, hG => by
    have hfirst : G q = o := by
      have := hG 0 (by simp)
      rw [List.getElem_cons_zero] at this
      simpa using this
    rw [hfirst] at hq
    rw [List.flatten_cons, List.flatMap_cons]
    refine hq.append (readsAt_flatten hrest fun j hj => ?_)
    have := hG (j + 1) (by simp; omega)
    simp only [List.getElem_cons_succ, List.take_succ_cons, List.flatten_cons,
      List.length_append] at this
    omega

theorem instructions_eq_ok {code : List UInt8} {ds : List (Nat × Instruction Int)}
    (h : r.ReadsAt 0 code ds) : r.instructions code = .ok ds := by
  have hread := h [] code.length (by simp)
  simp only [List.append_nil] at hread
  rw [instructions, hread]
  cases code <;> simp [instructionsFrom, Functor.map, Except.map]

end Resolver

namespace Build

open PoolBuilder Resolver

variable {o target : Nat} {w : Bool} {lo : Label → Except FormatError Nat} {S S' : PoolBuilder}
  {bs : List UInt8}

-- both ends lie in a code array, so the displacement fits a signed 32-bit offset
theorem fitsSigned_distance (ho : o < 65536) (ht : target < 65536) (k : Int) (hk : 0 ≤ k)
    (hk' : k ≤ 3) : fitsSigned 32 ((target : Int) - o - k) = true := by
  simp only [fitsSigned_iff, Nat.pow_eq, Nat.reduceSub, Nat.reducePow, Nat.cast_ofNat]
  omega

theorem readsAt_wideJump {op : Opcode} {l : Label} (hop : op.isWideJump = true)
    (hl : lo l = .ok target) (ho : o < 65536) (ht : target < 65536)
    (h : instruction (.jump op l) o w lo S = .ok (bs, S')) :
    S' = S ∧ ∀ r : Resolver, r.ReadsAt o bs [(o, .jump op.narrowed (target : Int))] := by
  have hfar := fitsSigned_distance ho ht 0 le_rfl (by decide)
  simp only [Int.sub_zero] at hfar
  have hat : (o : Int) + ((target : Int) - o) = target := by omega
  obtain rfl | rfl : op = Opcode.gotoWide ∨ op = Opcode.jsrWide := by
    simpa [Opcode.isWideJump] using hop
  all_goals
    unfold instruction at h
    cases w <;> simp +decide only [hl, lift_ok_bind, ↓reduceIte] at h
    all_goals obtain ⟨rfl, rfl⟩ := pure_eq_ok h
  · exact ⟨rfl, fun r => .single ((reads_wideJump r o (.inl rfl) hfar).of_eq (by rw [hat]; rfl))⟩
  · exact ⟨rfl, fun r => .single ((reads_wideJump r o (.inl rfl) hfar).of_eq (by rw [hat]; rfl))⟩
  · exact ⟨rfl, fun r => .single ((reads_wideJump r o (.inr rfl) hfar).of_eq (by rw [hat]; rfl))⟩
  · exact ⟨rfl, fun r => .single ((reads_wideJump r o (.inr rfl) hfar).of_eq (by rw [hat]; rfl))⟩

theorem readsAt_inverted {op inv : Opcode} {l : Label} (hinv : op.invertedBranch? = some inv)
    (hl : lo l = .ok target) (ho : o < 65536) (ht : target < 65536)
    (h : instruction (.jump op l) o true lo S = .ok (bs, S')) :
    S' = S ∧ ∀ r : Resolver, r.ReadsAt o bs
      [(o, .jump inv ((o + 8 : Nat) : Int)), (o + 3, .jump Opcode.goto (target : Int))] := by
  unfold instruction at h
  simp only [hl, lift_ok_bind, hinv] at h
  obtain ⟨rfl, rfl⟩ := pure_eq_ok h
  refine ⟨rfl, fun r => ?_⟩
  have hfar := fitsSigned_distance ho ht 3 (by decide) le_rfl
  have hover : Reader.Reads (r.instructionAt o) (inv.code :: BigEndian.int 2 8)
      (.jump inv ((o + 8 : Nat) : Int)) :=
    (reads_jump r o (Opcode.isShortJump_of_inverted hinv) (by decide)).of_eq (by push_cast; rfl)
  have hgoto : Reader.Reads (r.instructionAt (o + 3))
      (Opcode.gotoWide.code :: BigEndian.int 4 ((target : Int) - o - 3))
      (.jump Opcode.goto (target : Int)) :=
    (reads_wideJump r (o + 3) (.inl rfl) hfar).of_eq (by push_cast; congr 1; omega)
  have hsplit := ReadsAt.append (ReadsAt.single hover) (by simpa using ReadsAt.single hgoto)
  simpa using hsplit

theorem instruction_targets_ok {i : Instruction Label} (h : instruction i o w lo S = .ok (bs, S')) :
    ∀ t ∈ i.targets, ∃ v, lo t = .ok v := by
  -- the offsets of the targets of a switch are taken one after the other
  have hrelative : ∀ {ts : List Label} {ds : List Int} {T T' : PoolBuilder},
      ts.mapM (fun l => (do let target ← lift (lo l); pure ((target : Int) - o) : Build Int)) T =
        .ok (ds, T') → ∀ t ∈ ts, ∃ v, lo t = .ok v := by
    intro ts
    induction ts with
    | nil => simp
    | cons t ts ih =>
      intro ds T T' hts t' ht'
      rw [List.mapM_cons] at hts
      obtain ⟨d, T₁, h₁, h₂⟩ := bind_eq_ok hts
      obtain ⟨ds', T₂, h₃, -⟩ := bind_eq_ok h₂
      obtain ⟨v, T₀, hv, -⟩ := bind_eq_ok h₁
      rcases List.mem_cons.mp ht' with rfl | ht'
      · exact ⟨v, (lift_eq_ok hv).1⟩
      · exact ih h₃ t' ht'
  cases i
  case jump op l =>
    unfold instruction at h
    obtain ⟨v, T₁, h₁, -⟩ := bind_eq_ok h
    intro t ht
    obtain rfl : t = l := by simpa [Instruction.targets] using ht
    exact ⟨v, (lift_eq_ok h₁).1⟩
  case tableSwitch | lookupSwitch =>
    unfold instruction at h
    dsimp only at h
    split at h
    · exact absurd h fail_ne_ok
    obtain ⟨d, T₁, h₁, h₂⟩ := bind_eq_ok h
    obtain ⟨ds, T₂, h₃, -⟩ := bind_eq_ok h₂
    intro t ht
    rcases List.mem_cons.mp ht with rfl | ht
    · obtain ⟨v, T₀, hv, -⟩ := bind_eq_ok h₁
      exact ⟨v, (lift_eq_ok hv).1⟩
    · exact hrelative h₃ t ht
  all_goals simp [Instruction.targets]

end Build

namespace Layout

variable {lay : Layout} {l : Label} {v : Nat}

def offsetOf (lay : Layout) (l : Label) : Nat :=
  lay.offsets.getD ((lay.positions.lookup l).getD 0) 0

theorem labelOffset_eq_ok (h : lay.labelOffset l = .ok v) : v = lay.offsetOf l := by
  unfold labelOffset at h
  unfold offsetOf
  split at h
  · next p hp =>
    cases h
    simp [hp]
  · cases h

theorem offsetOf_lt (hbound : ∀ x ∈ lay.offsets, x < 65536) (l : Label) : lay.offsetOf l < 65536 := by
  unfold offsetOf
  rw [List.getD_eq_getElem?_getD]
  cases h : lay.offsets[(lay.positions.lookup l).getD 0]? with
  | none => simp
  | some x => exact hbound x (List.mem_of_getElem? h)

end Layout

namespace Build

open PoolBuilder Resolver

variable {o : Nat} {w : Bool} {lay : Layout} {S S' : PoolBuilder} {bs : List UInt8}

theorem instruction_readsAt {i : Instruction Label} (hi : i.Encodable) (ho : o < 65536)
    (hbound : ∀ x ∈ lay.offsets, x < 65536) (hS : S.Laid 0)
    (h : instruction i o w lay.labelOffset S = .ok (bs, S')) :
    S'.Resolves fun r => r.ReadsAt o bs (i.emitted lay.offsetOf o w) := by
  have htargets : ∀ t ∈ i.targets, lay.labelOffset t = .ok (lay.offsetOf t) := fun t ht => by
    obtain ⟨v, hv⟩ := instruction_targets_ok h t ht
    rwa [← Layout.labelOffset_eq_ok hv]
  by_cases hjump : ∃ op t, i = .jump op t
  · obtain ⟨op, t, rfl⟩ := hjump
    have ht := htargets t (by simp [Instruction.targets])
    have hlt := Layout.offsetOf_lt hbound t
    by_cases hwide : op.isWideJump = true
    · -- `goto_w` and `jsr_w` are written as they are
      obtain ⟨rfl, hr⟩ := readsAt_wideJump hwide ht ho hlt h
      rw [Instruction.emitted_jump fun _ => by
        obtain rfl | rfl : op = Opcode.gotoWide ∨ op = Opcode.jsrWide := by
          simpa [Opcode.isWideJump] using hwide
        all_goals decide]
      exact fun _ _ _ => hr _
    have hshort : Opcode.isShortJump op.code = true := by
      rcases hi with hi | ⟨op', t', heq, hop'⟩
      · exact hi
      · cases heq
        exact absurd hop' hwide
    by_cases hsplit : w = true ∧ op.invertedBranch?.isSome = true
    · -- a conditional branch in its wide form is read as two branches
      obtain ⟨rfl, hsome⟩ := hsplit
      obtain ⟨inv, hinv⟩ := Option.isSome_iff_exists.mp hsome
      obtain ⟨rfl, hr⟩ := readsAt_inverted hinv ht ho hlt h
      rw [Instruction.emitted_inverted hinv]
      exact fun _ _ _ => hr _
    · have hw : w = true → op.invertedBranch? = none := fun hw => by
        simpa [hw] using hsplit
      obtain ⟨-, hread⟩ := instruction_spec (show (Instruction.jump op t).Decodable from hshort) rfl
        (fun hw' op' t' heq => by cases heq; exact hw hw') htargets ho
        (fun t' ht' => Layout.offsetOf_lt hbound t') hS h
      rw [Instruction.emitted_jump hw, Opcode.narrowed_of_not_wide (Opcode.shortJump_not_wide _ hshort)]
      exact fun T hT hlaid => ReadsAt.single (hread T hT hlaid)
  · push Not at hjump
    have hdec : i.Decodable := hi.resolve_right fun hex => by
      obtain ⟨op, t, heq, -⟩ := hex
      exact hjump op t heq
    rw [Instruction.emitted_of_not_jump hjump]
    by_cases hmarker : i.isMarker = true
    · -- markers take no bytes
      have hnil : bs = [] ∧ S' = S := by
        cases i <;> simp [Instruction.isMarker, Instruction.opcode?] at hmarker
        all_goals
          unfold instruction at h
          exact (pure_eq_ok h).imp_left id
      obtain ⟨rfl, rfl⟩ := hnil
      simp only [hmarker, ↓reduceIte]
      exact fun _ _ _ => ReadsAt.nil
    · have hreal : i.isMarker = false := by simpa using hmarker
      obtain ⟨-, hread⟩ := instruction_spec hdec hreal
        (fun _ op t heq => absurd heq (hjump op t)) htargets ho
        (fun t _ => Layout.offsetOf_lt hbound t) hS h
      simp only [hreal, Bool.false_eq_true, ↓reduceIte]
      exact fun T hT hlaid => ReadsAt.single (hread T hT hlaid)

theorem emitted_readsAt {insns : List (Instruction Label)} {wide : List Nat} {P : PoolBuilder}
    {bss : List (List UInt8)} (hinsns : ∀ i ∈ insns, i.Encodable) (hP : P.Laid 0)
    (hemit : insns.zipIdx.mapM (lay.emit wide) P = .ok (bss, P))
    (hoffsets : ∀ p ≤ insns.length, (bss.take p).flatten.length = lay.offsets.getD p 0)
    (hbound : ∀ x ∈ lay.offsets, x < 65536) :
    P.Resolves fun r => r.instructions bss.flatten = .ok (insns.zipIdx.flatMap fun q =>
      q.1.emitted lay.offsetOf (lay.offsets.getD q.2 0) (wide.contains q.2)) := by
  have ho : ∀ p, lay.offsets.getD p 0 < 65536 := fun p => by
    rw [List.getD_eq_getElem?_getD]
    cases h : lay.offsets[p]? with
    | none => simp
    | some x => exact hbound x (List.mem_of_getElem? h)
  obtain ⟨-, hread⟩ := mapM_spec (Q := fun r q bs => r.ReadsAt (lay.offsets.getD q.2 0) bs
      (q.1.emitted lay.offsetOf (lay.offsets.getD q.2 0) (wide.contains q.2)))
    (fun q hq _ _ _ hS h => ⟨specified_instruction
      (hinsns _ (List.fst_mem_of_mem_zipIdx hq)).interns _ _ _ _ _ _ hS h,
      instruction_readsAt (hinsns _ (List.fst_mem_of_mem_zipIdx hq)) (ho _) hbound hS h⟩) hP hemit
  intro T hT hlaid
  have hlen := (List.Forall₂.length_eq (hread T hT hlaid))
  refine instructions_eq_ok (readsAt_flatten (hread T hT hlaid) fun j hj => ?_)
  simp only [List.getElem_zipIdx, Nat.zero_add]
  simp only [List.length_zipIdx] at hj
  rw [hoffsets j hj.le]

end Build

end ClassPatch
