import ClassPatch.Bytecode.Decode
import ClassPatch.Proofs.Monad

namespace ClassPatch

namespace Reader

variable {α β : Type}

/-- A reader that never leaves more bytes than it was given. -/
structure Consumes (x : Reader α) : Prop where
  le : ∀ input a rest, x input = .ok (a, rest) → rest.length ≤ input.length

theorem Consumes.pure (a : α) : Consumes (Pure.pure a : Reader α) :=
  ⟨fun _ _ _ h => by cases h; exact Nat.le_refl _⟩

theorem Consumes.bind {x : Reader α} {f : α → Reader β} (hx : Consumes x)
    (hf : ∀ a, Consumes (f a)) : Consumes (x >>= f) := by
  refine ⟨fun input b rest h => ?_⟩
  change (x input >>= fun p => f p.1 p.2) = _ at h
  cases hxi : x input with
  | error e => rw [hxi] at h; cases h
  | ok p =>
    rw [hxi] at h
    exact Nat.le_trans ((hf p.1).le p.2 b rest h) (hx.le input p.1 p.2 hxi)

theorem Consumes.ite {c : Prop} [Decidable c] {x y : Reader α} (hx : Consumes x)
    (hy : Consumes y) : Consumes (if c then x else y) := by
  split
  · exact hx
  · exact hy

theorem consumes_u8 : Consumes u8 := by
  refine ⟨fun input a rest h => ?_⟩
  cases input with
  | nil => cases h
  | cons b more =>
    cases h
    simp

theorem consumes_bytes (n : Nat) : Consumes (bytes n) := by
  refine ⟨fun input a rest h => ?_⟩
  unfold bytes at h
  split at h
  · cases h
    simp
  · cases h

theorem consumes_fail (e : FormatError) : Consumes (fail e : Reader α) :=
  ⟨fun _ _ _ h => by cases h⟩

theorem consumes_liftM (e : Except FormatError α) : Consumes (liftM e : Reader α) := by
  refine ⟨fun input a rest h => ?_⟩
  cases e with
  | error => cases h
  | ok b =>
    cases h
    exact Nat.le_refl _

theorem consumes_times {x : Reader α} (hx : Consumes x) : ∀ n, Consumes (times x n)
  | 0 => .pure _
  | n + 1 => hx.bind fun _ => (consumes_times hx n).bind fun _ => .pure _

theorem consumes_i32 : Consumes i32 :=
  ((consumes_bytes 4).bind fun _ => .pure _).bind fun _ => .pure _

theorem consumes_relativeOffsets (base n : Nat) : Consumes (relativeOffsets base n) := by
  refine ⟨fun input a rest h => ?_⟩
  unfold relativeOffsets at h
  split at h
  · cases h
  · exact (consumes_times (consumes_i32.bind fun _ => .pure _) n).le input a rest h

theorem consumes_keyedOffsets (base n : Nat) : Consumes (keyedOffsets base n) := by
  refine ⟨fun input a rest h => ?_⟩
  unfold keyedOffsets at h
  split at h
  · cases h
  · exact (consumes_times (consumes_i32.bind fun _ => consumes_i32.bind fun _ => .pure _) n).le
      input a rest h

theorem shrinks_of_u8_bind {f : UInt8 → Reader β} (hf : ∀ a, Consumes (f a))
    {input rest : List UInt8} {b : β} (h : (u8 >>= f) input = .ok (b, rest)) :
    rest.length < input.length := by
  change (u8 input >>= fun p => f p.1 p.2) = _ at h
  cases input with
  | nil => cases h
  | cons c more =>
    have := (hf c).le more b rest h
    simp only [List.length_cons]
    omega


/-- A reader whose every value has a property. -/
structure Yields (P : α → Prop) (x : Reader α) : Prop where
  holds : ∀ input a rest, x input = .ok (a, rest) → P a

variable {P : β → Prop}

theorem Yields.pure {b : β} (h : P b) : Yields P (Pure.pure b : Reader β) :=
  ⟨fun _ _ _ hx => by cases hx; exact h⟩

theorem Yields.bind {x : Reader α} {f : α → Reader β} (hf : ∀ a, Yields P (f a)) :
    Yields P (x >>= f) := by
  refine ⟨fun input b rest h => ?_⟩
  change (x input >>= fun p => f p.1 p.2) = _ at h
  cases hxi : x input with
  | error e => rw [hxi] at h; cases h
  | ok p =>
    rw [hxi] at h
    exact (hf p.1).holds p.2 b rest h

theorem Yields.ite {c : Prop} [Decidable c] {x y : Reader β} (hx : Yields P x) (hy : Yields P y) :
    Yields P (if c then x else y) := by
  split
  · exact hx
  · exact hy

theorem yields_fail (e : FormatError) : Yields P (fail e : Reader β) := ⟨fun _ _ _ h => by cases h⟩

end Reader

namespace Resolver

variable {r : Resolver}

theorem instructionAt_shrinks {offset : Nat} {input rest : List UInt8} {i : Instruction Int}
    (h : (r.instructionAt offset).run input = .ok (i, rest)) : rest.length < input.length := by
  unfold instructionAt at h
  refine Reader.shrinks_of_u8_bind (fun code => ?_) h
  simp only
  -- each branch reads bytes, looks the pool up, or fails
  repeat' first
    | apply Reader.Consumes.ite
    | apply Reader.Consumes.pure
    | apply Reader.Consumes.bind
    | apply Reader.consumes_u8
    | apply Reader.consumes_bytes
    | apply Reader.consumes_fail
    | apply Reader.consumes_liftM
    | apply Reader.consumes_relativeOffsets
    | apply Reader.consumes_keyedOffsets
    | intro

theorem instructionsFrom_offsets {length : Nat} : ∀ {fuel : Nat} {input : List UInt8}
    {ds : List (Nat × Instruction Int)}, input.length ≤ length →
    r.instructionsFrom length fuel input = .ok ds →
    (ds.map (·.1)).Pairwise (· < ·) ∧ ∀ p ∈ ds, length - input.length ≤ p.1 ∧ p.1 < length
  | 0, _, ds, _, h => by
    cases h
    simp
  | fuel + 1, [], ds, _, h => by
    cases h
    simp
  | fuel + 1, b :: more, ds, hlen, h => by
    simp only [instructionsFrom, List.length_cons] at h hlen ⊢
    cases hrun : (r.instructionAt (length - (more.length + 1))).run (b :: more) with
    | error e => simp [hrun] at h
    | ok p =>
      obtain ⟨i, rest⟩ := p
      have hlt : rest.length < more.length + 1 := instructionAt_shrinks hrun
      cases hmore : r.instructionsFrom length fuel rest with
      | error e => simp [hrun, hmore] at h
      | ok ds' =>
        simp only [hrun, hmore, Except.ok_bind, Except.pure_eq_ok, Except.ok.injEq] at h
        subst h
        -- the rest starts after this instruction and reads at increasing offsets
        obtain ⟨hpair, hbound⟩ := instructionsFrom_offsets (by omega) hmore
        simp only [List.map_cons]
        refine ⟨List.pairwise_cons.mpr ⟨fun o ho => ?_, hpair⟩, fun p hp => ?_⟩
        · obtain ⟨q, hq, rfl⟩ := List.mem_map.mp ho
          have := hbound q hq
          omega
        · rcases List.mem_cons.mp hp with rfl | hp
          · omega
          · have := hbound p hp
            omega

theorem instructions_offsets {code : List UInt8} {ds : List (Nat × Instruction Int)}
    (h : r.instructions code = .ok ds) : (ds.map (·.1) ++ [code.length]).Pairwise (· < ·) := by
  obtain ⟨hpair, hbound⟩ := instructionsFrom_offsets (Nat.le_refl _) h
  refine List.pairwise_append.mpr ⟨hpair, List.pairwise_singleton _ _, fun o ho e he => ?_⟩
  obtain ⟨p, hp, rfl⟩ := List.mem_map.mp ho
  rw [List.mem_singleton.mp he]
  exact (hbound p hp).2


theorem instructionAt_not_marker {offset : Nat} {input rest : List UInt8} {i : Instruction Int}
    (h : (r.instructionAt offset).run input = .ok (i, rest)) : i.isMarker = false := by
  refine (?_ : Reader.Yields (fun i : Instruction Int => i.isMarker = false) _).holds input i rest h
  unfold instructionAt
  -- every branch ends in an instruction with an opcode, or fails
  repeat' first
    | apply Reader.Yields.ite
    | apply Reader.Yields.bind
    | apply Reader.yields_fail
    | apply Reader.Yields.pure
    | intro
  all_goals rfl

theorem instructionsFrom_not_marker {length : Nat} : ∀ {fuel : Nat} {input : List UInt8}
    {ds : List (Nat × Instruction Int)}, r.instructionsFrom length fuel input = .ok ds →
    ∀ p ∈ ds, p.2.isMarker = false
  | 0, _, ds, h => by
    cases h
    simp
  | fuel + 1, [], ds, h => by
    cases h
    simp
  | fuel + 1, b :: more, ds, h => by
    simp only [instructionsFrom, List.length_cons] at h
    cases hrun : (r.instructionAt (length - (more.length + 1))).run (b :: more) with
    | error e => simp [hrun] at h
    | ok p =>
      obtain ⟨i, rest⟩ := p
      cases hmore : r.instructionsFrom length fuel rest with
      | error e => simp [hrun, hmore] at h
      | ok ds' =>
        simp only [hrun, hmore, Except.ok_bind, Except.pure_eq_ok, Except.ok.injEq] at h
        subst h
        intro p hp
        rcases List.mem_cons.mp hp with rfl | hp
        · exact instructionAt_not_marker hrun
        · exact instructionsFrom_not_marker hmore p hp

end Resolver

theorem Except.bind_eq_ok_iff {ε α β : Type} {x : Except ε α} {f : α → Except ε β} {b : β} :
    (x >>= f) = .ok b ↔ ∃ a, x = .ok a ∧ f a = .ok b := by
  cases x <;> simp

theorem Except.map_eq_ok_iff {ε α β : Type} {x : Except ε α} {f : α → β} {b : β} :
    f <$> x = .ok b ↔ ∃ a, x = .ok a ∧ f a = b := by
  cases x <;> simp [Functor.map, Except.map]

theorem forall₂_of_mapM_eq_ok {ε α β : Type} {f : α → Except ε β} :
    ∀ {xs : List α} {ys : List β}, xs.mapM f = .ok ys → List.Forall₂ (fun x y => f x = .ok y) xs ys
  | [], ys, h => by
    cases h
    exact .nil
  | x :: xs, ys, h => by
    rw [List.mapM_cons] at h
    obtain ⟨y, hy, h⟩ := Except.bind_eq_ok_iff.mp h
    obtain ⟨ys', hys, h⟩ := Except.bind_eq_ok_iff.mp h
    cases h
    exact .cons hy (forall₂_of_mapM_eq_ok hys)

end ClassPatch
