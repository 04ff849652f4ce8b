import ClassPatch.Proofs.PoolStability
import ClassPatch.Proofs.Encoding
import ClassPatch.Proofs.InstructionStream

/-!
Laying out a body until no branch needs widening.

`settle` lays a body out, widens the branches whose targets are out of reach of their short
forms, and lays the body out again, until no branch needs widening. `Rounds` is that loop without
its fuel. A round that goes on widens branches not widened before, so from none widened the loop
ends within one round more than the body has branches, and `settle`, given a round for each
instruction and one more, never runs out of fuel first.

A layout measures each instruction with every label at the instruction's own offset; the
emission that follows uses the labels' real offsets and the pool the layout left. The length of
an instruction does not depend on its labels, and interning again what the pool already holds
gives the same indices (`Build.Rerun`), so every instruction is emitted at the offset the last
layout gave it. That layout found every short branch within reach, so every branch is emitted.
-/

namespace ClassPatch

namespace Build

open PoolBuilder

variable {α γ : Type}

section Run

variable {β : Type} {x : Build α} {f : α → Build β} {S S' : PoolBuilder} {a : α}

theorem bind_run_ok (h : x S = .ok (a, S')) : (x >>= f) S = f a S' := by
  change (x S >>= fun p => f p.1 p.2) = _
  rw [h]
  rfl

theorem bind_run_error {e : FormatError} (h : x S = .error e) : (x >>= f) S = .error e := by
  change (x S >>= fun p => f p.1 p.2) = _
  rw [h]
  rfl

end Run

def Rerun (R : α → α → Prop) (x y : Build α) : Prop :=
  ∀ S a S', x S = .ok (a, S') →
    S.Extends S' ∧ ∀ T b T', S'.Extends T → y T = .ok (b, T') → R a b ∧ T' = T

namespace Rerun

variable {R : α → α → Prop} {x y : Build α}

theorem of_stable (hx : Stable x) : Rerun Eq x x := by
  intro S a S' h
  obtain ⟨hgrow, hagain⟩ := hx S a S' h
  refine ⟨hgrow, fun T b T' hT hy => ?_⟩
  rw [hagain T hT] at hy
  obtain ⟨rfl, rfl⟩ := Prod.mk.inj (Except.ok.inj hy)
  exact ⟨rfl, rfl⟩

theorem pure {a b : α} (h : R a b) : Rerun R (Pure.pure a) (Pure.pure b) := by
  intro S a' S' hx
  cases hx
  refine ⟨Extends.refl _, fun T b' T' _ hy => ?_⟩
  cases hy
  exact ⟨h, rfl⟩

theorem lift {r₁ r₂ : Except FormatError α} (h : ∀ a b, r₁ = .ok a → r₂ = .ok b → R a b) :
    Rerun R (Build.lift r₁) (Build.lift r₂) := by
  intro S a S' hx
  obtain ⟨ha, rfl⟩ := lift_eq_ok hx
  refine ⟨Extends.refl _, fun T b T' _ hy => ?_⟩
  obtain ⟨hb, rfl⟩ := lift_eq_ok hy
  exact ⟨h a b ha hb, rfl⟩

theorem fail_left (e : FormatError) : Rerun R (Build.fail e) y := by
  intro S a S' hx
  cases hx

theorem guard {p q : Prop} [Decidable p] [Decidable q] {x₁ x₂ : Build α} (e₁ e₂ : FormatError)
    (h : Rerun R x₁ x₂) :
    Rerun R (if p then x₁ else Build.fail e₁) (if q then x₂ else Build.fail e₂) := by
  by_cases hp : p
  · by_cases hq : q
    · simpa only [if_pos hp, if_pos hq] using h
    · rw [if_pos hp, if_neg hq]
      exact fun S a S' hx => ⟨(h S a S' hx).1, fun T b T' _ hy => by cases hy⟩
  · rw [if_neg hp]
    exact fail_left e₁

theorem bind {R' : γ → γ → Prop} {f g : α → Build γ} (hx : Rerun R x y) (hR : ∀ a, R a a)
    (hf : ∀ a b, R a b → Rerun R' (f a) (g b)) : Rerun R' (x >>= f) (y >>= g) := by
  intro S c S₂ h
  obtain ⟨a, S₁, h₁, h₂⟩ := bind_eq_ok h
  obtain ⟨hS₁, hy⟩ := hx S a S₁ h₁
  refine ⟨hS₁.trans (hf a a (hR a) S₁ c S₂ h₂).1, fun T d T₂ hT h' => ?_⟩
  obtain ⟨b, T₁, hy₁, hg⟩ := bind_eq_ok h'
  obtain ⟨hab, hT₁⟩ := hy T b T₁ ((hf a a (hR a) S₁ c S₂ h₂).1.trans hT) hy₁
  rw [hT₁] at hg
  exact (hf a b hab S₁ c S₂ h₂).2 T d T₂ hT hg

theorem mono {R' : α → α → Prop} (h : Rerun R x y) (hR : ∀ a b, R a b → R' a b) : Rerun R' x y :=
  fun S a S' hx => ⟨(h S a S' hx).1, fun T b T' hT hy =>
    ((h S a S' hx).2 T b T' hT hy).imp_left (hR a b)⟩

theorem mapM {δ : Type} {l : List δ} {f g : δ → Build α} (hR : ∀ a, R a a)
    (h : ∀ d ∈ l, Rerun R (f d) (g d)) : Rerun (List.Forall₂ R) (l.mapM f) (l.mapM g) := by
  induction l with
  | nil => exact pure .nil
  | cons d l ih =>
    simp only [List.mapM_cons]
    exact (h d List.mem_cons_self).bind hR fun _ _ hb =>
      (ih fun d' hd' => h d' (List.mem_cons_of_mem d hd')).bind (fun _ => List.forall₂_same.mpr
        fun a _ => hR a) fun _ _ hbs => pure (.cons hb hbs)

end Rerun

theorem stable_instruction (i : Instruction Label) (offset : Nat) (wide : Bool)
    (lo : Label → Except FormatError Nat) : Stable (Build.instruction i offset wide lo) := by
  cases i
  all_goals simp only [Build.instruction]
  case int | var | iinc =>
    -- the operand picks the form: every branch gives bytes or an error
    repeat' split
    all_goals first | exact .pure _ | exact .fail _
  case simple | label | lineNumber | frame => exact .pure _
  case type name | multiANewArray name _ => exact (stable_classRef name).bind fun _ => .pure _
  case field ref => exact (stable_fieldRef ref).bind fun _ => .pure _
  case method op ref =>
    refine (stable_methodRef ref).bind fun _ => ?_
    split
    · exact (Stable.lift _).bind fun _ => .pure _
    · exact .pure _
  case invokeDynamic =>
    exact (stable_bootstrapMethod _ _).bind fun _ => (stable_nameAndType _ _).bind fun _ =>
      (stable_entry _).bind fun _ => .pure _
  case jump =>
    refine (Stable.lift _).bind fun _ => ?_
    repeat' split
    all_goals first | exact .pure _ | exact .fail _
  case tableSwitch | lookupSwitch =>
    split
    · exact .fail _
    · exact ((Stable.lift _).bind fun _ => .pure _).bind fun _ =>
        (Stable.mapM fun _ _ => (Stable.lift _).bind fun _ => .pure _).bind fun _ => .pure _
  case ldc c =>
    refine (stable_constant c).bind fun _ => ?_
    repeat' split
    all_goals exact .pure _

theorem rerun_relative (offset : Nat) (lo₁ lo₂ : Label → Except FormatError Nat) (l : Label) :
    Rerun (fun _ _ : Int => True) (lift (lo₁ l) >>= fun t => pure (↑t - ↑offset))
      (lift (lo₂ l) >>= fun t => pure (↑t - ↑offset)) :=
  (Rerun.lift fun _ _ _ _ => trivial).bind (fun _ => trivial) fun _ _ _ => Rerun.pure trivial

theorem rerun_relatives (offset : Nat) (lo₁ lo₂ : Label → Except FormatError Nat)
    (targets : List Label) :
    Rerun (fun a b : List Int => a.length = b.length)
      (targets.mapM fun l => lift (lo₁ l) >>= fun t => pure (↑t - ↑offset))
      (targets.mapM fun l => lift (lo₂ l) >>= fun t => pure (↑t - ↑offset)) :=
  (Rerun.mapM (fun _ => trivial) fun l _ => rerun_relative offset lo₁ lo₂ l).mono
    fun _ _ h => h.length_eq

theorem rerun_instruction (i : Instruction Label) (offset : Nat) (wide : Bool)
    (lo₁ lo₂ : Label → Except FormatError Nat) :
    Rerun (fun a b : List UInt8 => a.length = b.length) (Build.instruction i offset wide lo₁)
      (Build.instruction i offset wide lo₂) := by
  cases i
  case jump op t =>
    simp only [Build.instruction]
    refine (Rerun.lift (R := fun _ _ => True) fun _ _ _ _ => trivial).bind (fun _ => trivial)
      fun a b _ => ?_
    split
    · exact Rerun.pure (by simp)
    · split
      · exact Rerun.pure (by simp)
      · exact Rerun.guard _ _ (Rerun.pure (by simp))
  case tableSwitch low high default targets =>
    simp only [Build.instruction]
    split
    · exact .fail_left _
    · exact (rerun_relative offset lo₁ lo₂ default).bind (fun _ => trivial) fun _ _ _ =>
        (rerun_relatives offset lo₁ lo₂ targets).bind (fun _ => rfl) fun _ _ h =>
          Rerun.pure (by simp [List.length_flatMap, h])
  case lookupSwitch default keys targets =>
    simp only [Build.instruction]
    split
    · exact .fail_left _
    · exact (rerun_relative offset lo₁ lo₂ default).bind (fun _ => trivial) fun _ _ _ =>
        (rerun_relatives offset lo₁ lo₂ targets).bind (fun _ => rfl) fun _ _ h =>
          Rerun.pure (by simp [List.length_flatMap, h])
  all_goals exact (Rerun.of_stable (stable_instruction _ offset wide lo₁)).mono fun _ _ h => h ▸ rfl

end Build

/-- Whether an instruction is a branch to one label. -/
def Instruction.isJump {L : Type} : Instruction L → Bool
  | .jump .. => true
  | _ => false

theorem fitsSigned_sixteen {v : Int} (h : fitsSigned 16 v = true) : -32768 ≤ v ∧ v ≤ 32767 := by
  have hbound : Nat.pow 2 (16 - 1) = 32768 := rfl
  simp only [fitsSigned, hbound, Bool.and_eq_true, decide_eq_true_eq] at h
  omega

namespace Layout

open Build PoolBuilder

/-- The bytes of the instruction at a position, for the layout `lay` with the branches at
positions `wide` in their wide forms. -/
def emit (lay : Layout) (wide : List Nat) (q : Instruction Label × Nat) : Build (List UInt8) :=
  Build.instruction q.1 (lay.offsets.getD q.2 0) (wide.contains q.2) lay.labelOffset

-- The offsets of a run of instructions are where they are emitted when each is emitted at the
-- offset laid out for it: the lengths do not depend on the labels, and the pool left by the
-- layout already holds every index the emission interns.
theorem offsetsFrom_emitted {wide : List Nat} (G : Nat → Nat)
    (lo : Label → Except FormatError Nat) :
    ∀ (L : List (Instruction Label × Nat)) (off : Nat) {S : PoolBuilder} {os : List Nat}
      {S' : PoolBuilder}, offsetsFrom wide off L S = .ok (os, S') →
      S.Extends S' ∧ ∀ T bss T', (∀ j (h : j < L.length), G L[j].2 = os.getD j 0) →
        S'.Extends T →
        L.mapM (fun q => Build.instruction q.1 (G q.2) (wide.contains q.2) lo) T = .ok (bss, T') →
        T' = T ∧ ∀ j ≤ L.length, off + (bss.take j).flatten.length = os.getD j 0
  | [], off, S, os, S', h => by
    cases h
    refine ⟨Extends.refl _, fun T bss T' _ _ he => ?_⟩
    cases he
    refine ⟨rfl, fun j hj => ?_⟩
    obtain rfl : j = 0 := by simpa using hj
    simp
  | (i, p) :: rest, off, S, os, S', h => by
    obtain ⟨bytes, S₁, h₁, h₂⟩ := bind_eq_ok h
    obtain ⟨more, S₂, h₃, h₄⟩ := bind_eq_ok h₂
    cases h₄
    obtain ⟨hS₂, hrest⟩ := offsetsFrom_emitted G lo rest (off + bytes.length) h₃
    obtain ⟨hS₁, hagain⟩ := rerun_instruction i off (wide.contains p) (fun _ => .ok off) lo S bytes S₁ h₁
    refine ⟨hS₁.trans hS₂, fun T bss T' hG hT he => ?_⟩
    rw [List.mapM_cons] at he
    obtain ⟨b, T₁, hb, he₂⟩ := bind_eq_ok he
    obtain ⟨bs, T₂, hbs, he₃⟩ := bind_eq_ok he₂
    cases he₃
    -- the first instruction is emitted at the offset it was laid out at
    have hp : G p = off := hG 0 (by simp)
    rw [hp] at hb
    obtain ⟨hlen, hT₁⟩ := hagain T b T₁ (hS₂.trans hT) hb
    rw [hT₁] at hbs
    obtain ⟨hT₂, hoff⟩ := hrest T bs _ (fun j hj => hG (j + 1) (by simp; omega)) hT hbs
    refine ⟨hT₂, fun j hj => ?_⟩
    cases j with
    | zero => simp
    | succ j =>
      have := hoff j (by simp at hj; omega)
      simp only [List.take_succ_cons, List.flatten_cons, List.length_append, List.getD_cons_succ]
      omega

theorem measure_eq_ok {insns : List (Instruction Label)} {wide offsets : List Nat}
    {S S' : PoolBuilder} (h : measure insns wide S = .ok (offsets, S')) :
    offsetsFrom wide 0 insns.zipIdx S = .ok (offsets, S') ∧ offsets.getLastD 0 ≤ 65535 := by
  unfold measure at h
  obtain ⟨os, S₁, h₁, h₂⟩ := bind_eq_ok h
  dsimp only at h₂
  split at h₂
  · cases h₂
  · cases h₂
    exact ⟨h₁, by omega⟩

theorem emit_at_offsets {insns : List (Instruction Label)} {wide offsets : List Nat}
    {positions : List (Label × Nat)} {S S' T T' : PoolBuilder} {bss : List (List UInt8)}
    (h : measure insns wide S = .ok (offsets, S')) (hT : S'.Extends T)
    (he : insns.zipIdx.mapM (emit ⟨offsets, positions⟩ wide) T = .ok (bss, T')) :
    T' = T ∧ ∀ p ≤ insns.length, (bss.take p).flatten.length = offsets.getD p 0 := by
  obtain ⟨hT', hoff⟩ := (offsetsFrom_emitted (fun p => offsets.getD p 0)
    (Layout.labelOffset ⟨offsets, positions⟩) insns.zipIdx 0 (measure_eq_ok h).1).2 T bss T'
    (fun j hj => by simp) hT he
  exact ⟨hT', fun p hp => by simpa using hoff p (by simpa using hp)⟩

def Reaches (lay : Layout) (wide : List Nat) (q : Instruction Label × Nat) : Prop :=
  ∀ op t, q.1 = .jump op t → ∃ target, lay.labelOffset t = .ok target ∧
    (fitsSigned 16 ((target : Int) - lay.offsets.getD q.2 0) = true ∨ wide.contains q.2 = true ∨
      op.isWideJump = true)

theorem Reaches.fits {lay : Layout} {wide : List Nat} {op : Opcode} {t : Label} {p : Nat}
    (h : lay.Reaches wide (.jump op t, p)) (hwide : wide.contains p = false)
    (hop : op.isWideJump = false) :
    ∃ target, lay.labelOffset t = .ok target ∧
      fitsSigned 16 ((target : Int) - lay.offsets.getD p 0) = true := by
  obtain ⟨target, ht, hfit⟩ := h op t rfl
  refine ⟨target, ht, ?_⟩
  rcases hfit with h | h | h
  · exact h
  · simp only [hwide, Bool.false_eq_true] at h
  · simp only [hop, Bool.false_eq_true] at h

theorem emit_jump {lay : Layout} {wide : List Nat} {op : Opcode} {t : Label} {p : Nat}
    (h : lay.Reaches wide (.jump op t, p)) (T : PoolBuilder) :
    ∃ bytes, lay.emit wide (.jump op t, p) T = .ok (bytes, T) := by
  obtain ⟨target, ht, -⟩ := h op t rfl
  simp only [emit, Build.instruction]
  rw [ht, Build.lift_ok_bind]
  split
  · cases wide.contains p <;> cases op.invertedBranch? <;> exact ⟨_, rfl⟩
  · -- a branch left short is in range, so the overflow check passes
    rename_i hshort
    simp only [Bool.or_eq_true, not_or] at hshort
    obtain ⟨target', ht', hfits⟩ :=
      h.fits (Bool.eq_false_iff.mpr hshort.1) (Bool.eq_false_iff.mpr hshort.2)
    obtain rfl : target' = target := Except.ok.inj (ht'.symm.trans ht)
    simp only [hfits, if_true, Bool.eq_false_iff.mpr hshort.1]
    exact ⟨_, rfl⟩

end Layout

open Layout

theorem foldlM_collect {F : List Nat → Instruction Label × Nat → Except FormatError (List Nat)}
    {P : Instruction Label × Nat → Prop} {Q : Instruction Label × Nat → Bool}
    (hF : ∀ acc q acc', F acc q = .ok acc' →
      (acc' = acc ∧ P q) ∨ (acc' = acc ++ [q.2] ∧ Q q = true)) :
    ∀ (l : List (Instruction Label × Nat)) (acc added : List Nat), l.foldlM F acc = .ok added →
      ∃ new, added = acc ++ new ∧ new.Sublist ((l.filter Q).map Prod.snd) ∧
        ∀ q ∈ l, P q ∨ q.2 ∈ new
  | [], acc, added, h => ⟨[], by cases h; simp, .slnil, by simp⟩
  | q :: l, acc, added, h => by
    rw [List.foldlM_cons] at h
    obtain ⟨acc', hq, hl⟩ := Except.bind_eq_ok_iff.mp h
    rcases hF acc q acc' hq with ⟨rfl, hP⟩ | ⟨rfl, hQ⟩
    · -- kept: the positions collected are those collected from the rest
      obtain ⟨new, rfl, hsub, hall⟩ := foldlM_collect hF l acc' added hl
      refine ⟨new, rfl, hsub.trans ?_, ?_⟩
      · exact ((List.sublist_cons_self q l).filter Q).map _
      · intro q' hq'
        rcases List.mem_cons.mp hq' with rfl | hq'
        · exact .inl hP
        · exact hall q' hq'
    · -- appended: the position of `q` comes first among those collected
      obtain ⟨new, rfl, hsub, hall⟩ := foldlM_collect hF l _ added hl
      refine ⟨q.2 :: new, by simp, ?_, ?_⟩
      · rw [List.filter_cons_of_pos hQ, List.map_cons]
        exact hsub.cons_cons _
      · intro q' hq'
        rcases List.mem_cons.mp hq' with rfl | hq'
        · exact .inr List.mem_cons_self
        · exact (hall q' hq').imp_right (List.mem_cons_of_mem _)

theorem widenings_eq_ok {insns : List (Instruction Label)} {lay : Layout} {wide : List Nat}
    {hasFrames : Bool} {added : List Nat}
    (h : widenings insns lay wide hasFrames = .ok added) :
    added.Sublist ((insns.zipIdx.filter fun q => q.1.isJump && !wide.contains q.2).map Prod.snd) ∧
      ∀ q ∈ insns.zipIdx, lay.Reaches wide q ∨ q.2 ∈ added := by
  unfold widenings at h
  have hcollect := foldlM_collect (P := lay.Reaches wide)
    (Q := fun q => q.1.isJump && !wide.contains q.2) ?step _ _ _ h
  · obtain ⟨new, hnew, hsub, hall⟩ := hcollect
    rw [hnew, List.nil_append]
    exact ⟨hsub, hall⟩
  case step =>
    rintro acc ⟨i, p⟩ acc' hq
    dsimp only at hq
    cases i
    case jump op t =>
      dsimp only at hq
      obtain ⟨target, ht, hq⟩ := Except.bind_eq_ok_iff.mp hq
      split at hq
      · -- the branch reaches its target as it stands
        rename_i hreach
        cases hq
        refine .inl ⟨rfl, fun op' t' he => ?_⟩
        cases he
        simp only [Bool.or_eq_true, Int.ofNat_eq_natCast] at hreach
        exact ⟨target, ht, by simpa only [or_assoc] using hreach⟩
      · rename_i hshort
        simp only [Bool.or_eq_true, not_or] at hshort
        split at hq
        · -- a branch that can be widened is collected
          cases hq
          exact .inr ⟨rfl, by simpa [Instruction.isJump] using hshort.1.2⟩
        · cases hq
    all_goals cases hq
    all_goals exact .inl ⟨rfl, fun _ _ he => nomatch he⟩

def jumpPositions (insns : List (Instruction Label)) : List Nat :=
  (insns.zipIdx.filter fun q => q.1.isJump).map Prod.snd

theorem length_jumpPositions (insns : List (Instruction Label)) :
    (jumpPositions insns).length = insns.countP Instruction.isJump := by
  have h := congrArg List.length (List.filter_map (f := Prod.fst) (p := Instruction.isJump)
    (l := insns.zipIdx))
  rw [List.zipIdx_map_fst] at h
  simpa [jumpPositions, List.countP_eq_length_filter, Function.comp_def] using h.symm

theorem nodup_positions_filter (insns : List (Instruction Label))
    (Q : Instruction Label × Nat → Bool) : ((insns.zipIdx.filter Q).map Prod.snd).Nodup := by
  refine List.Nodup.sublist (List.filter_sublist.map Prod.snd) ?_
  rw [List.zipIdx_map_snd]
  exact List.nodup_range' _

section Rounds

variable (insns : List (Instruction Label)) (positions : List (Label × Nat)) (hasFrames : Bool)

/-- The widening loop run with no bound on its rounds: `Rounds wide S k r` says that from the
branches at `wide` widened and the pool `S` the loop lays the body out `k` times and ends with
`r`. A round lays the body out and stops when that fails, when a branch can be neither reached
nor widened, or when no branch needs widening; otherwise it widens the branches it found. -/
inductive Rounds :
    List Nat → PoolBuilder → Nat → Except FormatError ((List Nat × List Nat) × PoolBuilder) → Prop
  | unmeasured {wide S e} : Layout.measure insns wide S = .error e → Rounds wide S 1 (.error e)
  | refused {wide S offsets S' e} : Layout.measure insns wide S = .ok (offsets, S') →
      widenings insns ⟨offsets, positions⟩ wide hasFrames = .error e → Rounds wide S 1 (.error e)
  | settled {wide S offsets S'} : Layout.measure insns wide S = .ok (offsets, S') →
      widenings insns ⟨offsets, positions⟩ wide hasFrames = .ok [] →
      Rounds wide S 1 (.ok ((offsets, wide), S'))
  | widened {wide S offsets S' added k r} : Layout.measure insns wide S = .ok (offsets, S') →
      widenings insns ⟨offsets, positions⟩ wide hasFrames = .ok added → added ≠ [] →
      Rounds (wide ++ added) S' k r → Rounds wide S (k + 1) r

variable {insns positions hasFrames}

theorem Rounds.settle_eq {wide : List Nat} {S : PoolBuilder} {k : Nat}
    {r : Except FormatError ((List Nat × List Nat) × PoolBuilder)}
    (h : Rounds insns positions hasFrames wide S k r) :
    ∀ fuel, k ≤ fuel → settle insns positions hasFrames fuel wide S = r := by
  induction h with
  | unmeasured hm =>
    rintro (_ | fuel) hk
    · omega
    · simp only [settle]
      exact Build.bind_run_error hm
  | refused hm hw =>
    rintro (_ | fuel) hk
    · omega
    · simp only [settle]
      rw [Build.bind_run_ok hm, hw]
      rfl
  | settled hm hw =>
    rintro (_ | fuel) hk
    · omega
    · simp only [settle]
      rw [Build.bind_run_ok hm, hw, Build.lift_ok_bind]
      rfl
  | widened hm hw hne _ ih =>
    rintro (_ | fuel) hk
    · omega
    · simp only [settle]
      rw [Build.bind_run_ok hm, hw, Build.lift_ok_bind, if_neg (by simpa using hne)]
      exact ih fuel (by omega)

theorem Rounds.functional {wide : List Nat} {S : PoolBuilder} {k₁ k₂ : Nat}
    {r₁ r₂ : Except FormatError ((List Nat × List Nat) × PoolBuilder)}
    (h₁ : Rounds insns positions hasFrames wide S k₁ r₁)
    (h₂ : Rounds insns positions hasFrames wide S k₂ r₂) : k₁ = k₂ ∧ r₁ = r₂ := by
  induction h₁ generalizing k₂ r₂ with
  | unmeasured hm => cases h₂ <;> simp_all
  | refused hm hw => cases h₂ <;> simp_all
  | settled hm hw => cases h₂ <;> simp_all
  | widened hm hw hne _ ih =>
    cases h₂ with
    | widened hm' hw' _ h₂ =>
      obtain ⟨rfl, rfl⟩ := Prod.mk.inj (Except.ok.inj (hm.symm.trans hm'))
      obtain rfl := Except.ok.inj (hw.symm.trans hw')
      obtain ⟨rfl, rfl⟩ := ih h₂
      exact ⟨rfl, rfl⟩
    | _ => simp_all

theorem Rounds.last {wide : List Nat} {S : PoolBuilder} {k : Nat}
    {r : Except FormatError ((List Nat × List Nat) × PoolBuilder)}
    (h : Rounds insns positions hasFrames wide S k r) :
    ∀ {offsets wide' S₁}, r = .ok ((offsets, wide'), S₁) →
      ∃ S₀, Layout.measure insns wide' S₀ = .ok (offsets, S₁) ∧
        widenings insns ⟨offsets, positions⟩ wide' hasFrames = .ok [] := by
  induction h with
  | unmeasured _ | refused _ _ => intro _ _ _ hr; cases hr
  | settled hm hw =>
    intro _ _ _ hr
    cases hr
    exact ⟨_, hm, hw⟩
  | widened _ _ _ _ ih => exact ih

theorem exists_rounds (positions : List (Label × Nat)) (hasFrames : Bool) (wide : List Nat)
    (S : PoolBuilder) (hnd : wide.Nodup)
    (hsub : ∀ p ∈ wide, p ∈ jumpPositions insns) :
    ∃ k r, Rounds insns positions hasFrames wide S k r ∧
      k + wide.length ≤ insns.countP Instruction.isJump + 1 := by
  have hlen : wide.length ≤ insns.countP Instruction.isJump :=
    length_jumpPositions insns ▸ hnd.length_le_of_subset hsub
  cases hm : Layout.measure insns wide S with
  | error e => exact ⟨1, _, .unmeasured hm, by omega⟩
  | ok p =>
    obtain ⟨offsets, S'⟩ := p
    cases hw : widenings insns ⟨offsets, positions⟩ wide hasFrames with
    | error e => exact ⟨1, _, .refused hm hw, by omega⟩
    | ok added =>
      by_cases hne : added = []
      · subst hne
        exact ⟨1, _, .settled hm hw, by omega⟩
      -- a round widens branches not widened yet, so fewer are left to widen
      have hadded := (widenings_eq_ok hw).1
      have hnew : ∀ p ∈ added, p ∈ jumpPositions insns ∧ p ∉ wide := by
        intro p hp
        obtain ⟨q, hq, rfl⟩ := List.mem_map.mp (hadded.subset hp)
        obtain ⟨hq, hjump⟩ := List.mem_filter.mp hq
        simp only [Bool.and_eq_true, Bool.not_eq_true'] at hjump
        exact ⟨List.mem_map.mpr ⟨q, List.mem_filter.mpr ⟨hq, hjump.1⟩, rfl⟩, by simpa using hjump.2⟩
      have hnd' : (wide ++ added).Nodup :=
        List.nodup_append.mpr ⟨hnd, (nodup_positions_filter insns _).sublist hadded,
          fun a ha b hb hab => (hnew b hb).2 (hab ▸ ha)⟩
      have hsub' : ∀ p ∈ wide ++ added, p ∈ jumpPositions insns := by
        intro p hp
        rcases List.mem_append.mp hp with hp | hp
        · exact hsub p hp
        · exact (hnew p hp).1
      have hlen' := length_jumpPositions insns ▸ hnd'.length_le_of_subset hsub'
      have hpos : 0 < added.length := List.length_pos_iff.mpr hne
      obtain ⟨k, r, hr, hk⟩ := exists_rounds positions hasFrames (wide ++ added) S' hnd' hsub'
      refine ⟨k + 1, r, .widened hm hw hne hr, ?_⟩
      rw [List.length_append] at hk
      omega
termination_by insns.countP Instruction.isJump + 1 - wide.length
decreasing_by
  rw [List.length_append] at hlen' ⊢
  omega

theorem rounds_settle (insns : List (Instruction Label)) (positions : List (Label × Nat))
    (hasFrames : Bool) (S : PoolBuilder) :
    ∃ k ≤ insns.countP Instruction.isJump + 1, Rounds insns positions hasFrames [] S k
      (settle insns positions hasFrames (insns.length + 1) [] S) := by
  obtain ⟨k, r, hr, hk⟩ := exists_rounds positions hasFrames [] S List.nodup_nil (by simp)
  have hJ : insns.countP Instruction.isJump ≤ insns.length := List.countP_le_length
  rw [List.length_nil, Nat.add_zero] at hk
  rw [hr.settle_eq _ (by omega)]
  exact ⟨k, hk, hr⟩

end Rounds

theorem MethodModel.encodeBody_eq_ok {m : MethodModel} {lay : Layout} {wide : List Nat}
    {S S' : PoolBuilder} {code : List UInt8} {handlers : List RawHandler}
    (h : m.encodeBody lay wide S = .ok ((code, handlers), S')) :
    ∃ bss S₁, m.instructions.zipIdx.mapM (lay.emit wide) S = .ok (bss, S₁) ∧ code = bss.flatten := by
  unfold MethodModel.encodeBody at h
  obtain ⟨bss, S₁, h₁, h₂⟩ := Build.bind_eq_ok h
  obtain ⟨_, S₂, -, h₃⟩ := Build.bind_eq_ok h₂
  cases h₃
  exact ⟨bss, S₁, h₁, rfl⟩

/-- The layout loop of a method body ends: from no branch widened, every run of it lays the body
out at most once more than the body has branches, and ends with what `settle` gives, whose fuel
never runs out first. When the body's code attribute is built, every instruction is emitted at
the offset the last layout gave it; every branch is emitted without error, and a branch left in
its short form lies within a signed 16-bit displacement of its target. -/
theorem MethodModel.code_layout_settles (m : MethodModel) (P : PoolBuilder) :
    (∀ positions hasFrames,
      (∃ k r, Rounds m.instructions positions hasFrames [] P k r) ∧
      ∀ k r, Rounds m.instructions positions hasFrames [] P k r →
        k ≤ m.instructions.countP Instruction.isJump + 1 ∧
        settle m.instructions positions hasFrames (m.instructions.length + 1) [] P = r) ∧
    ∀ a P', m.code P = .ok (a, P') →
      ∃ positions offsets wide P₁ bss, labelPositions m.instructions = .ok positions ∧
        settle m.instructions positions (m.instructions.any Instruction.isFrame)
          (m.instructions.length + 1) [] P = .ok ((offsets, wide), P₁) ∧
        (∃ P₀, measure m.instructions wide P₀ = .ok (offsets, P₁)) ∧
        m.instructions.zipIdx.mapM (emit ⟨offsets, positions⟩ wide) P₁ = .ok (bss, P₁) ∧
        a.code = bss.flatten ∧
        (∀ p ≤ m.instructions.length, (bss.take p).flatten.length = offsets.getD p 0) ∧
        ∀ p op t, m.instructions[p]? = some (.jump op t) →
          (∀ T, ∃ bytes, emit ⟨offsets, positions⟩ wide (.jump op t, p) T = .ok (bytes, T)) ∧
          (wide.contains p = false → op.isWideJump = false →
            ∃ target, labelOffset ⟨offsets, positions⟩ t = .ok target ∧
              -32768 ≤ (target : Int) - offsets.getD p 0 ∧
              (target : Int) - offsets.getD p 0 ≤ 32767) := by
  refine ⟨fun positions hasFrames => ?_, fun a P' h => ?_⟩
  · -- the loop is deterministic, so the run that `settle` follows is the only one
    obtain ⟨k, hk, hr⟩ := rounds_settle m.instructions positions hasFrames P
    refine ⟨⟨k, _, hr⟩, fun k' r' hr' => ?_⟩
    obtain ⟨rfl, rfl⟩ := hr.functional hr'
    exact ⟨hk, rfl⟩
  obtain ⟨ps, offsets, wide, P₁, P₂, hp, hs, he⟩ := code_eq_ok h
  obtain ⟨k, -, hr⟩ := rounds_settle m.instructions ps (m.instructions.any Instruction.isFrame) P
  rw [hs] at hr
  -- the last round laid the body out and found no branch to widen
  obtain ⟨S₀, hm, hw⟩ := hr.last rfl
  have hreach : ∀ q ∈ m.instructions.zipIdx, Reaches ⟨offsets, ps⟩ wide q := fun q hq =>
    ((widenings_eq_ok hw).2 q hq).resolve_right List.not_mem_nil
  obtain ⟨bss, P₃, hbody, hcode⟩ := MethodModel.encodeBody_eq_ok he
  obtain ⟨hP₃, hoff⟩ := emit_at_offsets hm (PoolBuilder.Extends.refl _) hbody
  rw [hP₃] at hbody
  refine ⟨ps, offsets, wide, P₁, bss, hp, hs, ⟨S₀, hm⟩, hbody, hcode, hoff, fun p op t hpt => ?_⟩
  have hq := hreach (.jump op t, p) (List.mem_zipIdx_iff_getElem?.mpr hpt)
  refine ⟨emit_jump hq, fun hwide hop => ?_⟩
  obtain ⟨target, ht, hfits⟩ := hq.fits hwide hop
  exact ⟨target, ht, fitsSigned_sixteen hfits⟩

theorem coveredLoop_laid_out_as_emitted :
    (coveredLoop ⟨0⟩ ⟨1⟩ 1).code default = .ok (coveredLoopCode 1, coveredLoopPool) ∧
      ∃ (positions : List (Label × Nat)) (offsets wide : List Nat) (P₁ : PoolBuilder)
        (bss : List (List UInt8)),
        settle (coveredLoop ⟨0⟩ ⟨1⟩ 1).instructions positions false 5 [] default =
          .ok ((offsets, wide), P₁) ∧
        (coveredLoopCode 1).code = bss.flatten ∧
        ∀ p ≤ 4, (bss.take p).flatten.length = offsets.getD p 0 := by
  have h : (coveredLoop ⟨0⟩ ⟨1⟩ 1).code default = .ok (coveredLoopCode 1, coveredLoopPool) := rfl
  obtain ⟨positions, offsets, wide, P₁, bss, -, hs, -, -, hcode, hoff, -⟩ :=
    (MethodModel.code_layout_settles _ default).2 _ _ h
  exact ⟨h, positions, offsets, wide, P₁, bss, hs, hcode, hoff⟩

end ClassPatch
