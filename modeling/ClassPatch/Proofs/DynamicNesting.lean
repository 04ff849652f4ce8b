import ClassPatch.Model.Resolve
import ClassPatch.Proofs.InstructionStream

/-!
How deep resolution follows dynamic constants. A dynamic constant resolves its bootstrap
arguments, which may be dynamic constants again, and a malformed pool may make that a cycle.
Resolution carries a budget of nesting levels, recurses on it, and gives up with
`badBootstrapMethod` when it runs out, so it ends on every pool.

The budget changes nothing but that: a result within a budget is the result within every larger
one, a constant resolves within a budget exactly when it resolves at all and nests no deeper
than the budget, and a chain of nested dynamic constants longer than the budget, each readable up
to the argument that leads on, ends in `badBootstrapMethod` rather than in another error. A
loadable constant is resolved with 64 levels, and so are the arguments of a call site.
-/

namespace ClassPatch

namespace Constant

mutual

/-- How deep dynamic constants nest in a constant: none in a constant that is not dynamic, and
one more than in its deepest argument in a dynamic one. -/
def nesting : Constant → Nat
  | .dynamic _ _ _ arguments => nestingList arguments + 1
  | _ => 0

def nestingList : List Constant → Nat
  | [] => 0
  | c :: cs => max (nesting c) (nestingList cs)

end

theorem nestingList_le_iff {cs : List Constant} {n : Nat} :
    nestingList cs ≤ n ↔ ∀ c ∈ cs, c.nesting ≤ n := by
  induction cs with
  | nil => simp [nestingList]
  | cons c cs ih => rw [nestingList, Nat.max_le, ih, List.forall_mem_cons]

end Constant

namespace Resolver

def CutShort {α : Type} (x y : Except FormatError α) : Prop :=
  x = y ∨ ∃ b, x = .error (.badBootstrapMethod b)

namespace CutShort

variable {α β : Type}

theorem refl (x : Except FormatError α) : CutShort x x := .inl rfl

theorem bind {x y : Except FormatError α} {f g : α → Except FormatError β} (hx : CutShort x y)
    (hf : ∀ a, CutShort (f a) (g a)) : CutShort (x >>= f) (y >>= g) := by
  rcases hx with rfl | ⟨b, rfl⟩
  · cases x with
    | error e => exact .inl rfl
    | ok a => exact hf a
  · exact .inr ⟨b, rfl⟩

theorem mapM {l : List α} {F G : α → Except FormatError β} (h : ∀ a ∈ l, CutShort (F a) (G a)) :
    CutShort (l.mapM F) (l.mapM G) := by
  induction l with
  | nil => exact .inl rfl
  | cons a l ih =>
    simp only [List.mapM_cons]
    exact bind (h a List.mem_cons_self) fun _ =>
      bind (ih fun a' ha' => h a' (List.mem_cons_of_mem a ha')) fun _ => refl _

end CutShort

variable {r : Resolver}

theorem loadableWithin_cutShort {n N : Nat} (hle : n ≤ N) (i : UInt16) :
    CutShort (r.loadableWithin n i) (r.loadableWithin N i) := by
  -- induction on the smaller budget; only a dynamic entry spends it
  induction n generalizing N i with
  | zero =>
    unfold loadableWithin
    refine CutShort.bind (.refl _) fun e => ?_
    cases e
    case dynamic b nat => exact .inr ⟨b, rfl⟩
    all_goals exact .refl _
  | succ m ih =>
    obtain ⟨M, rfl⟩ : ∃ M, N = M + 1 := ⟨N - 1, by omega⟩
    unfold loadableWithin
    refine CutShort.bind (.refl _) fun e => ?_
    cases e
    case dynamic b nat =>
      refine CutShort.bind (.refl _) fun names => ?_
      obtain ⟨name, descriptor⟩ := names
      refine CutShort.bind (.refl _) fun entry => CutShort.bind (.refl _) fun bootstrap => ?_
      exact CutShort.bind (CutShort.mapM fun a _ => ih (by omega) a) fun _ => .refl _
    all_goals exact .refl _

section Step

variable {i b nat : UInt16} {n : Nat} {c : Constant}

theorem loadableWithin_zero_of_dynamic (h : r.pool.entry i = .ok (.dynamic b nat)) :
    r.loadableWithin 0 i = .error (.badBootstrapMethod b) := by
  unfold loadableWithin
  rw [h]
  rfl

theorem loadableWithin_succ_of_dynamic {name descriptor : String} {e : BootstrapEntry}
    {bootstrap : MethodHandle} (h : r.pool.entry i = .ok (.dynamic b nat))
    (hnat : r.pool.nameAndType nat = .ok (name, descriptor)) (he : r.bootstrapEntry b = .ok e)
    (hh : r.handle e.method = .ok bootstrap) :
    r.loadableWithin (n + 1) i = e.arguments.mapM (r.loadableWithin n) >>= fun arguments =>
      pure (.dynamic name descriptor bootstrap arguments) := by
  rw [loadableWithin.eq_def, h]
  simp only [Except.ok_bind, hnat, he, hh]

theorem loadableWithin_eq_ok_of_dynamic {N : Nat} (h : r.pool.entry i = .ok (.dynamic b nat))
    (hc : r.loadableWithin N i = .ok c) :
    ∃ M name descriptor e bootstrap arguments, N = M + 1 ∧
      r.pool.nameAndType nat = .ok (name, descriptor) ∧ r.bootstrapEntry b = .ok e ∧
      r.handle e.method = .ok bootstrap ∧ e.arguments.mapM (r.loadableWithin M) = .ok arguments ∧
      c = .dynamic name descriptor bootstrap arguments := by
  cases N with
  | zero =>
    rw [loadableWithin_zero_of_dynamic h] at hc
    cases hc
  | succ M =>
    rw [loadableWithin.eq_def, h, Except.ok_bind] at hc
    obtain ⟨⟨name, descriptor⟩, hnat, hc⟩ := Except.bind_eq_ok_iff.mp hc
    obtain ⟨e, he, hc⟩ := Except.bind_eq_ok_iff.mp hc
    obtain ⟨bootstrap, hh, hc⟩ := Except.bind_eq_ok_iff.mp hc
    obtain ⟨arguments, hargs, hc⟩ := Except.bind_eq_ok_iff.mp hc
    exact ⟨M, name, descriptor, e, bootstrap, arguments, rfl, hnat, he, hh, hargs,
      (Except.ok.inj hc).symm⟩

variable (hd : ∀ b nat, r.pool.entry i ≠ .ok (.dynamic b nat))
include hd

theorem loadableWithin_eq_of_not_dynamic (n m : Nat) : r.loadableWithin n i = r.loadableWithin m i := by
  unfold loadableWithin
  cases he : r.pool.entry i with
  | error e => rfl
  | ok e =>
    cases e
    case dynamic b nat => exact absurd he (hd b nat)
    all_goals rfl

theorem nesting_of_not_dynamic (hc : r.loadableWithin n i = .ok c) : c.nesting = 0 := by
  unfold loadableWithin at hc
  cases he : r.pool.entry i with
  | error e => rw [he] at hc; cases hc
  | ok e =>
    rw [he, Except.ok_bind] at hc
    cases e
    case dynamic b nat => exact absurd he (hd b nat)
    case integer | float | long | double =>
      cases hc
      rfl
    case string | classRef | methodType | methodHandle =>
      obtain ⟨_, -, hc⟩ := Except.bind_eq_ok_iff.mp hc
      cases hc
      rfl
    all_goals cases hc

end Step

theorem exists_mem_of_forall₂ {α β : Type} {R : α → β → Prop} {xs : List α} {ys : List β}
    (h : List.Forall₂ R xs ys) {y : β} (hy : y ∈ ys) : ∃ x ∈ xs, R x y := by
  induction h with
  | nil => cases hy
  | @cons x y' xs ys hxy _ ih =>
    rcases List.mem_cons.mp hy with rfl | hy
    · exact ⟨x, List.mem_cons_self, hxy⟩
    · obtain ⟨x', hx', hR⟩ := ih hy
      exact ⟨x', List.mem_cons_of_mem x hx', hR⟩

theorem nesting_le_of_loadableWithin {n : Nat} {i : UInt16} {c : Constant}
    (h : r.loadableWithin n i = .ok c) : c.nesting ≤ n := by
  by_cases hd : ∃ b nat, r.pool.entry i = .ok (.dynamic b nat)
  · obtain ⟨b, nat, hd⟩ := hd
    obtain ⟨M, name, descriptor, e, bootstrap, arguments, rfl, -, -, -, hargs, rfl⟩ :=
      loadableWithin_eq_ok_of_dynamic hd h
    -- every argument was resolved with one level less
    have hall : ∀ a ∈ arguments, a.nesting ≤ M := fun a ha => by
      obtain ⟨x, -, hx⟩ := exists_mem_of_forall₂ (forall₂_of_mapM_eq_ok hargs) ha
      exact nesting_le_of_loadableWithin hx
    rw [Constant.nesting]
    exact Nat.succ_le_succ (Constant.nestingList_le_iff.mpr hall)
  · simp only [not_exists] at hd
    have h0 := nesting_of_not_dynamic hd h
    omega
termination_by n

theorem mapM_eq_ok_of_mapM {α β : Type} {F G : α → Except FormatError β} {xs : List α}
    {ys : List β} (h : xs.mapM F = .ok ys) (hFG : ∀ x a, F x = .ok a → a ∈ ys → G x = .ok a) :
    xs.mapM G = .ok ys := by
  induction xs generalizing ys with
  | nil => exact h
  | cons x xs ih =>
    rw [List.mapM_cons] at h ⊢
    obtain ⟨a, ha, h⟩ := Except.bind_eq_ok_iff.mp h
    obtain ⟨as, has, h⟩ := Except.bind_eq_ok_iff.mp h
    cases h
    rw [hFG x a ha List.mem_cons_self,
      ih has fun x' a' hx' ha' => hFG x' a' hx' (List.mem_cons_of_mem a ha')]
    rfl

theorem loadableWithin_of_nesting_le {n N : Nat} {i : UInt16} {c : Constant}
    (h : r.loadableWithin N i = .ok c) (hn : c.nesting ≤ n) : r.loadableWithin n i = .ok c := by
  by_cases hd : ∃ b nat, r.pool.entry i = .ok (.dynamic b nat)
  · obtain ⟨b, nat, hd⟩ := hd
    obtain ⟨M, name, descriptor, e, bootstrap, arguments, rfl, hnat, he, hh, hargs, rfl⟩ :=
      loadableWithin_eq_ok_of_dynamic hd h
    rw [Constant.nesting] at hn
    obtain ⟨m, rfl⟩ : ∃ m, n = m + 1 := ⟨n - 1, by omega⟩
    have hall : ∀ a ∈ arguments, a.nesting ≤ m := Constant.nestingList_le_iff.mp (by omega)
    -- each argument nests within the smaller budget, so it resolves there alike
    rw [loadableWithin_succ_of_dynamic hd hnat he hh,
      mapM_eq_ok_of_mapM hargs fun x a hx ha => loadableWithin_of_nesting_le hx (hall a ha)]
    rfl
  · simp only [not_exists] at hd
    rw [loadableWithin_eq_of_not_dynamic hd n N]
    exact h
termination_by n

/-- The constant at `i` resolves to `c` when dynamic constants may nest to any depth. -/
def Resolves (r : Resolver) (i : UInt16) (c : Constant) : Prop :=
  ∃ n, r.loadableWithin n i = .ok c

theorem Resolves.cutShort {x : UInt16} {c : Constant} (h : r.Resolves x c) (m : Nat) :
    CutShort (r.loadableWithin m x) (.ok c) := by
  obtain ⟨N, hN⟩ := h
  rcases Nat.le_total m N with hle | hle
  · rw [← hN]
    exact loadableWithin_cutShort hle x
  · rcases loadableWithin_cutShort hle x with heq | ⟨b, hb⟩
    · exact .inl (heq.symm.trans hN)
    · rw [hN] at hb
      cases hb

/-- Resolving the arguments of bootstrap method `b` reaches its argument `a`: the method's entry
and handle read, and every argument before `a` resolves. -/
def Through (r : Resolver) (b a : UInt16) : Prop :=
  ∃ e before after, r.bootstrapEntry b = .ok e ∧ (∃ bootstrap, r.handle e.method = .ok bootstrap) ∧
    e.arguments = before ++ a :: after ∧ ∀ x ∈ before, ∃ c, r.Resolves x c

/-- `k` dynamic constants nest from the one at `i`: each is an argument that the bootstrap method
of the one before reaches, and each but the last has a readable name and type. -/
inductive Nests (r : Resolver) : Nat → UInt16 → Prop
  | one {i b nat : UInt16} : r.pool.entry i = .ok (.dynamic b nat) → Nests r 1 i
  | more {i b nat a : UInt16} {k : Nat} {name descriptor : String} :
      r.pool.entry i = .ok (.dynamic b nat) → r.pool.nameAndType nat = .ok (name, descriptor) →
      r.Through b a → Nests r k a → Nests r (k + 1) i

theorem mapM_cut_of_reaches {F : UInt16 → Except FormatError Constant} {before : List UInt16}
    (after : List UInt16) {a b : UInt16} (hbefore : ∀ x ∈ before, ∃ c, CutShort (F x) (.ok c))
    (ha : F a = .error (.badBootstrapMethod b)) :
    ∃ b', (before ++ a :: after).mapM F = .error (.badBootstrapMethod b') := by
  induction before with
  | nil =>
    rw [List.nil_append, List.mapM_cons, ha]
    exact ⟨b, rfl⟩
  | cons x before ih =>
    obtain ⟨c, hc⟩ := hbefore x List.mem_cons_self
    rw [List.cons_append, List.mapM_cons]
    rcases hc with hc | ⟨b', hc⟩
    · obtain ⟨b', hb'⟩ := ih fun x' hx' => hbefore x' (List.mem_cons_of_mem x hx')
      rw [hc, Except.ok_bind, hb']
      exact ⟨b', rfl⟩
    · rw [hc]
      exact ⟨b', rfl⟩

theorem Through.arguments_cut {b a : UInt16} {m : Nat} (h : r.Through b a) {ba : UInt16}
    (ha : r.loadableWithin m a = .error (.badBootstrapMethod ba)) :
    ∃ e bootstrap b', r.bootstrapEntry b = .ok e ∧ r.handle e.method = .ok bootstrap ∧
      e.arguments.mapM (r.loadableWithin m) = .error (.badBootstrapMethod b') := by
  obtain ⟨e, before, after, he, ⟨bootstrap, hh⟩, hargs, hbefore⟩ := h
  obtain ⟨b', hb'⟩ := mapM_cut_of_reaches after
    (fun x hx => (hbefore x hx).imp fun _ hc => hc.cutShort m) ha
  exact ⟨e, bootstrap, b', he, hh, hargs ▸ hb'⟩

theorem loadableWithin_of_nests {k : Nat} {i : UInt16} (h : r.Nests k i) {n : Nat} (hn : n < k) :
    ∃ b, r.loadableWithin n i = .error (.badBootstrapMethod b) := by
  induction h generalizing n with
  | one hd =>
    obtain rfl : n = 0 := by omega
    exact ⟨_, loadableWithin_zero_of_dynamic hd⟩
  | more hd hnat hthrough _ ih =>
    cases n with
    | zero => exact ⟨_, loadableWithin_zero_of_dynamic hd⟩
    | succ m =>
      obtain ⟨ba, hba⟩ := ih (n := m) (by omega)
      obtain ⟨e, bootstrap, b', he, hh, hcut⟩ := hthrough.arguments_cut hba
      rw [loadableWithin_succ_of_dynamic hd hnat he hh, hcut]
      exact ⟨b', rfl⟩

section CallSite

variable {i b nat : UInt16} {name descriptor : String} {bootstrap : MethodHandle}

theorem invokeDynamic_of_readable {e : BootstrapEntry}
    (h : r.pool.entry i = .ok (.invokeDynamic b nat))
    (hnat : r.pool.nameAndType nat = .ok (name, descriptor)) (he : r.bootstrapEntry b = .ok e)
    (hh : r.handle e.method = .ok bootstrap) :
    r.invokeDynamic i = e.arguments.mapM (r.loadableWithin maxDynamicDepth) >>= fun arguments =>
      pure (name, descriptor, bootstrap, arguments) := by
  rw [invokeDynamic, h]
  simp only [Except.ok_bind, hnat, he, hh]

theorem invokeDynamic_eq_ok {arguments : List Constant}
    (h : r.invokeDynamic i = .ok (name, descriptor, bootstrap, arguments)) :
    ∃ indices : List UInt16, indices.mapM (r.loadableWithin maxDynamicDepth) = .ok arguments := by
  unfold invokeDynamic at h
  obtain ⟨entry, -, h⟩ := Except.bind_eq_ok_iff.mp h
  cases entry
  case invokeDynamic b nat =>
    obtain ⟨_, -, h⟩ := Except.bind_eq_ok_iff.mp h
    obtain ⟨e, -, h⟩ := Except.bind_eq_ok_iff.mp h
    obtain ⟨_, -, h⟩ := Except.bind_eq_ok_iff.mp h
    obtain ⟨arguments', hargs, h⟩ := Except.bind_eq_ok_iff.mp h
    cases h
    exact ⟨_, hargs⟩
  all_goals cases h

end CallSite

/-- Resolution ends on every pool and follows dynamic constants at most 64 levels deep. A
loadable constant resolves exactly when it resolves with no bound on nesting and nests at most
64 levels, and the arguments of a call site nest at most 64 levels; dynamic constants nested
more than 64 levels deep, each readable up to the argument that leads on, are refused with
`badBootstrapMethod`, as a loadable constant and as the argument of a call site alike. -/
theorem resolution_depth_bounded (r : Resolver) :
    (∀ i c, r.loadable i = .ok c ↔ r.Resolves i c ∧ c.nesting ≤ maxDynamicDepth) ∧
    (∀ i name descriptor bootstrap arguments,
      r.invokeDynamic i = .ok (name, descriptor, bootstrap, arguments) →
      ∀ c ∈ arguments, c.nesting ≤ maxDynamicDepth) ∧
    (∀ i k, r.Nests k i → maxDynamicDepth < k →
      ∃ b, r.loadable i = .error (.badBootstrapMethod b)) ∧
    (∀ i b nat a k, r.pool.entry i = .ok (.invokeDynamic b nat) →
      (∃ names, r.pool.nameAndType nat = .ok names) → r.Through b a → r.Nests k a →
      maxDynamicDepth < k → ∃ b', r.invokeDynamic i = .error (.badBootstrapMethod b')) := by
  refine ⟨fun i c => ⟨fun h => ⟨⟨_, h⟩, nesting_le_of_loadableWithin h⟩,
    fun ⟨⟨_, hN⟩, hn⟩ => loadableWithin_of_nesting_le hN hn⟩, ?_,
    fun i k hnests hk => loadableWithin_of_nests hnests hk, ?_⟩
  · intro i name descriptor bootstrap arguments h c hc
    obtain ⟨indices, hidx⟩ := invokeDynamic_eq_ok h
    obtain ⟨x, -, hx⟩ := exists_mem_of_forall₂ (forall₂_of_mapM_eq_ok hidx) hc
    exact nesting_le_of_loadableWithin hx
  · intro i b nat a k hentry ⟨⟨name, descriptor⟩, hnat⟩ hthrough hnests hk
    obtain ⟨ba, hba⟩ := loadableWithin_of_nests hnests hk
    obtain ⟨e, bootstrap, b', he, hh, hcut⟩ := hthrough.arguments_cut hba
    rw [invokeDynamic_of_readable hentry hnat he hh, hcut]
    exact ⟨b', rfl⟩

def selfBootstrapped : Resolver where
  pool :=
    { entries := [(1, .dynamic 0 2), (2, .nameAndType 3 4), (3, .utf8 (.ofString "x")),
        (4, .utf8 (.ofString "I")), (5, .methodHandle .invokeStatic 6), (6, .methodref 7 8 false),
        (7, .classRef 9), (8, .nameAndType 3 10), (9, .utf8 (.ofString "C")),
        (10, .utf8 (.ofString "()I"))]
      next := 11 }
  bootstrap := [⟨5, [1]⟩]

theorem selfBootstrapped_nests (k : Nat) : selfBootstrapped.Nests (k + 1) 1 := by
  induction k with
  | zero => exact .one rfl
  | succ k ih => exact .more rfl rfl ⟨⟨5, [1]⟩, [], [], rfl, ⟨_, rfl⟩, rfl, by simp⟩ ih

theorem selfBootstrapped_refused :
    selfBootstrapped.Nests 65 1 ∧
      ∃ b, selfBootstrapped.loadable 1 = .error (.badBootstrapMethod b) :=
  ⟨selfBootstrapped_nests 64,
    (resolution_depth_bounded selfBootstrapped).2.2.1 1 65 (selfBootstrapped_nests 64) (by decide)⟩

end Resolver

end ClassPatch
