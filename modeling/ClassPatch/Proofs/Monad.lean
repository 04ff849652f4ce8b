import Mathlib.Data.List.Forall2
import ClassPatch.Bytecode.Layout

namespace ClassPatch

@[simp] theorem Except.ok_bind {ε α β : Type} (a : α) (f : α → Except ε β) :
    (Except.ok a >>= f) = f a := rfl

@[simp] theorem Except.pure_eq_ok {ε α : Type} (a : α) : (pure a : Except ε α) = .ok a := rfl

@[simp] theorem Except.error_bind {ε α β : Type} (e : ε) (f : α → Except ε β) :
    (Except.error e >>= f) = .error e := rfl

theorem Except.eq_ok_of_toOption {ε α : Type} {x : Except ε α} {a : α} (h : x.toOption = some a) :
    x = .ok a := by
  cases x with
  | error e => cases h
  | ok b =>
    cases h
    rfl

namespace Build

variable {α β : Type} {x : Build α} {f : α → Build β} {s s' : PoolBuilder} {b : β}

theorem bind_eq_ok (h : (x >>= f) s = .ok (b, s')) :
    ∃ a s₁, x s = .ok (a, s₁) ∧ f a s₁ = .ok (b, s') := by
  change (x s >>= fun p => f p.1 p.2) = _ at h
  cases hx : x s with
  | error e => rw [hx] at h; cases h
  | ok p =>
    rw [hx] at h
    exact ⟨p.1, p.2, rfl, h⟩

theorem lift_eq_ok {r : Except FormatError α} {a : α} (h : lift r s = .ok (a, s')) :
    r = .ok a ∧ s' = s := by
  cases r with
  | error e => cases h
  | ok b =>
    simp only [lift, Except.map, Except.ok.injEq, Prod.mk.injEq] at h
    exact ⟨congrArg Except.ok h.1, h.2.symm⟩

@[simp] theorem lift_ok_bind (a : α) (f : α → Build β) : (lift (.ok a) >>= f) = f a := rfl

end Build

section Forall₂

variable {m : Type → Type} [Monad m] [LawfulMonad m] {α α' β γ : Type} {R : α → α' → Prop}

theorem mapM_eq_of_forall₂ {f : α → m β} {g : α' → m β} :
    ∀ {xs : List α} {ys : List α'}, List.Forall₂ (fun x y => f x = g y) xs ys →
      xs.mapM f = ys.mapM g
  | _, _, .nil => rfl
  | _, _, .cons hxy h => by
    rw [List.mapM_cons, List.mapM_cons, hxy, mapM_eq_of_forall₂ h]

theorem mapM_eq_pure_map {f : α → m β} {g : α → β} :
    ∀ {xs : List α}, (∀ x ∈ xs, f x = pure (g x)) → xs.mapM f = pure (xs.map g)
  | [], _ => rfl
  | x :: xs, h => by
    rw [List.mapM_cons, h x List.mem_cons_self,
      mapM_eq_pure_map fun y hy => h y (List.mem_cons_of_mem x hy)]
    simp

omit [LawfulMonad m] in
theorem foldlM_eq_of_forall₂ {f : γ → α → m γ} {g : γ → α' → m γ}
    (hfg : ∀ c x y, R x y → f c x = g c y) :
    ∀ {xs : List α} {ys : List α'} (c : γ), List.Forall₂ R xs ys →
      xs.foldlM f c = ys.foldlM g c
  | _, _, _, .nil => rfl
  | _, _, c, .cons hxy h => by
    simp only [List.foldlM_cons, hfg c _ _ hxy]
    congr 1
    funext c'
    exact foldlM_eq_of_forall₂ hfg c' h

end Forall₂

end ClassPatch
