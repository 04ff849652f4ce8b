import ClassPatch.Proofs.Interning

namespace ClassPatch

namespace Build

open PoolBuilder

variable {α β : Type}

def Stable (x : Build α) : Prop :=
  ∀ S a S', x S = .ok (a, S') → S.Extends S' ∧ ∀ T, S'.Extends T → x T = .ok (a, T)

namespace Stable

variable {x : Build α} {f : α → Build β}

theorem pure (a : α) : Stable (Pure.pure a : Build α) := by
  intro S b S' h
  cases h
  exact ⟨Extends.refl _, fun _ _ => rfl⟩

theorem fail (e : FormatError) : Stable (Build.fail e : Build α) := by
  intro S a S' h
  cases h

theorem lift (r : Except FormatError α) : Stable (lift r) := by
  intro S a S' h
  obtain ⟨hr, rfl⟩ := lift_eq_ok h
  exact ⟨Extends.refl _, fun T _ => by rw [hr]; rfl⟩

theorem bind (hx : Stable x) (hf : ∀ a, Stable (f a)) : Stable (x >>= f) := by
  intro S b S₂ h
  obtain ⟨a, S₁, h₁, h₂⟩ := bind_eq_ok h
  obtain ⟨hS₁, hx'⟩ := hx S a S₁ h₁
  obtain ⟨hS₂, hf'⟩ := hf a S₁ b S₂ h₂
  refine ⟨hS₁.trans hS₂, fun T hT => ?_⟩
  change (x T >>= fun p => f p.1 p.2) = _
  rw [hx' T (hS₂.trans hT)]
  exact hf' T hT

theorem mapM {l : List α} {f : α → Build β} (h : ∀ a ∈ l, Stable (f a)) : Stable (l.mapM f) := by
  induction l with
  | nil => exact pure _
  | cons a l ih =>
    rw [List.mapM_cons]
    exact (h a List.mem_cons_self).bind fun _ =>
      (ih fun a' ha' => h a' (List.mem_cons_of_mem a ha')).bind fun _ => pure _

end Stable

theorem stable_entry (e : PoolEntry) : Stable (entry e) := by
  intro S i S' h
  unfold entry Pool.intern Pool.pushConstant at h
  cases hfind : S.pool.entries.find? (·.2 == e) with
  | some x =>
    -- found: the first place it stands stays first in every extension
    simp only [hfind, Except.ok.injEq, Prod.mk.injEq] at h
    obtain ⟨rfl, rfl⟩ := h
    refine ⟨Extends.refl _, fun T hT => ?_⟩
    unfold entry Pool.intern
    rw [hT.1.find?_eq_some hfind]
  | none =>
    -- appended: nothing before it was the entry, so it is found where it was put
    by_cases hfit : S.pool.next + e.width > 65535
    · simp [hfind, hfit] at h
    · simp only [hfind, hfit, if_false, Except.ok.injEq, Prod.mk.injEq] at h
      obtain ⟨rfl, rfl⟩ := h
      refine ⟨⟨List.prefix_append _ _, List.prefix_refl _⟩, fun T hT => ?_⟩
      have hfound : T.pool.entries.find? (·.2 == e) = some (S.pool.next, e) := by
        refine hT.1.find?_eq_some ?_
        simp [List.find?_append, hfind]
      unfold entry Pool.intern
      rw [hfound, Pool.push_fst]

theorem idxOf?_append_of_eq_some {l t : List BootstrapEntry} {e : BootstrapEntry} {k : Nat}
    (h : l.idxOf? e = some k) : (l ++ t).idxOf? e = some k := by
  simp only [List.idxOf?, List.findIdx?_append] at h ⊢
  rw [h]
  rfl

theorem stable_bootstrapEntry (e : BootstrapEntry) : Stable (bootstrapEntry e) := by
  intro S i S' h
  unfold bootstrapEntry at h
  cases hfind : S.bootstrap.idxOf? e with
  | some k =>
    rw [hfind] at h
    cases h
    refine ⟨Extends.refl _, fun T hT => ?_⟩
    obtain ⟨t, ht⟩ := hT.2
    unfold bootstrapEntry
    rw [← ht, idxOf?_append_of_eq_some hfind]
  | none =>
    rw [hfind] at h
    cases h
    refine ⟨⟨List.prefix_refl _, List.prefix_append _ _⟩, fun T hT => ?_⟩
    obtain ⟨t, ht⟩ := hT.2
    have hfound : (S.bootstrap ++ [e]).idxOf? e = some S.bootstrap.length := by
      simp only [List.idxOf?, List.findIdx?_append] at hfind ⊢
      simp [hfind]
    unfold bootstrapEntry
    rw [← ht, idxOf?_append_of_eq_some hfound]

theorem stable_utf8 (s : String) : Stable (utf8 s) := stable_entry _

theorem stable_classRef (name : String) : Stable (classRef name) :=
  (stable_utf8 _).bind fun _ => stable_entry _

theorem stable_nameAndType (name descriptor : String) : Stable (nameAndType name descriptor) :=
  (stable_utf8 _).bind fun _ => (stable_utf8 _).bind fun _ => stable_entry _

theorem stable_fieldRef (f : FieldRef) : Stable (fieldRef f) :=
  (stable_classRef _).bind fun _ => (stable_nameAndType _ _).bind fun _ => stable_entry _

theorem stable_methodRef (m : MethodRef) : Stable (methodRef m) :=
  (stable_classRef _).bind fun _ => (stable_nameAndType _ _).bind fun _ => stable_entry _

theorem stable_handle (h : MethodHandle) : Stable (handle h) := by
  unfold handle
  dsimp only
  split
  · exact (stable_fieldRef _).bind fun _ => stable_entry _
  · exact (stable_methodRef _).bind fun _ => stable_entry _

mutual

theorem stable_constant : ∀ c : Constant, Stable (constant c)
  | .integer _ | .float _ | .long _ | .double _ => stable_entry _
  | .string _ => (stable_entry _).bind fun _ => stable_entry _
  | .classRef _ => stable_classRef _
  | .methodType _ => (stable_utf8 _).bind fun _ => stable_entry _
  | .methodHandle _ => stable_handle _
  | .dynamic _ _ _ arguments =>
    (stable_handle _).bind fun _ => (stable_constants arguments).bind fun _ =>
      (stable_bootstrapEntry _).bind fun _ => (stable_nameAndType _ _).bind fun _ => stable_entry _

theorem stable_constants : ∀ cs : List Constant, Stable (constants cs)
  | [] => Stable.pure _
  | c :: cs => (stable_constant c).bind fun _ => (stable_constants cs).bind fun _ => Stable.pure _

end

theorem stable_bootstrapMethod (h : MethodHandle) (arguments : List Constant) :
    Stable (bootstrapMethod h arguments) :=
  (stable_handle _).bind fun _ => (stable_constants _).bind fun _ => stable_bootstrapEntry _

end Build

end ClassPatch
