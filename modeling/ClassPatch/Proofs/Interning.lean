import ClassPatch.Proofs.RawFormat
import ClassPatch.Proofs.SlotSearch
import ClassPatch.Proofs.Monad
import ClassPatch.Model.ElementValue

namespace ClassPatch

namespace PoolEntry

def bootstrapIndex? : PoolEntry → Option UInt16
  | .dynamic b _ | .invokeDynamic b _ => some b
  | _ => none

end PoolEntry

namespace Pool

theorem slots_append (i : Nat) (es : List PoolEntry) (e : PoolEntry) :
    slots i (es ++ [e]) = slots i es ++ [(i + (es.map PoolEntry.width).sum, e)] := by
  induction es generalizing i with
  | nil => simp [slots]
  | cons e' es ih => simp only [List.cons_append, slots, ih, List.map_cons, List.sum_cons, Nat.add_assoc]

theorem mem_slots {j : Nat} {e : PoolEntry} {es : List PoolEntry} {i : Nat}
    (h : (j, e) ∈ slots i es) : i ≤ j ∧ j + e.width ≤ i + (es.map PoolEntry.width).sum := by
  induction es generalizing i with
  | nil => exact absurd h List.not_mem_nil
  | cons e' es ih =>
    rw [slots, List.mem_cons] at h
    simp only [List.map_cons, List.sum_cons]
    rcases h with h | h
    · obtain ⟨rfl, rfl⟩ := Prod.mk.inj h
      omega
    · have := ih h
      omega

theorem pairwise_slots (i : Nat) (es : List PoolEntry) :
    (slots i es).Pairwise (fun a b => a.1 < b.1) := by
  induction es generalizing i with
  | nil => exact List.Pairwise.nil
  | cons e es ih =>
    refine List.Pairwise.cons (fun x hx => ?_) (ih _)
    have := mem_slots (j := x.1) (e := x.2) hx
    have := e.width_pos
    omega

theorem get?_ofEntries {es : List PoolEntry} {x : Nat × PoolEntry}
    (h : x ∈ (ofEntries es).entries) (hx : x.1 < 65536) : (ofEntries es).get? x.1.toUInt16 = some x.2 := by
  have hindex : x.1.toUInt16.toNat = x.1 := by
    rw [Nat.toUInt16_eq, UInt16.toNat_ofNat_of_lt' hx]
  rw [get?_eq_some_iff (pairwise_slots 1 es), hindex]
  exact h

end Pool

namespace PoolBuilder

/-- A builder as interning leaves it, but for the last `pending` methods of its table, which no
entry names yet: the pool laid out slot after slot below 65535, every dynamic entry naming a
method of the table, and the table no longer than the pool. Between interning a bootstrap method
and the entry that names it, one method is pending. -/
structure Laid (S : PoolBuilder) (pending : Nat) : Prop where
  pool : ∃ es, S.pool = Pool.ofEntries es
  next : S.pool.next ≤ 65535
  bootstraps : ∀ x ∈ S.pool.entries, ∀ b ∈ x.2.bootstrapIndex?,
    b.toNat + pending < S.bootstrap.length
  count : S.bootstrap.length ≤ S.pool.entries.length + pending

def Extends (S T : PoolBuilder) : Prop :=
  S.pool.entries <+: T.pool.entries ∧ S.bootstrap <+: T.bootstrap

theorem Extends.refl (S : PoolBuilder) : S.Extends S :=
  ⟨List.prefix_refl _, List.prefix_refl _⟩

theorem Extends.trans {S T U : PoolBuilder} (h₁ : S.Extends T) (h₂ : T.Extends U) : S.Extends U :=
  ⟨h₁.1.trans h₂.1, h₁.2.trans h₂.2⟩

def Has (S : PoolBuilder) (e : PoolEntry) (i : UInt16) : Prop :=
  S.pool.entries.find? (·.2 == e) = some (i.toNat, e)

theorem Has.mono {S T : PoolBuilder} {e : PoolEntry} {i : UInt16} (h : S.Has e i)
    (hT : S.Extends T) : T.Has e i :=
  hT.1.find?_eq_some h

theorem Laid.slot_lt {S : PoolBuilder} {k : Nat} (hS : S.Laid k) {x : Nat × PoolEntry}
    (hx : x ∈ S.pool.entries) : 1 ≤ x.1 ∧ x.1 + x.2.width < 65536 := by
  obtain ⟨es, hes⟩ := hS.pool
  have hnext := hS.next
  rw [hes] at hx hnext
  have := Pool.mem_slots (j := x.1) (e := x.2) hx
  simp only [Pool.ofEntries] at hnext
  omega

theorem Laid.get? {S : PoolBuilder} {k : Nat} (hS : S.Laid k) {e : PoolEntry} {i : UInt16} (h : S.Has e i) :
    S.pool.get? i = some e := by
  obtain ⟨es, hes⟩ := hS.pool
  have hmem := List.mem_of_find?_eq_some h
  have hlt := (hS.slot_lt hmem).2
  rw [hes] at hmem ⊢
  have := Pool.get?_ofEntries hmem (by simp only at hlt ⊢; omega)
  simpa using this

theorem Has.index_ne_zero {S : PoolBuilder} {k : Nat} (hS : S.Laid k) {e : PoolEntry} {i : UInt16}
    (h : S.Has e i) : i ≠ 0 := by
  have := (hS.slot_lt (List.mem_of_find?_eq_some h)).1
  intro hi
  simp [hi] at this

theorem Laid.toNat_toUInt16 {S : PoolBuilder} {k : Nat} (hS : S.Laid k) {x : Nat × PoolEntry}
    (hx : x ∈ S.pool.entries) : x.1.toUInt16.toNat = x.1 := by
  have := hS.slot_lt hx
  rw [Nat.toUInt16_eq, UInt16.toNat_ofNat_of_lt' (show x.1 < 65536 by omega)]

def push (S : PoolBuilder) (e : PoolEntry) : PoolBuilder :=
  { S with pool := { entries := S.pool.entries ++ [(S.pool.next, e)], next := S.pool.next + e.width } }

theorem Laid.push {S : PoolBuilder} {k k' : Nat} {e : PoolEntry} (hS : S.Laid k)
    (hfit : S.pool.next + e.width ≤ 65535)
    (hold : ∀ x ∈ S.pool.entries, ∀ b ∈ x.2.bootstrapIndex?, b.toNat + k' < S.bootstrap.length)
    (hb : ∀ b ∈ e.bootstrapIndex?, b.toNat + k' < S.bootstrap.length)
    (hcount : S.bootstrap.length ≤ S.pool.entries.length + 1 + k') : (S.push e).Laid k' := by
  obtain ⟨es, hes⟩ := hS.pool
  have hnext : S.pool.next = 1 + (es.map PoolEntry.width).sum := by rw [hes]; rfl
  refine ⟨⟨es ++ [e], ?_⟩, hfit, ?_, ?_⟩
  · -- the new slot follows the others
    simp only [PoolBuilder.push, Pool.ofEntries, Pool.slots_append, List.map_append, List.sum_append,
      List.map_cons, List.map_nil, List.sum_cons, List.sum_nil]
    rw [hes]
    simp only [Pool.ofEntries]
    congr 1
    omega
  · intro x hx b hb'
    rcases List.mem_append.mp hx with hx | hx
    · exact hold x hx b hb'
    · rw [List.mem_singleton.mp hx] at hb'
      exact hb b hb'
  · simp only [PoolBuilder.push, List.length_append, List.length_singleton]
    omega

theorem has_push {S : PoolBuilder} {e : PoolEntry}
    (hfind : S.pool.entries.find? (·.2 == e) = none) (hfit : S.pool.next + e.width ≤ 65535) :
    (S.push e).Has e S.pool.next.toUInt16 := by
  have hlt : S.pool.next.toUInt16.toNat = S.pool.next := by
    rw [Nat.toUInt16_eq, UInt16.toNat_ofNat_of_lt' (show S.pool.next < 65536 by omega)]
  rw [Has, hlt]
  simp [PoolBuilder.push, List.find?_append, hfind]

end PoolBuilder

namespace Build

open PoolBuilder

theorem entry_eq {S S' : PoolBuilder} {k : Nat} {e : PoolEntry} {i : UInt16} (hS : S.Laid k)
    (h : entry e S = .ok (i, S')) :
    (S' = S ∧ S.Has e i) ∨ (S.pool.entries.find? (·.2 == e) = none ∧ S' = S.push e ∧
      i = S.pool.next.toUInt16 ∧ S.pool.next + e.width ≤ 65535) := by
  unfold entry Pool.intern Pool.pushConstant at h
  cases hfind : S.pool.entries.find? (·.2 == e) with
  | some x =>
    obtain ⟨j, e'⟩ := x
    have he' : e' = e := by simpa using List.find?_some hfind
    subst he'
    simp only [hfind, Except.ok.injEq, Prod.mk.injEq] at h
    obtain ⟨rfl, rfl⟩ := h
    refine Or.inl ⟨rfl, ?_⟩
    rw [Has, hS.toNat_toUInt16 (List.mem_of_find?_eq_some hfind)]
    exact hfind
  | none =>
    by_cases hfit : S.pool.next + e.width > 65535
    · simp [hfind, hfit] at h
    · simp only [hfind, hfit, ↓reduceIte, Except.ok.injEq, Prod.mk.injEq] at h
      obtain ⟨rfl, rfl⟩ := h
      exact Or.inr ⟨rfl, rfl, rfl, by omega⟩

theorem entry_spec {S S' : PoolBuilder} {k : Nat} {e : PoolEntry} {i : UInt16} (hS : S.Laid k)
    (hb : ∀ b ∈ e.bootstrapIndex?, b.toNat + k < S.bootstrap.length)
    (h : entry e S = .ok (i, S')) :
    S'.Laid k ∧ S.Extends S' ∧ S'.Has e i ∧ S'.bootstrap = S.bootstrap := by
  rcases entry_eq hS h with ⟨rfl, hhas⟩ | ⟨hfind, rfl, rfl, hfit⟩
  · exact ⟨hS, Extends.refl _, hhas, rfl⟩
  · refine ⟨hS.push hfit hS.bootstraps hb (by have := hS.count; omega),
      ⟨List.prefix_append _ _, List.prefix_refl _⟩, has_push hfind hfit, rfl⟩

theorem entry_closes {S S' : PoolBuilder} {e : PoolEntry} {b i : UInt16} (hS : S.Laid 1)
    (he : e.bootstrapIndex? = some b) (hb : b.toNat + 1 = S.bootstrap.length)
    (h : entry e S = .ok (i, S')) :
    S'.Laid 0 ∧ S.Extends S' ∧ S'.Has e i ∧ S'.bootstrap = S.bootstrap := by
  rcases entry_eq hS h with ⟨rfl, hhas⟩ | ⟨hfind, rfl, rfl, hfit⟩
  · -- an entry already there names a method that is not pending
    have := hS.bootstraps _ (List.mem_of_find?_eq_some hhas) b he
    omega
  · refine ⟨hS.push hfit (fun x hx b' hb' => ?_) (fun b' hb' => ?_) (by have := hS.count; omega),
      ⟨List.prefix_append _ _, List.prefix_refl _⟩, has_push hfind hfit, rfl⟩
    · have := hS.bootstraps x hx b' hb'
      omega
    · rw [he, Option.mem_some_iff] at hb'
      subst hb'
      omega

theorem entry_has {T : PoolBuilder} {e : PoolEntry} {i : UInt16} (h : T.Has e i) :
    entry e T = .ok (i, T) := by
  unfold entry Pool.intern
  rw [h]
  simp

/-- What a step leaves: a builder laid out but for `pending` methods of its table that extends
the one before, and in every laid-out builder extending it the step gives the same value again
and changes nothing. -/
structure Spec {α : Type} (pending : Nat) (x : Build α) (S : PoolBuilder) (a : α) (S' : PoolBuilder) :
    Prop where
  laid : S'.Laid pending
  grows : S.Extends S'
  settled : ∀ T, S'.Extends T → T.Laid 0 → x T = .ok (a, T)

theorem Spec.bind {α β : Type} {k k' : Nat} {x : Build α} {f : α → Build β}
    {S S₁ S₂ : PoolBuilder} {a : α} {b : β} (hx : Spec k x S a S₁) (hf : Spec k' (f a) S₁ b S₂) :
    Spec k' (x >>= f) S b S₂ where
  laid := hf.laid
  grows := hx.grows.trans hf.grows
  settled T hT hlaid := by
    change (x T >>= fun p => f p.1 p.2) = _
    rw [hx.settled T (hf.grows.trans hT) hlaid]
    exact hf.settled T hT hlaid

theorem Spec.pure {α : Type} {k : Nat} {S : PoolBuilder} (hS : S.Laid k) (a : α) :
    Spec k (Pure.pure a : Build α) S a S :=
  ⟨hS, Extends.refl S, fun _ _ _ => rfl⟩

theorem Spec.lift {α : Type} {k : Nat} {S : PoolBuilder} (hS : S.Laid k) {r : Except FormatError α}
    {a : α} (h : r = .ok a) : Spec k (lift r) S a S :=
  ⟨hS, Extends.refl S, fun _ _ _ => by rw [h]; rfl⟩

theorem entry_spec' {S S' : PoolBuilder} {k : Nat} {e : PoolEntry} {i : UInt16} (hS : S.Laid k)
    (hb : ∀ b ∈ e.bootstrapIndex?, b.toNat + k < S.bootstrap.length)
    (h : entry e S = .ok (i, S')) :
    Spec k (entry e) S i S' ∧ S'.Has e i ∧ S'.bootstrap = S.bootstrap := by
  obtain ⟨hlaid, hgrows, hhas, hboot⟩ := entry_spec hS hb h
  exact ⟨⟨hlaid, hgrows, fun T hT _ => entry_has (hhas.mono hT)⟩, hhas, hboot⟩

end Build

namespace PoolBuilder

/-- `P` holds of the resolver of every laid-out builder extending `S`. -/
def Resolves (S : PoolBuilder) (P : Resolver → Prop) : Prop :=
  ∀ T, S.Extends T → T.Laid 0 → P ⟨T.pool, T.bootstrap⟩

theorem Resolves.mono {S S' : PoolBuilder} {P : Resolver → Prop} (h : S.Resolves P)
    (hS : S.Extends S') : S'.Resolves P :=
  fun T hT hlaid => h T (hS.trans hT) hlaid

theorem Resolves.and {S : PoolBuilder} {P Q : Resolver → Prop} (hP : S.Resolves P)
    (hQ : S.Resolves Q) : S.Resolves fun r => P r ∧ Q r :=
  fun T hT hlaid => ⟨hP T hT hlaid, hQ T hT hlaid⟩

theorem Has.resolves {S : PoolBuilder} {e : PoolEntry} {i : UInt16} (h : S.Has e i) :
    S.Resolves fun r => r.pool.get? i = some e :=
  fun _ hT hlaid => hlaid.get? (h.mono hT)

end PoolBuilder


namespace Build

open PoolBuilder

variable {S S' : PoolBuilder} {k : Nat}

-- the steps below intern texts and records of indices, none of which names a bootstrap method

theorem javaUtf8_spec {s : JavaString} {i : UInt16} (hS : S.Laid k) (h : javaUtf8 s S = .ok (i, S')) :
    Spec k (javaUtf8 s) S i S' ∧ S'.Has (.utf8 s) i ∧ S'.bootstrap = S.bootstrap :=
  entry_spec' hS (by simp [PoolEntry.bootstrapIndex?]) h

theorem utf8_spec {s : String} {i : UInt16} (hS : S.Laid k) (h : utf8 s S = .ok (i, S')) :
    Spec k (utf8 s) S i S' ∧ S'.Resolves (fun r => r.pool.utf8 i = .ok s) ∧ i ≠ 0 ∧
      S'.bootstrap = S.bootstrap := by
  obtain ⟨hspec, hhas, hboot⟩ := javaUtf8_spec hS h
  refine ⟨hspec, fun T hT hlaid => ?_, hhas.index_ne_zero hspec.laid, hboot⟩
  simp [Pool.utf8, Pool.javaUtf8, hlaid.get? (hhas.mono hT)]

theorem classRef_spec {name : String} {i : UInt16} (hS : S.Laid k) (h : classRef name S = .ok (i, S')) :
    Spec k (classRef name) S i S' ∧ S'.Resolves (fun r => r.pool.className i = .ok name) ∧
      i ≠ 0 ∧ S'.bootstrap = S.bootstrap := by
  obtain ⟨n, S₁, h₁, h₂⟩ := bind_eq_ok h
  obtain ⟨hspec₁, hname, -, hboot₁⟩ := utf8_spec hS h₁
  obtain ⟨hspec₂, hhas, hboot₂⟩ := entry_spec' hspec₁.laid (by simp [PoolEntry.bootstrapIndex?]) h₂
  refine ⟨hspec₁.bind hspec₂, fun T hT hlaid => ?_, hhas.index_ne_zero hspec₂.laid,
    hboot₂.trans hboot₁⟩
  have hn := hname T (hspec₂.grows.trans hT) hlaid
  simp only at hn
  simp [Pool.className, hlaid.get? (hhas.mono hT), hn]

theorem string_spec {s : JavaString} {i : UInt16} (hS : S.Laid k) (h : string s S = .ok (i, S')) :
    Spec k (string s) S i S' ∧
      S'.Resolves (fun r => ∀ budget, r.loadableWithin budget i = .ok (.string s)) ∧
      S'.bootstrap = S.bootstrap := by
  obtain ⟨t, S₁, h₁, h₂⟩ := bind_eq_ok h
  obtain ⟨hspec₁, htext, hboot₁⟩ := javaUtf8_spec hS h₁
  obtain ⟨hspec₂, hhas, hboot₂⟩ := entry_spec' hspec₁.laid (by simp [PoolEntry.bootstrapIndex?]) h₂
  refine ⟨hspec₁.bind hspec₂, fun T hT hlaid budget => ?_, hboot₂.trans hboot₁⟩
  rw [Resolver.loadableWithin.eq_def]
  simp [Pool.entry, Pool.javaUtf8, hlaid.get? (hhas.mono hT),
    hlaid.get? (htext.mono (hspec₂.grows.trans hT))]

theorem nameAndType_spec {name descriptor : String} {i : UInt16} (hS : S.Laid k)
    (h : nameAndType name descriptor S = .ok (i, S')) :
    Spec k (nameAndType name descriptor) S i S' ∧
      S'.Resolves (fun r => r.pool.nameAndType i = .ok (name, descriptor)) ∧ i ≠ 0 ∧
      S'.bootstrap = S.bootstrap := by
  obtain ⟨n, S₁, h₁, h'⟩ := bind_eq_ok h
  obtain ⟨d, S₂, h₂, h₃⟩ := bind_eq_ok h'
  obtain ⟨hspec₁, hname, -, hboot₁⟩ := utf8_spec hS h₁
  obtain ⟨hspec₂, hdesc, -, hboot₂⟩ := utf8_spec hspec₁.laid h₂
  obtain ⟨hspec₃, hhas, hboot₃⟩ := entry_spec' hspec₂.laid (by simp [PoolEntry.bootstrapIndex?]) h₃
  refine ⟨hspec₁.bind (hspec₂.bind hspec₃), fun T hT hlaid => ?_, hhas.index_ne_zero hspec₃.laid,
    hboot₃.trans (hboot₂.trans hboot₁)⟩
  have hn := hname T ((hspec₂.grows.trans hspec₃.grows).trans hT) hlaid
  have hd := hdesc T (hspec₃.grows.trans hT) hlaid
  simp only at hn hd
  simp [Pool.nameAndType, hlaid.get? (hhas.mono hT), hn, hd]

theorem fieldRef_spec {f : FieldRef} {i : UInt16} (hS : S.Laid k) (h : fieldRef f S = .ok (i, S')) :
    Spec k (fieldRef f) S i S' ∧ S'.Resolves (fun r => r.fieldRef i = .ok f) ∧
      S'.bootstrap = S.bootstrap := by
  obtain ⟨c, S₁, h₁, h'⟩ := bind_eq_ok h
  obtain ⟨nat, S₂, h₂, h₃⟩ := bind_eq_ok h'
  obtain ⟨hspec₁, howner, -, hboot₁⟩ := classRef_spec hS h₁
  obtain ⟨hspec₂, hnat, -, hboot₂⟩ := nameAndType_spec hspec₁.laid h₂
  obtain ⟨hspec₃, hhas, hboot₃⟩ := entry_spec' hspec₂.laid (by simp [PoolEntry.bootstrapIndex?]) h₃
  refine ⟨hspec₁.bind (hspec₂.bind hspec₃), fun T hT hlaid => ?_, hboot₃.trans (hboot₂.trans hboot₁)⟩
  have ho := howner T ((hspec₂.grows.trans hspec₃.grows).trans hT) hlaid
  have hn := hnat T (hspec₃.grows.trans hT) hlaid
  simp only at ho hn
  simp [Resolver.fieldRef, Pool.entry, hlaid.get? (hhas.mono hT), hn, ho]

theorem methodRef_spec {m : MethodRef} {i : UInt16} (hS : S.Laid k) (h : methodRef m S = .ok (i, S')) :
    Spec k (methodRef m) S i S' ∧ S'.Resolves (fun r => r.methodRef i = .ok m) ∧
      S'.bootstrap = S.bootstrap := by
  obtain ⟨c, S₁, h₁, h'⟩ := bind_eq_ok h
  obtain ⟨nat, S₂, h₂, h₃⟩ := bind_eq_ok h'
  obtain ⟨hspec₁, howner, -, hboot₁⟩ := classRef_spec hS h₁
  obtain ⟨hspec₂, hnat, -, hboot₂⟩ := nameAndType_spec hspec₁.laid h₂
  obtain ⟨hspec₃, hhas, hboot₃⟩ := entry_spec' hspec₂.laid (by simp [PoolEntry.bootstrapIndex?]) h₃
  refine ⟨hspec₁.bind (hspec₂.bind hspec₃), fun T hT hlaid => ?_, hboot₃.trans (hboot₂.trans hboot₁)⟩
  have ho := howner T ((hspec₂.grows.trans hspec₃.grows).trans hT) hlaid
  have hn := hnat T (hspec₃.grows.trans hT) hlaid
  simp only at ho hn
  simp [Resolver.methodRef, Pool.entry, hlaid.get? (hhas.mono hT), hn, ho]

theorem handle_spec {h : MethodHandle} {i : UInt16} (hh : h.kind.isField = true → h.isInterface = false)
    (hS : S.Laid k) (hrun : handle h S = .ok (i, S')) :
    Spec k (handle h) S i S' ∧ S'.Resolves (fun r => r.handle i = .ok h) ∧
      S'.bootstrap = S.bootstrap := by
  obtain ⟨kind, owner, name, descriptor, isInterface⟩ := h
  unfold handle at hrun ⊢
  -- the member is a field or a method as the kind says
  cases hk : kind.isField with
  | true =>
    obtain rfl := hh hk
    simp only [hk, ↓reduceIte] at hrun ⊢
    obtain ⟨member, S₁, h₁, h₂⟩ := bind_eq_ok hrun
    obtain ⟨hspec₁, hfield, hboot₁⟩ := fieldRef_spec hS h₁
    obtain ⟨hspec₂, hhas, hboot₂⟩ := entry_spec' hspec₁.laid (by simp [PoolEntry.bootstrapIndex?]) h₂
    refine ⟨hspec₁.bind hspec₂, fun T hT hlaid => ?_, hboot₂.trans hboot₁⟩
    have hf := hfield T (hspec₂.grows.trans hT) hlaid
    simp only at hf
    simp [Resolver.handle, Pool.entry, hlaid.get? (hhas.mono hT), hk, hf]
  | false =>
    simp only [hk, Bool.false_eq_true, ↓reduceIte] at hrun ⊢
    obtain ⟨member, S₁, h₁, h₂⟩ := bind_eq_ok hrun
    obtain ⟨hspec₁, hmethod, hboot₁⟩ := methodRef_spec hS h₁
    obtain ⟨hspec₂, hhas, hboot₂⟩ := entry_spec' hspec₁.laid (by simp [PoolEntry.bootstrapIndex?]) h₂
    refine ⟨hspec₁.bind hspec₂, fun T hT hlaid => ?_, hboot₂.trans hboot₁⟩
    have hm := hmethod T (hspec₂.grows.trans hT) hlaid
    simp only at hm
    simp [Resolver.handle, Pool.entry, hlaid.get? (hhas.mono hT), hk, hm]

end Build


namespace PoolBuilder

theorem Laid.length_lt {S : PoolBuilder} {k : Nat} (hS : S.Laid k) :
    S.pool.entries.length < 65535 := by
  obtain ⟨es, hes⟩ := hS.pool
  have hnext := hS.next
  have hlen := Pool.length_le_sum_width es
  have hslots : (Pool.slots 1 es).length = es.length := by
    clear hes hnext hlen
    suffices ∀ i, (Pool.slots i es).length = es.length from this 1
    induction es with
    | nil => intro; rfl
    | cons e es ih => intro i; simp [Pool.slots, ih]
  rw [hes] at hnext ⊢
  simp only [Pool.ofEntries, hslots] at hnext ⊢
  omega

def HasMethod (S : PoolBuilder) (e : BootstrapEntry) (b : UInt16) : Prop :=
  S.bootstrap.idxOf? e = some b.toNat

theorem HasMethod.mono {S T : PoolBuilder} {e : BootstrapEntry} {b : UInt16} (h : S.HasMethod e b)
    (hT : S.Extends T) : T.HasMethod e b :=
  hT.2.findIdx?_eq_some h

theorem HasMethod.resolves {S : PoolBuilder} {e : BootstrapEntry} {b : UInt16}
    (h : S.HasMethod e b) : S.Resolves fun r => r.bootstrapEntry b = .ok e := by
  intro T hT _
  obtain ⟨hlt, hget, -⟩ := List.idxOf?_eq_some_iff.mp (h.mono hT)
  simp only [Resolver.bootstrapEntry, List.getElem?_eq_getElem hlt, hget]

end PoolBuilder

namespace Build

open PoolBuilder

variable {S S' : PoolBuilder}

theorem bootstrapEntry_has {T : PoolBuilder} {e : BootstrapEntry} {b : UInt16} (h : T.HasMethod e b) :
    bootstrapEntry e T = .ok (b, T) := by
  unfold bootstrapEntry
  rw [h]
  simp

theorem bootstrapEntry_spec {e : BootstrapEntry} {b : UInt16} (hS : S.Laid 0)
    (h : bootstrapEntry e S = .ok (b, S')) :
    S'.HasMethod e b ∧ S'.pool = S.pool ∧
      (Spec 0 (bootstrapEntry e) S b S' ∨
        Spec 1 (bootstrapEntry e) S b S' ∧ b.toNat + 1 = S'.bootstrap.length) := by
  have hlen := hS.length_lt
  have hcount := hS.count
  have hsettled : S'.HasMethod e b → ∀ T, S'.Extends T → T.Laid 0 → bootstrapEntry e T = .ok (b, T) :=
    fun hhas T hT _ => bootstrapEntry_has (hhas.mono hT)
  unfold bootstrapEntry at h
  cases hidx : S.bootstrap.idxOf? e with
  | some j =>
    simp only [hidx, Except.ok.injEq, Prod.mk.injEq] at h
    obtain ⟨rfl, rfl⟩ := h
    have hj := (List.idxOf?_eq_some_iff.mp hidx).1
    have hhas : S.HasMethod e j.toUInt16 := by
      rw [HasMethod, hidx, Nat.toUInt16_eq, UInt16.toNat_ofNat_of_lt' (show j < 65536 by omega)]
    exact ⟨hhas, rfl, Or.inl ⟨hS, Extends.refl S, hsettled hhas⟩⟩
  | none =>
    simp only [hidx, Except.ok.injEq, Prod.mk.injEq] at h
    obtain ⟨rfl, rfl⟩ := h
    have hb : S.bootstrap.length.toUInt16.toNat = S.bootstrap.length := by
      rw [Nat.toUInt16_eq, UInt16.toNat_ofNat_of_lt' (show S.bootstrap.length < 65536 by omega)]
    have hhas : HasMethod { S with bootstrap := S.bootstrap ++ [e] } e S.bootstrap.length.toUInt16 := by
      have hnot : e ∉ S.bootstrap := by simpa using hidx
      rw [HasMethod, hb, List.idxOf?_eq_some_iff]
      refine ⟨by simp, by simp, fun j hj hget => hnot ?_⟩
      rw [List.getElem_append_left hj] at hget
      exact hget ▸ List.getElem_mem hj
    refine ⟨hhas, rfl, Or.inr ⟨⟨⟨hS.pool, hS.next, fun x hx b' hb' => ?_, ?_⟩,
      ⟨List.prefix_refl _, List.prefix_append _ _⟩, hsettled hhas⟩, ?_⟩⟩
    · have := hS.bootstraps x hx b' hb'
      simp only [List.length_append, List.length_singleton]
      omega
    · simp only [List.length_append, List.length_singleton]
      omega
    · simp only [hb, List.length_append, List.length_singleton]

theorem bootstrapped_spec {e : BootstrapEntry} {name descriptor : String} {b nat i : UInt16}
    {f : UInt16 → UInt16 → PoolEntry} (hf : ∀ b nat, (f b nat).bootstrapIndex? = some b)
    {S₁ S₂ : PoolBuilder} (hS : S.Laid 0) (h₁ : bootstrapEntry e S = .ok (b, S₁))
    (h₂ : nameAndType name descriptor S₁ = .ok (nat, S₂)) (h₃ : entry (f b nat) S₂ = .ok (i, S')) :
    (∃ k, Spec k (bootstrapEntry e) S b S₁ ∧ Spec k (nameAndType name descriptor) S₁ nat S₂) ∧
      Spec 0 (entry (f b nat)) S₂ i S' ∧ S'.Has (f b nat) i ∧ S'.HasMethod e b ∧
      S'.Resolves (fun r => r.pool.nameAndType nat = .ok (name, descriptor)) := by
  obtain ⟨hhasm, -, hcases⟩ := bootstrapEntry_spec hS h₁
  -- the method was in the table already, or it is pending until the entry names it
  rcases hcases with hspec₁ | ⟨hspec₁, hlen⟩
  · obtain ⟨hspec₂, hnat, -, hboot₂⟩ := nameAndType_spec hspec₁.laid h₂
    have hb : b.toNat < S₂.bootstrap.length := by
      rw [hboot₂]
      exact (List.idxOf?_eq_some_iff.mp hhasm).1
    obtain ⟨hspec₃, hhas, -⟩ := entry_spec' hspec₂.laid (by simp [hf, hb]) h₃
    exact ⟨⟨0, hspec₁, hspec₂⟩, hspec₃, hhas, hhasm.mono (hspec₂.grows.trans hspec₃.grows),
      hnat.mono hspec₃.grows⟩
  · obtain ⟨hspec₂, hnat, -, hboot₂⟩ := nameAndType_spec hspec₁.laid h₂
    obtain ⟨hlaid₃, hgrows₃, hhas, -⟩ :=
      entry_closes hspec₂.laid (hf b nat) (by rw [hboot₂]; exact hlen) h₃
    exact ⟨⟨1, hspec₁, hspec₂⟩, ⟨hlaid₃, hgrows₃, fun T hT _ => entry_has (hhas.mono hT)⟩, hhas,
      hhasm.mono (hspec₂.grows.trans hgrows₃), hnat.mono hgrows₃⟩

end Build

namespace MethodHandle

/-- A handle as reading gives it: one to a field is never marked as an interface's. -/
def Readable (h : MethodHandle) : Prop := h.kind.isField = true → h.isInterface = false

end MethodHandle

namespace Constant

mutual

def Resolvable : Nat → Constant → Prop
  | _, .methodHandle h => h.Readable
  | budget, .dynamic _ _ h args =>
    match budget with
    | 0 => False
    | n + 1 => h.Readable ∧ ResolvableList n args
  | _, _ => True

def ResolvableList : Nat → List Constant → Prop
  | _, [] => True
  | budget, c :: cs => Resolvable budget c ∧ ResolvableList budget cs

end

end Constant

theorem Pool.className_eq_ok {p : Pool} {i : UInt16} {name : String} (h : p.className i = .ok name) :
    ∃ n, p.get? i = some (.classRef n) ∧ p.utf8 n = .ok name := by
  unfold Pool.className at h
  split at h
  · exact ⟨_, by assumption, h⟩
  · cases h

theorem Resolver.handle_eq_ok {r : Resolver} {i : UInt16} {h : MethodHandle}
    (hh : r.handle i = .ok h) : ∃ kind member, r.pool.get? i = some (.methodHandle kind member) := by
  unfold Resolver.handle Pool.entry at hh
  cases hget : r.pool.get? i with
  | none => simp [hget] at hh
  | some e =>
    cases e <;> simp [hget] at hh
    exact ⟨_, _, rfl⟩

namespace Build

open PoolBuilder

variable {S S' : PoolBuilder}

mutual

theorem constant_spec : ∀ (c : Constant) (budget : Nat) {S S' : PoolBuilder} {i : UInt16},
    c.Resolvable budget → S.Laid 0 → constant c S = .ok (i, S') →
    Spec 0 (constant c) S i S' ∧ S'.Resolves (fun r => r.loadableWithin budget i = .ok c)
  | .integer v, budget, S, S', i, _, hS, h => by
    rw [constant] at h ⊢
    obtain ⟨hspec, hhas, -⟩ := entry_spec' hS (by simp [PoolEntry.bootstrapIndex?]) h
    refine ⟨hspec, fun T hT hlaid => ?_⟩
    beta_reduce
    rw [Resolver.loadableWithin.eq_def]
    simp [Pool.entry, hlaid.get? (hhas.mono hT)]
  | .float bits, budget, S, S', i, _, hS, h => by
    rw [constant] at h ⊢
    obtain ⟨hspec, hhas, -⟩ := entry_spec' hS (by simp [PoolEntry.bootstrapIndex?]) h
    refine ⟨hspec, fun T hT hlaid => ?_⟩
    beta_reduce
    rw [Resolver.loadableWithin.eq_def]
    simp [Pool.entry, hlaid.get? (hhas.mono hT)]
  | .long v, budget, S, S', i, _, hS, h => by
    rw [constant] at h ⊢
    obtain ⟨hspec, hhas, -⟩ := entry_spec' hS (by simp [PoolEntry.bootstrapIndex?]) h
    refine ⟨hspec, fun T hT hlaid => ?_⟩
    beta_reduce
    rw [Resolver.loadableWithin.eq_def]
    simp [Pool.entry, hlaid.get? (hhas.mono hT)]
  | .double bits, budget, S, S', i, _, hS, h => by
    rw [constant] at h ⊢
    obtain ⟨hspec, hhas, -⟩ := entry_spec' hS (by simp [PoolEntry.bootstrapIndex?]) h
    refine ⟨hspec, fun T hT hlaid => ?_⟩
    beta_reduce
    rw [Resolver.loadableWithin.eq_def]
    simp [Pool.entry, hlaid.get? (hhas.mono hT)]
  | .string s, budget, S, S', i, _, hS, h => by
    rw [constant] at h ⊢
    obtain ⟨hspec, hres, -⟩ := string_spec hS h
    exact ⟨hspec, fun T hT hlaid => hres T hT hlaid budget⟩
  | .classRef name, budget, S, S', i, _, hS, h => by
    rw [constant] at h ⊢
    obtain ⟨hspec, hres, -, -⟩ := classRef_spec hS h
    refine ⟨hspec, fun T hT hlaid => ?_⟩
    obtain ⟨n, hget, hname⟩ := Pool.className_eq_ok (hres T hT hlaid)
    rw [Resolver.loadableWithin.eq_def]
    simp [Pool.entry, hget, hname]
  | .methodType descriptor, budget, S, S', i, _, hS, h => by
    rw [constant] at h ⊢
    obtain ⟨d, S₁, h₁, h₂⟩ := bind_eq_ok h
    obtain ⟨hspec₁, hdesc, -, -⟩ := utf8_spec hS h₁
    obtain ⟨hspec₂, hhas, -⟩ := entry_spec' hspec₁.laid (by simp [PoolEntry.bootstrapIndex?]) h₂
    refine ⟨hspec₁.bind hspec₂, fun T hT hlaid => ?_⟩
    have hd := hdesc T (hspec₂.grows.trans hT) hlaid
    simp only at hd
    beta_reduce
    rw [Resolver.loadableWithin.eq_def]
    simp [Pool.entry, hlaid.get? (hhas.mono hT), hd]
  | .methodHandle handle, budget, S, S', i, hc, hS, h => by
    rw [constant] at h ⊢
    obtain ⟨hspec, hres, -⟩ := handle_spec hc hS h
    refine ⟨hspec, fun T hT hlaid => ?_⟩
    have hh := hres T hT hlaid
    obtain ⟨kind, member, hget⟩ := Resolver.handle_eq_ok hh
    simp only at hget hh
    beta_reduce
    rw [Resolver.loadableWithin.eq_def]
    simp [Pool.entry, hget, hh]
  | .dynamic name descriptor bootstrap arguments, budget, S, S', i, hc, hS, h => by
    cases budget with
    | zero => exact absurd hc id
    | succ n =>
    obtain ⟨hboot, hargs⟩ := hc
    rw [constant] at h ⊢
    obtain ⟨hi, S₁, h₁, h'⟩ := bind_eq_ok h
    obtain ⟨is, S₂, h₂, hr₂⟩ := bind_eq_ok h'
    obtain ⟨b, S₃, h₃, hr₃⟩ := bind_eq_ok hr₂
    obtain ⟨nat, S₄, h₄, h₅⟩ := bind_eq_ok hr₃
    obtain ⟨hspec₁, hhandle, -⟩ := handle_spec hboot hS h₁
    obtain ⟨hspec₂, hres₂⟩ := constants_spec arguments n hargs hspec₁.laid h₂
    obtain ⟨⟨k, hspec₃, hspec₄⟩, hspec₅, hhas, hhasm, hnat⟩ :=
      bootstrapped_spec (f := PoolEntry.dynamic) (fun _ _ => rfl) hspec₂.laid h₃ h₄ h₅
    have hgrows : S₂.Extends S' := hspec₃.grows.trans (hspec₄.grows.trans hspec₅.grows)
    refine ⟨hspec₁.bind (hspec₂.bind (hspec₃.bind (hspec₄.bind hspec₅))), fun T hT hlaid => ?_⟩
    have hh := hhandle T ((hspec₂.grows.trans hgrows).trans hT) hlaid
    have hr := hres₂ T (hgrows.trans hT) hlaid
    have he := hhasm.resolves T hT hlaid
    have hn := hnat T hT hlaid
    simp only at hh hr he hn
    beta_reduce
    rw [Resolver.loadableWithin.eq_def]
    simp [Pool.entry, hlaid.get? (hhas.mono hT), hn, he, hh, hr]

theorem constants_spec : ∀ (cs : List Constant) (budget : Nat) {S S' : PoolBuilder}
    {is : List UInt16}, Constant.ResolvableList budget cs → S.Laid 0 → constants cs S = .ok (is, S') →
    Spec 0 (constants cs) S is S' ∧ S'.Resolves (fun r => is.mapM (r.loadableWithin budget) = .ok cs)
  | [], budget, S, S', is, _, hS, h => by
    rw [constants] at h ⊢
    obtain ⟨rfl, rfl⟩ := Prod.mk.inj (Except.ok.inj h)
    exact ⟨Spec.pure hS [], fun _ _ _ => rfl⟩
  | c :: cs, budget, S, S', is, ⟨hc, hcs⟩, hS, h => by
    rw [constants] at h ⊢
    obtain ⟨i, S₁, h₁, h'⟩ := bind_eq_ok h
    obtain ⟨is', S₂, h₂, h₃⟩ := bind_eq_ok h'
    obtain ⟨rfl, rfl⟩ := Prod.mk.inj (Except.ok.inj h₃)
    obtain ⟨hspec₁, hres₁⟩ := constant_spec c budget hc hS h₁
    obtain ⟨hspec₂, hres₂⟩ := constants_spec cs budget hcs hspec₁.laid h₂
    refine ⟨hspec₁.bind (hspec₂.bind (Spec.pure hspec₂.laid _)), fun T hT hlaid => ?_⟩
    have h₁' := hres₁ T (hspec₂.grows.trans hT) hlaid
    have h₂' := hres₂ T hT hlaid
    simp only at h₁' h₂'
    simp [List.mapM_cons, h₁', h₂']

end

end Build

end ClassPatch
