import ClassPatch.Proofs.Interning

/-!
Values interned one after another into a fresh pool read back from the finished pool and its
bootstrap table, each by the reader of its kind: a loadable constant, a field, a method, or an
`invokedynamic` call site. A value interned again is found at its first index, and an index reads
back as one value only, so equal values share an index and distinct values never do.
-/

namespace ClassPatch

/-- A value that a class keeps in its pool. -/
inductive PoolValue where
  | loadable (c : Constant)
  | field (f : FieldRef)
  | method (m : MethodRef)
  /-- An `invokedynamic` call site: its name and descriptor, and its bootstrap method with the
  method's arguments. -/
  | callSite (name descriptor : String) (bootstrap : MethodHandle) (arguments : List Constant)

namespace PoolValue

/-- The kinds of value, by which an index into the pool is read. -/
inductive Kind where
  | loadable
  | field
  | method
  | callSite
  deriving DecidableEq

def kind : PoolValue → Kind
  | .loadable _ => .loadable
  | .field _ => .field
  | .method _ => .method
  | .callSite .. => .callSite

/-- A value as reading can give it back: no handle to a field is marked as an interface's, and
dynamic constants nest no deeper than the reader follows them. -/
def Writable : PoolValue → Prop
  | .loadable c => c.Resolvable Resolver.maxDynamicDepth
  | .field _ | .method _ => True
  | .callSite _ _ h arguments =>
    h.Readable ∧ Constant.ResolvableList Resolver.maxDynamicDepth arguments

end PoolValue

namespace PoolEntry

def valueKind? : PoolEntry → Option PoolValue.Kind
  | .integer _ | .float _ | .long _ | .double _ | .string _ | .classRef _ | .methodType _
  | .methodHandle .. | .dynamic .. => some .loadable
  | .fieldref .. => some .field
  | .methodref .. => some .method
  | .invokeDynamic .. => some .callSite
  | .utf8 _ | .nameAndType .. | .module _ | .package _ => none

end PoolEntry

namespace Build

def callSite (name descriptor : String) (bootstrap : MethodHandle) (arguments : List Constant) :
    Build UInt16 := do
  let b ← bootstrapMethod bootstrap arguments
  let nat ← nameAndType name descriptor
  entry (.invokeDynamic b nat)

/-- Interns a value. -/
def value : PoolValue → Build UInt16
  | .loadable c => constant c
  | .field f => fieldRef f
  | .method m => methodRef m
  | .callSite name descriptor bootstrap arguments => callSite name descriptor bootstrap arguments

end Build

namespace Resolver

/-- Reads the value of a kind at an index. -/
def value (r : Resolver) : PoolValue.Kind → UInt16 → Except FormatError PoolValue
  | .loadable, i => .loadable <$> r.loadable i
  | .field, i => .field <$> r.fieldRef i
  | .method, i => .method <$> r.methodRef i
  | .callSite, i => (fun (n, d, h, arguments) => .callSite n d h arguments) <$> r.invokeDynamic i

variable {r : Resolver} {k k' : PoolValue.Kind} {i : UInt16} {v v' : PoolValue}

theorem value_entry (h : r.value k i = .ok v) : ∃ e, r.pool.get? i = some e ∧ e.valueKind? = some k := by
  cases hget : r.pool.get? i with
  | none =>
    cases k <;>
      simp [value, loadable, loadableWithin, fieldRef, methodRef, invokeDynamic, Pool.entry, hget] at h
  | some e =>
    refine ⟨e, rfl, ?_⟩
    cases k <;> cases e <;>
      simp [value, loadable, loadableWithin, fieldRef, methodRef, invokeDynamic, Pool.entry, hget,
        PoolEntry.valueKind?, throw, throwThe, MonadExceptOf.throw] at h ⊢

theorem value_functional (h : r.value k i = .ok v) (h' : r.value k' i = .ok v') : v = v' := by
  obtain ⟨e, he, hk⟩ := value_entry h
  obtain ⟨e', he', hk'⟩ := value_entry h'
  obtain rfl : e = e' := Option.some.inj (he.symm.trans he')
  obtain rfl : k = k' := Option.some.inj (hk.symm.trans hk')
  exact Except.ok.inj (h.symm.trans h')

end Resolver

namespace Build

open PoolBuilder

variable {S S' : PoolBuilder}

theorem callSite_spec {name descriptor : String} {bootstrap : MethodHandle}
    {arguments : List Constant} {i : UInt16} (hboot : bootstrap.Readable)
    (hargs : Constant.ResolvableList Resolver.maxDynamicDepth arguments) (hS : S.Laid 0)
    (h : callSite name descriptor bootstrap arguments S = .ok (i, S')) :
    Spec 0 (callSite name descriptor bootstrap arguments) S i S' ∧
      S'.Resolves (fun r => r.invokeDynamic i = .ok (name, descriptor, bootstrap, arguments)) := by
  unfold callSite bootstrapMethod at h ⊢
  obtain ⟨b, S₁, h₁, h'⟩ := bind_eq_ok h
  obtain ⟨nat, S₂, h₂, h₃⟩ := bind_eq_ok h'
  obtain ⟨hh, T₁, g₁, g'⟩ := bind_eq_ok h₁
  obtain ⟨is, T₂, g₂, g₃⟩ := bind_eq_ok g'
  -- the handle and the arguments, then the method of the table, named by the call site last
  obtain ⟨hspec₁, hhandle, -⟩ := handle_spec hboot hS g₁
  obtain ⟨hspec₂, hres₂⟩ := constants_spec arguments _ hargs hspec₁.laid g₂
  obtain ⟨⟨k, hspec₃, hspec₄⟩, hspec₅, hhas, hhasm, hnat⟩ :=
    bootstrapped_spec (f := PoolEntry.invokeDynamic) (fun _ _ => rfl) hspec₂.laid g₃ h₂ h₃
  have hgrows : T₂.Extends S' := hspec₃.grows.trans (hspec₄.grows.trans hspec₅.grows)
  refine ⟨(hspec₁.bind (hspec₂.bind hspec₃)).bind (hspec₄.bind hspec₅), fun T hT hlaid => ?_⟩
  have hh := hhandle T ((hspec₂.grows.trans hgrows).trans hT) hlaid
  have hr := hres₂ T (hgrows.trans hT) hlaid
  have he := hhasm.resolves T hT hlaid
  have hn := hnat T hT hlaid
  simp only at hh hr he hn
  simp [Resolver.invokeDynamic, Pool.entry, hlaid.get? (hhas.mono hT), hn, he, hh, hr]

theorem value_spec {v : PoolValue} {i : UInt16} (hv : v.Writable) (hS : S.Laid 0)
    (h : value v S = .ok (i, S')) :
    Spec 0 (value v) S i S' ∧ S'.Resolves (fun r => r.value v.kind i = .ok v) := by
  cases v with
  | loadable c =>
    obtain ⟨hspec, hres⟩ := constant_spec c _ hv hS h
    exact ⟨hspec, fun T hT hlaid => by simp [Resolver.value, PoolValue.kind, Resolver.loadable, hres T hT hlaid]⟩
  | field f =>
    obtain ⟨hspec, hres, -⟩ := fieldRef_spec hS h
    exact ⟨hspec, fun T hT hlaid => by simp [Resolver.value, PoolValue.kind, hres T hT hlaid]⟩
  | method m =>
    obtain ⟨hspec, hres, -⟩ := methodRef_spec hS h
    exact ⟨hspec, fun T hT hlaid => by simp [Resolver.value, PoolValue.kind, hres T hT hlaid]⟩
  | callSite name descriptor bootstrap arguments =>
    obtain ⟨hspec, hres⟩ := callSite_spec hv.1 hv.2 hS h
    exact ⟨hspec, fun T hT hlaid => by simp [Resolver.value, PoolValue.kind, hres T hT hlaid]⟩

def Settled (S : PoolBuilder) (v : PoolValue) (i : UInt16) : Prop :=
  S.Resolves (fun r => r.value v.kind i = .ok v) ∧
    ∀ T, S.Extends T → T.Laid 0 → value v T = .ok (i, T)

theorem Settled.mono {v : PoolValue} {i : UInt16} (h : Settled S v i) (hS : S.Extends S') :
    Settled S' v i :=
  ⟨h.1.mono hS, fun T hT hlaid => h.2 T (hS.trans hT) hlaid⟩

theorem values_spec : ∀ {vs : List PoolValue} {is : List UInt16} {S S' : PoolBuilder},
    (∀ v ∈ vs, v.Writable) → S.Laid 0 → vs.mapM value S = .ok (is, S') →
    Spec 0 (vs.mapM value) S is S' ∧ List.Forall₂ (Settled S') vs is
  | [], is, S, S', _, hS, h => by
    obtain ⟨rfl, rfl⟩ := Prod.mk.inj (Except.ok.inj h)
    exact ⟨Spec.pure hS [], .nil⟩
  | v :: vs, is, S, S', hv, hS, h => by
    rw [List.mapM_cons] at h ⊢
    obtain ⟨i, S₁, h₁, h'⟩ := bind_eq_ok h
    obtain ⟨is', S₂, h₂, h₃⟩ := bind_eq_ok h'
    obtain ⟨rfl, rfl⟩ := Prod.mk.inj (Except.ok.inj h₃)
    obtain ⟨hspec₁, hres₁⟩ := value_spec (hv v List.mem_cons_self) hS h₁
    obtain ⟨hspec₂, hrest⟩ := values_spec (fun w hw => hv w (List.mem_cons_of_mem v hw)) hspec₁.laid h₂
    refine ⟨hspec₁.bind (hspec₂.bind (Spec.pure hspec₂.laid _)), .cons ?_ hrest⟩
    exact Settled.mono ⟨hres₁, hspec₁.settled⟩ hspec₂.grows

end Build

theorem PoolBuilder.laid_empty : PoolBuilder.Laid {} 0 :=
  ⟨⟨[], rfl⟩, by decide, by simp, by simp⟩

/-- Values interned one after another into a fresh pool each read back, from the finished pool
and bootstrap table, as the value interned; equal values get one index and distinct values
distinct indices. -/
theorem values_readBack {vs : List PoolValue} {is : List UInt16} {S : PoolBuilder}
    (hv : ∀ v ∈ vs, v.Writable) (h : vs.mapM Build.value {} = .ok (is, S)) :
    List.Forall₂ (fun v i => Resolver.value ⟨S.pool, S.bootstrap⟩ v.kind i = .ok v) vs is ∧
      ∀ p ∈ vs.zip is, ∀ q ∈ vs.zip is, p.2 = q.2 ↔ p.1 = q.1 := by
  obtain ⟨hspec, hsettled⟩ := Build.values_spec hv PoolBuilder.laid_empty h
  have hread := hsettled.imp fun v i hvi => hvi.1 S (PoolBuilder.Extends.refl S) hspec.laid
  refine ⟨hread, fun p hp q hq => ⟨fun hi => ?_, fun hv => ?_⟩⟩
  · -- one index reads back as one value
    have hpr := List.forall₂_zip hread hp
    have hqr := List.forall₂_zip hread hq
    rw [hi] at hpr
    exact Resolver.value_functional hpr hqr
  · -- interning the value again in the finished pool gives both indices
    have hps := (List.forall₂_zip hsettled hp).2 S (PoolBuilder.Extends.refl S) hspec.laid
    have hqs := (List.forall₂_zip hsettled hq).2 S (PoolBuilder.Extends.refl S) hspec.laid
    rw [hv] at hps
    exact (Prod.mk.inj (Except.ok.inj (hps.symm.trans hqs))).1

theorem values_readBack_integerTwice : ∃ is S,
    (∀ v ∈ [PoolValue.loadable (.integer 7), .loadable (.long 7), .loadable (.integer 7)],
      v.Writable) ∧
    [PoolValue.loadable (.integer 7), .loadable (.long 7), .loadable (.integer 7)].mapM
      Build.value {} = .ok (is, S) ∧
    List.Forall₂ (fun v i => Resolver.value ⟨S.pool, S.bootstrap⟩ v.kind i = .ok v)
      [PoolValue.loadable (.integer 7), .loadable (.long 7), .loadable (.integer 7)] is ∧
    ∀ p ∈ [PoolValue.loadable (.integer 7), .loadable (.long 7), .loadable (.integer 7)].zip is,
      ∀ q ∈ [PoolValue.loadable (.integer 7), .loadable (.long 7), .loadable (.integer 7)].zip is,
        p.2 = q.2 ↔ p.1 = q.1 := by
  have hv : ∀ v ∈ [PoolValue.loadable (.integer 7), .loadable (.long 7),
      .loadable (.integer 7)], v.Writable := by
    simp [PoolValue.Writable, Constant.Resolvable]
  exact ⟨_, _, hv, rfl, values_readBack hv rfl⟩

end ClassPatch
