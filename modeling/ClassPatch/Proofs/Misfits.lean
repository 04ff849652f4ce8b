import ClassPatch.Proofs.Reconstruction
import ClassPatch.Patch.Basic

/-!
Where applying differences fails. A difference other than an added class needs the class it
names, and one that removes or changes a member needs that member too. Both are looked up before
anything is changed, so a difference that does not fit fails with what is missing and hands back
no classes: the classes stay as they were. A patch applies its differences in order and fails
with the error of the first that does not fit the classes the differences before it left.
-/

namespace ClassPatch

theorem Except.bind_eq_error_iff {ε α β : Type} {x : Except ε α} {f : α → Except ε β} {e : ε} :
    (x >>= f) = .error e ↔ x = .error e ∨ ∃ a, x = .ok a ∧ f a = .error e := by
  cases x <;> simp

/-- A member of a class as a difference names it: a field by its name, a method by its name and
descriptor. -/
inductive MemberKey where
  | field (name : String)
  | method (name descriptor : String)

namespace MemberKey

def isIn : MemberKey → ClassModel → Bool
  | .field n, c => c.fields.any (·.name == n)
  | .method n d, c => c.methods.any fun x => x.name == n && x.descriptor == d

def missing (cls : String) : MemberKey → PatchError
  | .field n => missingField cls n
  | .method n d => missingMethod cls n d

end MemberKey

def Difference.changedMember? : Difference → Option MemberKey
  | .fieldRemoved _ n | .fieldAccessChanged _ n .. | .fieldDescriptorChanged _ n _
  | .fieldSignatureChanged _ n _ | .fieldValueChanged _ n _ => some (.field n)
  | .methodRemoved _ n d | .methodAccessChanged _ n d .. | .methodSignatureChanged _ n d _
  | .methodExceptionsChanged _ n d _ | .methodAnnotationDefaultChanged _ n d _
  | .methodMaxsChanged _ n d .. => some (.method n d)
  | .methodInstructionsChanged _ m => some (.method m.name m.descriptor)
  | _ => none

/-- Why a difference does not fit a set of classes: the class it names is missing, which an
added class does not need, or that class lacks the member the difference removes or changes. -/
inductive Difference.Misfit (d : Difference) (m : ClassMap) : PatchError → Prop
  | missingClass : d.requiresSideChannel = false → m.get? d.className = none →
      Misfit d m (.missingClass d.className)
  | missingMember {c : ClassModel} {k : MemberKey} : m.get? d.className = some c →
      d.changedMember? = some k → k.isIn c = false → Misfit d m (k.missing d.className)

section Lookups

variable {α : Type} {p : α → Bool} {l : List α}

theorem eraseFirst_eq_none_iff : eraseFirst p l = none ↔ l.any p = false := by
  induction l with
  | nil => simp [eraseFirst]
  | cons a l ih => cases hp : p a <;> simp [eraseFirst, hp, ih]

theorem replaceFirst_eq_none_iff {f : α → α} : replaceFirst p f l = none ↔ l.any p = false := by
  induction l with
  | nil => simp [replaceFirst]
  | cons a l ih => cases hp : p a <;> simp [replaceFirst, hp, ih]

end Lookups

namespace ClassModel

variable {x : ClassModel} {cls n d : String} {e : PatchError}

-- Removing or changing a member fails exactly when the class lacks it.
theorem removeField_eq_error_iff :
    x.removeField cls n = .error e ↔ (MemberKey.field n).isIn x = false ∧
      e = (MemberKey.field n).missing cls := by
  rw [removeField, MemberKey.isIn, ← eraseFirst_eq_none_iff]
  cases eraseFirst (·.name == n) x.fields <;> simp [MemberKey.missing, eq_comm]

theorem changeField_eq_error_iff {f : FieldModel → FieldModel} :
    x.changeField cls n f = .error e ↔ (MemberKey.field n).isIn x = false ∧
      e = (MemberKey.field n).missing cls := by
  rw [changeField, MemberKey.isIn, ← replaceFirst_eq_none_iff (f := f)]
  cases replaceFirst (·.name == n) f x.fields <;> simp [MemberKey.missing, eq_comm]

theorem removeMethod_eq_error_iff :
    x.removeMethod cls n d = .error e ↔ (MemberKey.method n d).isIn x = false ∧
      e = (MemberKey.method n d).missing cls := by
  rw [removeMethod, MemberKey.isIn, ← eraseFirst_eq_none_iff]
  cases eraseFirst (fun y => y.name == n && y.descriptor == d) x.methods <;>
    simp [MemberKey.missing, eq_comm]

theorem changeMethod_eq_error_iff {f : MethodModel → MethodModel} :
    x.changeMethod cls n d f = .error e ↔ (MemberKey.method n d).isIn x = false ∧
      e = (MemberKey.method n d).missing cls := by
  rw [changeMethod, MemberKey.isIn, ← replaceFirst_eq_none_iff (f := f)]
  cases replaceFirst (fun y => y.name == n && y.descriptor == d) f x.methods <;>
    simp [MemberKey.missing, eq_comm]

end ClassModel

variable {m : ClassMap} {n : String} {e : PatchError}

theorem ClassMap.update_eq_error_iff {f : ClassModel → Except PatchError ClassModel} :
    m.update n f = .error e ↔
      (m.get? n = none ∧ e = .missingClass n) ∨ ∃ c, m.get? n = some c ∧ f c = .error e := by
  unfold ClassMap.update
  cases h : m.get? n with
  | none => simp [eq_comm]
  | some c => cases hf : f c <;> simp [hf, bind, Except.bind, pure, Except.pure]

namespace Difference

variable {d : Difference}

theorem applyToClass_eq_error_iff {x : ClassModel} :
    d.applyToClass x = .error e ↔
      ∃ k, d.changedMember? = some k ∧ k.isIn x = false ∧ e = k.missing d.className := by
  cases d <;> simp [applyToClass, changedMember?, className, ClassModel.removeField_eq_error_iff,
    ClassModel.changeField_eq_error_iff, ClassModel.removeMethod_eq_error_iff,
    ClassModel.changeMethod_eq_error_iff]

theorem misfit_iff : d.Misfit m e ↔
    (d.requiresSideChannel = false ∧ m.get? d.className = none ∧ e = .missingClass d.className) ∨
      ∃ c k, m.get? d.className = some c ∧ d.changedMember? = some k ∧ k.isIn c = false ∧
        e = k.missing d.className := by
  constructor
  · rintro (⟨hadd, hget⟩ | ⟨hget, hk, hin⟩)
    · exact .inl ⟨hadd, hget, rfl⟩
    · exact .inr ⟨_, _, hget, hk, hin, rfl⟩
  · rintro (⟨hadd, hget, rfl⟩ | ⟨c, k, hget, hk, hin, rfl⟩)
    · exact .missingClass hadd hget
    · exact .missingMember hget hk hin

theorem apply_eq_error_iff : d.apply m = .error e ↔ d.Misfit m e := by
  rw [misfit_iff]
  cases d
  case classAdded added => simp [apply, requiresSideChannel, changedMember?]
  case classRemoved cls =>
    -- a removal looks the class up, and needs no member
    cases h : m.get? cls with
    | none =>
      have hc : m.contains cls = false := by simp [ClassMap.contains, h]
      simp only [apply, className, hc, requiresSideChannel, changedMember?, h]
      simpa using eq_comm
    | some c =>
      have hc : m.contains cls = true := by simp [ClassMap.contains, h]
      simp [apply, className, hc, changedMember?, h]
  -- every other difference changes the class it names, in place
  all_goals
    simp only [apply, ClassMap.update_eq_error_iff, applyToClass_eq_error_iff]
    simp [requiresSideChannel]

end Difference

theorem applyAll_eq_error_iff {ds : List Difference} :
    applyAll ds m = .error e ↔ ∃ pre d post m₀, ds = pre ++ d :: post ∧
      applyAll pre m = .ok m₀ ∧ d.apply m₀ = .error e := by
  induction ds generalizing m with
  | nil => simp
  | cons d ds ih =>
    rw [applyAll_cons, Except.bind_eq_error_iff]
    constructor
    · rintro (hd | ⟨m₁, hd, hrest⟩)
      · exact ⟨[], d, ds, m, rfl, rfl, hd⟩
      · obtain ⟨pre, d', post, m₀, rfl, hpre, hd'⟩ := ih.mp hrest
        exact ⟨d :: pre, d', post, m₀, rfl, by rw [applyAll_cons, hd]; exact hpre, hd'⟩
    · rintro ⟨pre, d', post, m₀, hds, hpre, hd'⟩
      cases pre with
      | nil =>
        -- the first difference is the one that fails
        obtain ⟨rfl, rfl⟩ := List.cons.inj hds
        cases hpre
        exact .inl hd'
      | cons x pre =>
        -- the first difference fits, and the rest fail from the classes it leaves
        obtain ⟨rfl, rfl⟩ := List.cons.inj hds
        rw [applyAll_cons] at hpre
        cases hd : d.apply m with
        | error e' => simp [hd] at hpre
        | ok m₁ =>
          rw [hd] at hpre
          exact .inr ⟨m₁, rfl, ih.mpr ⟨pre, d', post, m₀, rfl, hpre, hd'⟩⟩

/-- Applying a difference fails exactly when it does not fit, with the error that says why, so an
added class always applies; a failure hands back no classes, which stay as they were. A patch
fails exactly when one of its differences does not fit the classes that the differences before
it left, and then with the error of that difference. -/
theorem Patch.apply_fails_at_first_misfit :
    (∀ (d : Difference) (m : ClassMap) (e : PatchError), d.apply m = .error e ↔ d.Misfit m e) ∧
    ∀ (p : Patch) (m : ClassMap) (e : PatchError), p.apply m = .error e ↔
      ∃ pre d post m₀, p.differences = pre ++ d :: post ∧ applyAll pre m = .ok m₀ ∧
        d.Misfit m₀ e := by
  refine ⟨fun _ _ _ => Difference.apply_eq_error_iff, fun p m e => ?_⟩
  rw [Patch.apply, applyAll_eq_error_iff]
  simp only [Difference.apply_eq_error_iff]

end ClassPatch
