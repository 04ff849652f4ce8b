import ClassPatch.Proofs.MemberRoundTrip

namespace ClassPatch

namespace Instruction

def Interns {L : Type} : Instruction L → Prop
  | .ldc c => c.Resolvable Resolver.maxDynamicDepth
  | .invokeDynamic _ _ bootstrap arguments =>
    bootstrap.Readable ∧ Constant.ResolvableList Resolver.maxDynamicDepth arguments
  | _ => True

theorem Decodable.interns {L : Type} {i : Instruction L} (h : i.Decodable) : i.Interns := by
  cases i with
  | ldc c => exact h
  | invokeDynamic => exact h
  | _ => trivial

end Instruction

namespace Build

open PoolBuilder

variable {α β : Type}

def Specified (x : Build α) : Prop :=
  ∀ S a S', S.Laid 0 → x S = .ok (a, S') → Spec 0 x S a S'

namespace Specified

variable {x y : Build α} {f : α → Build β}

theorem pure (a : α) : Specified (Pure.pure a : Build α) := fun _ _ _ hS h => by
  obtain ⟨rfl, rfl⟩ := pure_eq_ok h
  exact Spec.pure hS _

theorem fail (e : FormatError) : Specified (Build.fail e : Build α) :=
  fun _ _ _ _ h => absurd h fail_ne_ok

theorem lift (r : Except FormatError α) : Specified (Build.lift r) := fun _ _ _ hS h => by
  obtain ⟨hr, rfl⟩ := lift_eq_ok h
  exact Spec.lift hS hr

theorem bind (hx : Specified x) (hf : ∀ a, Specified (f a)) : Specified (x >>= f) :=
  fun _ _ _ hS h => by
    obtain ⟨a, S₁, h₁, h₂⟩ := bind_eq_ok h
    have hspec := hx _ _ _ hS h₁
    exact hspec.bind (hf a _ _ _ hspec.laid h₂)

theorem mapM {γ : Type} {l : List γ} {g : γ → Build β} (h : ∀ c ∈ l, Specified (g c)) :
    Specified (l.mapM g) := by
  induction l with
  | nil => exact pure _
  | cons c l ih =>
    rw [List.mapM_cons]
    exact (h c List.mem_cons_self).bind fun _ =>
      (ih fun c' hc' => h c' (List.mem_cons_of_mem c hc')).bind fun _ => pure _

theorem ite {c : Prop} [Decidable c] (hx : c → Specified x) (hy : ¬c → Specified y) :
    Specified (if c then x else y) := by
  split
  · exact hx ‹_›
  · exact hy ‹_›

end Specified

theorem specified_classRef (name : String) : Specified (classRef name) :=
  fun _ _ _ hS h => (classRef_spec hS h).1

theorem specified_fieldRef (f : FieldRef) : Specified (fieldRef f) :=
  fun _ _ _ hS h => (fieldRef_spec hS h).1

theorem specified_methodRef (m : MethodRef) : Specified (methodRef m) :=
  fun _ _ _ hS h => (methodRef_spec hS h).1

theorem specified_constant {c : Constant} (hc : c.Resolvable Resolver.maxDynamicDepth) :
    Specified (constant c) :=
  fun _ _ _ hS h => (constant_spec c _ hc hS h).1

theorem specified_attributeNamed (name : String) (info : List UInt8) :
    Specified (attributeNamed name info) :=
  fun _ _ _ hS h => (attributeNamed_spec hS h).1

theorem specified_dynamicCall {name descriptor : String} {bootstrap : MethodHandle}
    {arguments : List Constant} (hboot : bootstrap.Readable)
    (hargs : Constant.ResolvableList Resolver.maxDynamicDepth arguments) (k : UInt16 → Build β)
    (hk : ∀ i, Specified (k i)) :
    Specified (do
      let b ← bootstrapMethod bootstrap arguments
      let nat ← nameAndType name descriptor
      let index ← entry (.invokeDynamic b nat)
      k index) := by
  intro S a S' hS h
  obtain ⟨b, S₁, h₁, h'⟩ := bind_eq_ok h
  obtain ⟨nat, S₂, h₂, h''⟩ := bind_eq_ok h'
  obtain ⟨index, S₃, h₃, h₄⟩ := bind_eq_ok h''
  obtain ⟨hh, T₁, g₁, g'⟩ := bind_eq_ok h₁
  obtain ⟨is, T₂, g₂, g₃⟩ := bind_eq_ok g'
  obtain ⟨hspec₁, -, -⟩ := handle_spec hboot hS g₁
  obtain ⟨hspec₂, -⟩ := constants_spec arguments _ hargs hspec₁.laid g₂
  obtain ⟨⟨_, hspec₃, hspec₄⟩, hspec₅, -⟩ :=
    bootstrapped_spec (f := PoolEntry.invokeDynamic) (fun _ _ => rfl) hspec₂.laid g₃ h₂ h₃
  exact (hspec₁.bind (hspec₂.bind hspec₃)).bind
    (hspec₄.bind (hspec₅.bind (hk index _ _ _ hspec₅.laid h₄)))

theorem specified_instruction {i : Instruction Label} (hi : i.Interns) (offset : Nat) (wide : Bool)
    (lo : Label → Except FormatError Nat) : Specified (instruction i offset wide lo) := by
  cases i
  all_goals simp only [Build.instruction]
  case int | var | iinc =>
    repeat' split
    all_goals first | exact .pure _ | exact .fail _
  case simple | label | lineNumber | frame => exact .pure _
  case type name | multiANewArray name _ => exact (specified_classRef name).bind fun _ => .pure _
  case field ref => exact (specified_fieldRef ref).bind fun _ => .pure _
  case method op ref =>
    refine (specified_methodRef ref).bind fun _ => ?_
    split
    · exact (Specified.lift _).bind fun _ => .pure _
    · exact .pure _
  case invokeDynamic => exact specified_dynamicCall hi.1 hi.2 _ fun _ => .pure _
  case jump =>
    refine (Specified.lift _).bind fun _ => ?_
    repeat' split
    all_goals first | exact .pure _ | exact .fail _
  case tableSwitch | lookupSwitch =>
    split
    · exact .fail _
    · exact ((Specified.lift _).bind fun _ => .pure _).bind fun _ =>
        (Specified.mapM fun _ _ => (Specified.lift _).bind fun _ => .pure _).bind fun _ => .pure _
  case ldc c =>
    refine (specified_constant hi).bind fun _ => ?_
    repeat' split
    all_goals exact .pure _

section Frames

variable {C U C' U' : Type} {f : C → Build C'} {g : U → Build U'}

theorem specified_typeMapM (hf : ∀ c, Specified (f c)) (hg : ∀ u, Specified (g u))
    (t : VerificationType C U) : Specified (t.mapM f g) := by
  cases t
  all_goals simp only [VerificationType.mapM]
  case object c => exact (hf c).bind fun _ => .pure _
  case uninitialized u => exact (hg u).bind fun _ => .pure _
  all_goals exact .pure _

theorem specified_frameMapM (hf : ∀ c, Specified (f c)) (hg : ∀ u, Specified (g u))
    (fr : Frame C U) : Specified (fr.mapM f g) := by
  cases fr
  all_goals simp only [Frame.mapM]
  case sameLocalsOneStack t => exact (specified_typeMapM hf hg t).bind fun _ => .pure _
  case append locals =>
    exact (Specified.mapM fun t _ => specified_typeMapM hf hg t).bind fun _ => .pure _
  case full locals stack =>
    exact (Specified.mapM fun t _ => specified_typeMapM hf hg t).bind fun _ =>
      (Specified.mapM fun t _ => specified_typeMapM hf hg t).bind fun _ => .pure _
  all_goals exact .pure _

end Frames

section Body

variable {insns : List (Instruction Label)} (hinterns : ∀ i ∈ insns, i.Interns)
include hinterns

-- every round of the layout interns what the instructions intern, whatever their offsets

theorem specified_offsetsFrom (wide : List Nat) :
    ∀ (L : List (Instruction Label × Nat)) (offset : Nat), (∀ q ∈ L, q.1 ∈ insns) →
      Specified (Layout.offsetsFrom wide offset L)
  | [], _, _ => .pure _
  | (i, p) :: rest, offset, hL => by
    rw [Layout.offsetsFrom]
    exact (specified_instruction (hinterns i (hL _ List.mem_cons_self)) _ _ _).bind fun _ =>
      (specified_offsetsFrom wide rest _ fun q hq => hL q (List.mem_cons_of_mem _ hq)).bind
        fun _ => .pure _

theorem specified_measure (wide : List Nat) : Specified (Layout.measure insns wide) := by
  unfold Layout.measure
  refine (specified_offsetsFrom hinterns wide _ 0 fun q hq => ?_).bind fun _ => ?_
  · exact List.fst_mem_of_mem_zipIdx hq
  · exact Specified.ite (fun _ => .fail _) fun _ => .pure _

theorem specified_settle (positions : List (Label × Nat)) (hasFrames : Bool) :
    ∀ fuel wide, Specified (settle insns positions hasFrames fuel wide)
  | 0, wide => by
    rw [settle]
    exact (specified_measure hinterns wide).bind fun _ => .pure _
  | fuel + 1, wide => by
    rw [settle]
    exact (specified_measure hinterns wide).bind fun _ => (Specified.lift _).bind fun _ =>
      Specified.ite (fun _ => .pure _) fun _ => specified_settle positions hasFrames fuel _

end Body

theorem specified_markerTables (lay : Layout) :
    ∀ (previous : Option Nat) (L : List (Instruction Label × Nat)),
      Specified (markerTables lay previous L)
  | _, [] => by
    rw [markerTables]
    exact .pure _
  | previous, (i, position) :: rest => by
    cases i
    case lineNumber line start =>
      simp only [markerTables]
      exact (Specified.lift _).bind fun _ => (specified_markerTables lay previous rest).bind
        fun _ => .pure _
    case frame f =>
      simp only [markerTables]
      exact (Specified.lift _).bind fun _ =>
        (specified_frameMapM specified_classRef
          (fun _ => (Specified.lift _).bind fun _ => .pure _) f).bind fun _ =>
        (Specified.lift _).bind fun _ => (specified_markerTables lay _ rest).bind fun _ => .pure _
    all_goals
      simp only [markerTables]
      exact specified_markerTables lay previous rest

theorem specified_markerAttributes (lines : List RawLine) (frames : List StackMapFrame) :
    Specified (markerAttributes lines frames) := by
  unfold markerAttributes
  dsimp only
  -- each table is left out when empty, else written as one attribute
  split
  on_goal 1 => refine (Specified.pure _).bind fun _ => ?_
  on_goal 2 =>
    refine (specified_attributeNamed _ _).bind fun _ => (Specified.pure _).bind fun _ => ?_
  all_goals
    split
    · exact (Specified.pure _).bind fun _ => .pure _
    · exact (specified_attributeNamed _ _).bind fun _ => (Specified.pure _).bind fun _ => .pure _

theorem specified_code {m : MethodModel} (hinterns : ∀ i ∈ m.instructions, i.Interns) :
    Specified m.code := by
  unfold MethodModel.code MethodModel.encodeBody
  refine (Specified.lift _).bind fun _ => (specified_settle hinterns _ _ _ _).bind fun p => ?_
  obtain ⟨offsets, wide⟩ := p
  refine ((Specified.mapM fun q hq =>
    specified_instruction (hinterns _ (List.fst_mem_of_mem_zipIdx hq)) _ _ _).bind fun _ =>
      (Specified.mapM fun h _ => ?_).bind fun _ => .pure _).bind fun p => ?_
  · refine (Specified.lift _).bind fun _ => (Specified.lift _).bind fun _ =>
      (Specified.lift _).bind fun _ => ?_
    dsimp only
    split
    · exact (specified_classRef _).bind fun _ => .pure _
    · exact (Specified.pure _).bind fun _ => .pure _
  obtain ⟨code, handlers⟩ := p
  refine (specified_markerTables _ none _).bind fun p => ?_
  obtain ⟨lines, frames⟩ := p
  exact (specified_markerAttributes lines frames).bind fun _ => .pure _

end Build

end ClassPatch
