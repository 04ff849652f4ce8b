import ClassPatch.Proofs.MemberRoundTrip
import ClassPatch.Proofs.SkippedMarkers
import ClassPatch.Proofs.PoolValues

namespace ClassPatch

namespace Build

open PoolBuilder

variable {α β : Type}

def Keeps (P : PoolBuilder → Prop) (x : Build α) : Prop :=
  ∀ S a S', P S → x S = .ok (a, S') → P S'

namespace Keeps

variable {P : PoolBuilder → Prop} {x : Build α} {f : α → Build β}

theorem pure (a : α) : Keeps P (Pure.pure a : Build α) := by
  intro S b S' hS h
  cases h
  exact hS

theorem fail (e : FormatError) : Keeps P (Build.fail e : Build α) := by
  intro S a S' _ h
  cases h

theorem lift (r : Except FormatError α) : Keeps P (Build.lift r) := by
  intro S a S' hS h
  obtain ⟨-, rfl⟩ := lift_eq_ok h
  exact hS

theorem get : Keeps P (MonadState.get : Build PoolBuilder) := by
  intro S a S' hS h
  cases h
  exact hS

theorem bind (hx : Keeps P x) (hf : ∀ a, Keeps P (f a)) : Keeps P (x >>= f) := by
  intro S b S₂ hS h
  obtain ⟨a, S₁, h₁, h₂⟩ := bind_eq_ok h
  exact hf a S₁ b S₂ (hx S a S₁ hS h₁) h₂

theorem mapM {l : List α} {f : α → Build β} (h : ∀ a ∈ l, Keeps P (f a)) :
    Keeps P (l.mapM f) := by
  induction l with
  | nil => exact pure _
  | cons a l ih =>
    rw [List.mapM_cons]
    exact (h a List.mem_cons_self).bind fun _ =>
      (ih fun a' ha' => h a' (List.mem_cons_of_mem a ha')).bind fun _ => pure _

theorem ite {c : Prop} [Decidable c] {y : Build α} (hx : c → Keeps P x) (hy : ¬c → Keeps P y) :
    Keeps P (if c then x else y) := by
  split
  · exact hx ‹_›
  · exact hy ‹_›

end Keeps

end Build

namespace PoolBuilder

def ArgumentsFit (S : PoolBuilder) : Prop := ∀ b ∈ S.bootstrap, b.arguments.length < 65536

end PoolBuilder

namespace Constant

mutual

def CallsFit : Constant → Prop
  | .dynamic _ _ _ arguments => arguments.length < 65536 ∧ CallsFitList arguments
  | _ => True

def CallsFitList : List Constant → Prop
  | [] => True
  | c :: cs => CallsFit c ∧ CallsFitList cs

end

end Constant

namespace Instruction

def CallsFit {L : Type} : Instruction L → Prop
  | .ldc c => c.CallsFit
  | .invokeDynamic _ _ _ arguments => arguments.length < 65536 ∧ Constant.CallsFitList arguments
  | _ => True

end Instruction

namespace Build

open PoolBuilder

variable {α : Type} {x : Build α}

theorem Keeps.argumentsFit (h : ∀ t, Keeps (·.bootstrap = t) x) : Keeps ArgumentsFit x := by
  intro S a S' hS hx b hb
  have he : S'.bootstrap = S.bootstrap := h S.bootstrap S a S' rfl hx
  exact hS b (he ▸ hb)

-- interning an entry of the pool leaves the table as it was

theorem keeps_entry (e : PoolEntry) (t : List BootstrapEntry) : Keeps (·.bootstrap = t) (entry e) := by
  intro S i S' hS h
  unfold entry at h
  split at h
  · cases h
    exact hS
  · cases h

theorem keeps_utf8 (s : String) (t : List BootstrapEntry) : Keeps (·.bootstrap = t) (utf8 s) :=
  keeps_entry _ t

theorem keeps_classRef (name : String) (t : List BootstrapEntry) :
    Keeps (·.bootstrap = t) (classRef name) :=
  (keeps_utf8 _ t).bind fun _ => keeps_entry _ t

theorem keeps_nameAndType (name descriptor : String) (t : List BootstrapEntry) :
    Keeps (·.bootstrap = t) (nameAndType name descriptor) :=
  (keeps_utf8 _ t).bind fun _ => (keeps_utf8 _ t).bind fun _ => keeps_entry _ t

theorem keeps_handle (h : MethodHandle) (t : List BootstrapEntry) : Keeps (·.bootstrap = t) (handle h) := by
  unfold handle fieldRef methodRef
  exact Keeps.ite (fun _ => ((keeps_classRef _ t).bind fun _ => (keeps_nameAndType _ _ t).bind
      fun _ => keeps_entry _ t).bind fun _ => keeps_entry _ t)
    (fun _ => ((keeps_classRef _ t).bind fun _ => (keeps_nameAndType _ _ t).bind
      fun _ => keeps_entry _ t).bind fun _ => keeps_entry _ t)

theorem keeps_attributeNamed (name : String) (info : List UInt8) (t : List BootstrapEntry) :
    Keeps (·.bootstrap = t) (attributeNamed name info) :=
  (keeps_utf8 _ t).bind fun _ => Keeps.pure _

theorem keeps_bootstrapEntry {e : BootstrapEntry} (he : e.arguments.length < 65536) :
    Keeps ArgumentsFit (bootstrapEntry e) := by
  intro S b S' hS h
  unfold bootstrapEntry at h
  split at h
  · cases h
    exact hS
  · cases h
    intro b' hb'
    rcases List.mem_append.mp hb' with hb' | hb'
    · exact hS b' hb'
    · rw [List.mem_singleton.mp hb']
      exact he

theorem length_constants : ∀ {cs : List Constant} {S S' : PoolBuilder} {is : List UInt16},
    constants cs S = .ok (is, S') → is.length = cs.length
  | [], _, _, _, h => by
    rw [constants] at h
    cases h
    rfl
  | c :: cs, _, _, _, h => by
    rw [constants] at h
    obtain ⟨i, S₁, -, h'⟩ := bind_eq_ok h
    obtain ⟨is, S₂, h₂, h₃⟩ := bind_eq_ok h'
    cases h₃
    simp [length_constants h₂]

mutual

theorem keeps_constant : ∀ c : Constant, c.CallsFit → Keeps ArgumentsFit (constant c)
  | .integer _, _ | .float _, _ | .long _, _ | .double _, _ =>
    Keeps.argumentsFit fun t => keeps_entry _ t
  | .string _, _ => Keeps.argumentsFit fun t => (keeps_entry _ t).bind fun _ => keeps_entry _ t
  | .classRef _, _ => Keeps.argumentsFit fun t => keeps_classRef _ t
  | .methodType _, _ => Keeps.argumentsFit fun t => (keeps_utf8 _ t).bind fun _ => keeps_entry _ t
  | .methodHandle _, _ => Keeps.argumentsFit fun t => keeps_handle _ t
  | .dynamic _ _ _ arguments, ⟨hlen, hargs⟩ => by
    -- the arguments interned are as many as the constant has
    intro S i S' hS h
    rw [constant] at h
    obtain ⟨hi, S₁, h₁, h'⟩ := bind_eq_ok h
    obtain ⟨is, S₂, h₂, h''⟩ := bind_eq_ok h'
    obtain ⟨b, S₃, h₃, h₄⟩ := bind_eq_ok h''
    have hS₁ := Keeps.argumentsFit (keeps_handle _) S hi S₁ hS h₁
    have hS₂ := keeps_constants arguments hargs S₁ is S₂ hS₁ h₂
    have hS₃ := keeps_bootstrapEntry (by rw [length_constants h₂]; exact hlen) S₂ b S₃ hS₂ h₃
    exact Keeps.argumentsFit (fun t => (keeps_nameAndType _ _ t).bind fun _ => keeps_entry _ t)
      S₃ i S' hS₃ h₄

theorem keeps_constants : ∀ cs : List Constant, Constant.CallsFitList cs →
    Keeps ArgumentsFit (constants cs)
  | [], _ => by
    rw [constants]
    exact Keeps.pure _
  | c :: cs, ⟨hc, hcs⟩ => by
    rw [constants]
    exact (keeps_constant c hc).bind fun _ => (keeps_constants cs hcs).bind fun _ => Keeps.pure _

end

end Build

namespace Build

open PoolBuilder

theorem keeps_fieldRef (f : FieldRef) (t : List BootstrapEntry) : Keeps (·.bootstrap = t) (fieldRef f) :=
  (keeps_classRef _ t).bind fun _ => (keeps_nameAndType _ _ t).bind fun _ => keeps_entry _ t

theorem keeps_methodRef (m : MethodRef) (t : List BootstrapEntry) :
    Keeps (·.bootstrap = t) (methodRef m) :=
  (keeps_classRef _ t).bind fun _ => (keeps_nameAndType _ _ t).bind fun _ => keeps_entry _ t

theorem keeps_bootstrapMethod {h : MethodHandle} {arguments : List Constant}
    (hlen : arguments.length < 65536) (hargs : Constant.CallsFitList arguments) :
    Keeps ArgumentsFit (bootstrapMethod h arguments) := by
  intro S b S' hS hrun
  obtain ⟨hi, S₁, h₁, h'⟩ := bind_eq_ok hrun
  obtain ⟨is, S₂, h₂, h₃⟩ := bind_eq_ok h'
  have hS₁ := Keeps.argumentsFit (keeps_handle h) S hi S₁ hS h₁
  have hS₂ := keeps_constants arguments hargs S₁ is S₂ hS₁ h₂
  exact keeps_bootstrapEntry (by rw [length_constants h₂]; exact hlen) S₂ b S' hS₂ h₃

theorem keeps_instruction {i : Instruction Label} (hi : i.CallsFit) (offset : Nat) (wide : Bool)
    (lo : Label → Except FormatError Nat) : Keeps ArgumentsFit (instruction i offset wide lo) := by
  cases i
  all_goals simp only [Build.instruction]
  case int | var | iinc =>
    repeat' split
    all_goals first | exact .pure _ | exact .fail _
  case simple | label | lineNumber | frame => exact .pure _
  case type name | multiANewArray name _ =>
    exact (Keeps.argumentsFit (keeps_classRef name)).bind fun _ => .pure _
  case field ref => exact (Keeps.argumentsFit (keeps_fieldRef ref)).bind fun _ => .pure _
  case method op ref =>
    refine (Keeps.argumentsFit (keeps_methodRef ref)).bind fun _ => ?_
    split
    · exact (Keeps.lift _).bind fun _ => .pure _
    · exact .pure _
  case invokeDynamic =>
    exact (keeps_bootstrapMethod hi.1 hi.2).bind fun _ =>
      (Keeps.argumentsFit (keeps_nameAndType _ _)).bind fun _ =>
        (Keeps.argumentsFit (keeps_entry _)).bind fun _ => .pure _
  case jump =>
    refine (Keeps.lift _).bind fun _ => ?_
    repeat' split
    all_goals first | exact .pure _ | exact .fail _
  case tableSwitch | lookupSwitch =>
    split
    · exact .fail _
    · exact ((Keeps.lift _).bind fun _ => .pure _).bind fun _ =>
        (Keeps.mapM fun _ _ => (Keeps.lift _).bind fun _ => .pure _).bind fun _ => .pure _
  case ldc c =>
    refine (keeps_constant c hi).bind fun _ => ?_
    repeat' split
    all_goals exact .pure _

end Build

namespace Build

open PoolBuilder

section Frames

variable {P : PoolBuilder → Prop} {C U C' U' : Type} {f : C → Build C'} {g : U → Build U'}

theorem keeps_typeMapM (hf : ∀ c, Keeps P (f c)) (hg : ∀ u, Keeps P (g u))
    (t : VerificationType C U) : Keeps P (t.mapM f g) := by
  cases t
  all_goals simp only [VerificationType.mapM]
  case object c => exact (hf c).bind fun _ => .pure _
  case uninitialized u => exact (hg u).bind fun _ => .pure _
  all_goals exact .pure _

theorem keeps_frameMapM (hf : ∀ c, Keeps P (f c)) (hg : ∀ u, Keeps P (g u)) (fr : Frame C U) :
    Keeps P (fr.mapM f g) := by
  cases fr
  all_goals simp only [Frame.mapM]
  case sameLocalsOneStack t => exact (keeps_typeMapM hf hg t).bind fun _ => .pure _
  case append locals =>
    exact (Keeps.mapM fun t _ => keeps_typeMapM hf hg t).bind fun _ => .pure _
  case full locals stack =>
    exact (Keeps.mapM fun t _ => keeps_typeMapM hf hg t).bind fun _ =>
      (Keeps.mapM fun t _ => keeps_typeMapM hf hg t).bind fun _ => .pure _
  all_goals exact .pure _

end Frames

section Body

variable {insns : List (Instruction Label)} (hcalls : ∀ i ∈ insns, i.CallsFit)
include hcalls

-- laying a body out interns only what its instructions intern

theorem keeps_offsetsFrom (wide : List Nat) :
    ∀ (L : List (Instruction Label × Nat)) (offset : Nat), (∀ q ∈ L, q.1 ∈ insns) →
      Keeps ArgumentsFit (Layout.offsetsFrom wide offset L)
  | [], _, _ => .pure _
  | (i, p) :: rest, offset, hL => by
    rw [Layout.offsetsFrom]
    exact (keeps_instruction (hcalls i (hL _ List.mem_cons_self)) _ _ _).bind fun bytes =>
      (keeps_offsetsFrom wide rest _ fun q hq => hL q (List.mem_cons_of_mem _ hq)).bind
        fun _ => .pure _

theorem keeps_measure (wide : List Nat) : Keeps ArgumentsFit (Layout.measure insns wide) := by
  unfold Layout.measure
  refine (keeps_offsetsFrom hcalls wide _ 0 fun q hq => ?_).bind fun _ => ?_
  · exact List.fst_mem_of_mem_zipIdx hq
  · exact Keeps.ite (fun _ => .fail _) fun _ => .pure _

theorem keeps_settle (positions : List (Label × Nat)) (hasFrames : Bool) :
    ∀ fuel wide, Keeps ArgumentsFit (settle insns positions hasFrames fuel wide)
  | 0, wide => by
    rw [settle]
    exact (keeps_measure hcalls wide).bind fun _ => .pure _
  | fuel + 1, wide => by
    rw [settle]
    exact (keeps_measure hcalls wide).bind fun _ => (Keeps.lift _).bind fun _ =>
      Keeps.ite (fun _ => .pure _) fun _ => keeps_settle positions hasFrames fuel _

end Body

theorem keeps_markerTables (lay : Layout) :
    ∀ (previous : Option Nat) (L : List (Instruction Label × Nat)),
      Keeps ArgumentsFit (markerTables lay previous L)
  | _, [] => by
    rw [markerTables]
    exact .pure _
  | previous, (i, position) :: rest => by
    cases i
    case lineNumber line start =>
      simp only [markerTables]
      exact (Keeps.lift _).bind fun _ => (keeps_markerTables lay previous rest).bind fun _ =>
        .pure _
    case frame f =>
      simp only [markerTables]
      exact (Keeps.lift _).bind fun _ =>
        (keeps_frameMapM (fun _ => Keeps.argumentsFit (keeps_classRef _))
          (fun _ => (Keeps.lift _).bind fun _ => .pure _) f).bind fun _ =>
        (Keeps.lift _).bind fun _ => (keeps_markerTables lay _ rest).bind fun _ => .pure _
    all_goals
      simp only [markerTables]
      exact keeps_markerTables lay previous rest

theorem keeps_markerAttributes (lines : List RawLine) (frames : List StackMapFrame) :
    Keeps ArgumentsFit (markerAttributes lines frames) := by
  unfold markerAttributes
  dsimp only
  -- each table is left out when empty, else written as one attribute
  split
  on_goal 1 => refine (Keeps.pure _).bind fun _ => ?_
  on_goal 2 =>
    refine (Keeps.argumentsFit (keeps_attributeNamed _ _)).bind fun _ => (Keeps.pure _).bind fun _ => ?_
  all_goals
    split
    · exact (Keeps.pure _).bind fun _ => .pure _
    · exact (Keeps.argumentsFit (keeps_attributeNamed _ _)).bind fun _ =>
        (Keeps.pure _).bind fun _ => .pure _

theorem keeps_code {m : MethodModel} (hcalls : ∀ i ∈ m.instructions, i.CallsFit) :
    Keeps ArgumentsFit m.code := by
  unfold MethodModel.code MethodModel.encodeBody
  refine (Keeps.lift _).bind fun positions => (keeps_settle hcalls _ _ _ _).bind fun p => ?_
  obtain ⟨offsets, wide⟩ := p
  refine ((Keeps.mapM fun q hq => keeps_instruction (hcalls _ (List.fst_mem_of_mem_zipIdx hq)) _ _ _).bind
    fun _ => (Keeps.mapM fun h _ => ?_).bind fun _ => .pure _).bind fun p => ?_
  · refine (Keeps.lift _).bind fun _ => (Keeps.lift _).bind fun _ => (Keeps.lift _).bind fun _ => ?_
    dsimp only
    split
    · exact (Keeps.argumentsFit (keeps_classRef _)).bind fun _ => .pure _
    · exact (Keeps.pure _).bind fun _ => .pure _
  obtain ⟨code, handlers⟩ := p
  refine (keeps_markerTables _ none _).bind fun p => ?_
  obtain ⟨lines, frames⟩ := p
  exact (keeps_markerAttributes lines frames).bind fun _ => .pure _

end Build

namespace Build

open PoolBuilder

mutual

-- element values intern texts and numbers only

theorem keeps_elementValue (t : List BootstrapEntry) :
    ∀ v : ElementValue, Keeps (·.bootstrap = t) (elementValue v)
  | .byte _ | .char _ | .short _ | .boolean _ | .int _ | .long _ | .float _ | .double _
  | .string _ => by
    rw [elementValue]
    exact (keeps_entry _ t).bind fun _ => .pure _
  | .enum _ _ => by
    rw [elementValue]
    exact (keeps_utf8 _ t).bind fun _ => (keeps_utf8 _ t).bind fun _ => .pure _
  | .classLiteral _ => by
    rw [elementValue]
    exact (keeps_utf8 _ t).bind fun _ => .pure _
  | .annotationValue _ elements => by
    rw [elementValue]
    exact (keeps_utf8 _ t).bind fun _ => (keeps_elementPairs t elements).bind fun _ => .pure _
  | .array values => by
    rw [elementValue]
    exact (keeps_elementValues t values).bind fun _ => .pure _

theorem keeps_elementPairs (t : List BootstrapEntry) :
    ∀ ps : List (String × ElementValue), Keeps (·.bootstrap = t) (elementPairs ps)
  | [] => by
    rw [elementPairs]
    exact .pure _
  | (_, v) :: rest => by
    rw [elementPairs]
    exact (keeps_utf8 _ t).bind fun _ => (keeps_elementValue t v).bind fun _ =>
      (keeps_elementPairs t rest).bind fun _ => .pure _

theorem keeps_elementValues (t : List BootstrapEntry) :
    ∀ vs : List ElementValue, Keeps (·.bootstrap = t) (elementValues vs)
  | [] => by
    rw [elementValues]
    exact .pure _
  | v :: rest => by
    rw [elementValues]
    exact (keeps_elementValue t v).bind fun _ => (keeps_elementValues t rest).bind fun _ => .pure _

end

theorem keeps_signature (s : String) (t : List BootstrapEntry) : Keeps (·.bootstrap = t) (signature s) :=
  (keeps_utf8 _ t).bind fun _ => keeps_attributeNamed _ _ t

theorem keeps_present {α : Type} {g : α → Build RawAttribute} {o : Option α}
    {P : PoolBuilder → Prop} (hg : ∀ a ∈ o, Keeps P (g a)) : Keeps P (present g o) := by
  cases o with
  | none => exact .pure _
  | some a => exact (hg a rfl).bind fun _ => .pure _

end Build

namespace FieldModel

open Build PoolBuilder

theorem keeps_write {f : FieldModel} (hf : ∀ c ∈ f.value, c.CallsFit) : Keeps ArgumentsFit f.write :=
  (Keeps.argumentsFit (keeps_utf8 _)).bind fun _ => (Keeps.argumentsFit (keeps_utf8 _)).bind fun _ =>
    (keeps_present fun c hc => (keeps_constant c (hf c hc)).bind fun _ =>
      Keeps.argumentsFit (keeps_attributeNamed _ _)).bind fun _ =>
    (keeps_present fun _ _ => Keeps.argumentsFit (keeps_signature _)).bind fun _ => .pure _

end FieldModel

namespace MethodModel

open Build PoolBuilder

theorem keeps_write {m : MethodModel} (hcalls : ∀ i ∈ m.instructions, i.CallsFit) :
    Keeps ArgumentsFit m.write := by
  rw [write_eq]
  refine (Keeps.argumentsFit (keeps_utf8 _)).bind fun _ => (Keeps.argumentsFit (keeps_utf8 _)).bind
    fun _ => (Keeps.ite (fun _ => .pure _) fun _ => ?_).bind fun _ =>
      (Keeps.ite (fun _ => .pure _) fun _ => ?_).bind fun _ =>
      (keeps_present fun _ _ => Keeps.argumentsFit (keeps_signature _)).bind fun _ =>
      (keeps_present fun v _ => Keeps.argumentsFit fun t => (keeps_elementValue t v).bind fun _ =>
        keeps_attributeNamed _ _ t).bind fun _ => .pure _
  · exact (keeps_code hcalls).bind fun _ => (Keeps.argumentsFit (keeps_attributeNamed _ _)).bind
      fun _ => .pure _
  · exact (Keeps.mapM fun _ _ => Keeps.argumentsFit (keeps_classRef _)).bind fun _ =>
      (Keeps.argumentsFit (keeps_attributeNamed _ _)).bind fun _ => .pure _

def asRead (m : MethodModel) (body : List (Instruction Label) × List (Handler Label)) :
    MethodModel :=
  if m.instructions.isEmpty then { m with maxStack := 0, maxLocals := 0, handlers := [] }
  else { m with instructions := body.1, handlers := body.2 }

def codeRead (m : MethodModel) (body : List (Instruction Label) × List (Handler Label))
    (g : MethodModel) : MethodModel :=
  if m.instructions.isEmpty then g
  else { g with maxStack := m.maxStack, maxLocals := m.maxLocals, instructions := body.1,
                handlers := body.2 }

/-- Two methods agree outside their bodies: in name, descriptor, flags, signature, exceptions and
annotation default, and in their limits when the first has instructions. -/
structure SameOutsideBody (m m' : MethodModel) : Prop where
  name : m'.name = m.name
  descriptor : m'.descriptor = m.descriptor
  access : m'.access = m.access
  signature : m'.signature = m.signature
  exceptions : m'.exceptions = m.exceptions
  annotationDefault : m'.annotationDefault = m.annotationDefault
  limits : m.instructions ≠ [] → m'.maxStack = m.maxStack ∧ m'.maxLocals = m.maxLocals

theorem sameOutsideBody_asRead (m : MethodModel) (body : List (Instruction Label) × List (Handler Label)) :
    SameOutsideBody m (m.asRead body) := by
  unfold asRead
  split
  · rename_i hempty
    exact ⟨rfl, rfl, rfl, rfl, rfl, rfl, fun hne => absurd (List.isEmpty_iff.mp hempty) hne⟩
  · exact ⟨rfl, rfl, rfl, rfl, rfl, rfl, fun _ => ⟨rfl, rfl⟩⟩

def BodyDecodes (options : ReadOptions)
    (P : Resolver → List (Instruction Label) × List (Handler Label) → Prop) (m : MethodModel) :
    Prop :=
  ∀ {S S' : PoolBuilder} {c : CodeAttribute}, S.Laid 0 → m.code S = .ok (c, S') →
    Spec 0 m.code S c S' ∧ (c.encode.length < Nat.pow 2 32 → c.Fits) ∧
      S'.Resolves fun r => ∃ d, c.body r options = .ok d ∧ P r d

variable {options : ReadOptions} {m : MethodModel} {S S' : PoolBuilder}
  {P : Resolver → List (Instruction Label) × List (Handler Label) → Prop}

theorem writeCode_decodes (hbody : m.instructions ≠ [] → m.BodyDecodes options P)
    {as : List RawAttribute} (hS : S.Laid 0)
    (h : (if m.instructions.isEmpty then pure [] else do
      let c ← m.code
      let a ← attributeNamed "Code" c.encode
      pure [a] : Build (List RawAttribute)) S = .ok (as, S')) :
    Spec 0 (if m.instructions.isEmpty then pure [] else do
      let c ← m.code
      let a ← attributeNamed "Code" c.encode
      pure [a] : Build (List RawAttribute)) S as S' ∧
      ((∀ a ∈ as, a.Fits) → S'.Resolves fun r => ∃ d, (m.instructions ≠ [] → P r d) ∧
        Applies (withAttribute r options) as (m.codeRead d)) := by
  by_cases hempty : m.instructions.isEmpty = true
  · -- no instructions, no `Code` attribute
    simp only [hempty, if_true] at h ⊢
    obtain ⟨rfl, rfl⟩ := Prod.mk.inj (Except.ok.inj h)
    have hid : m.codeRead ([], []) = id := funext fun g => by simp [codeRead, hempty]
    refine ⟨Spec.pure hS _, fun _ _ _ _ => ⟨([], []), fun hne => ?_, hid ▸ Applies.nil⟩⟩
    exact absurd (List.isEmpty_iff.mp hempty) hne
  simp only [hempty, Bool.false_eq_true, if_false] at h ⊢
  have hb : m.BodyDecodes options P := hbody fun hnil => hempty (List.isEmpty_iff.mpr hnil)
  obtain ⟨c, S₁, h₁, h₂⟩ := bind_eq_ok h
  obtain ⟨a, S₂, h₃, h₄⟩ := bind_eq_ok h₂
  obtain ⟨rfl, rfl⟩ := Prod.mk.inj (Except.ok.inj h₄)
  obtain ⟨hspec₁, hfits, hdecodes⟩ := hb hS h₁
  obtain ⟨hstack, hlocals⟩ := code_limits h₁
  obtain ⟨hspec₂, hinfo, hname⟩ := attributeNamed_spec hspec₁.laid h₃
  refine ⟨hspec₁.bind (hspec₂.bind (Spec.pure hspec₂.laid _)), fun ha T hT hlaid => ?_⟩
  -- the attribute's length fits, so the code attribute's lists fit too
  have hc : c.Fits := hfits (by simpa [RawAttribute.Fits, hinfo] using ha a List.mem_cons_self)
  obtain ⟨d, hd, hP⟩ := hdecodes T (hspec₂.grows.trans hT) hlaid
  refine ⟨d, fun _ => hP, Applies.single fun g => ?_⟩
  rw [withAttribute_code (hname T hT hlaid) hinfo hc hd, hstack, hlocals]
  simp [codeRead, hempty]

theorem write_reads_back (hbody : m.instructions ≠ [] → m.BodyDecodes options P)
    (hexceptions : m.exceptions.length < 65536) (hdefault : ∀ v ∈ m.annotationDefault, v.Fits)
    {raw : RawMember} (hS : S.Laid 0) (h : m.write S = .ok (raw, S')) :
    Spec 0 m.write S raw S' ∧ ((∀ a ∈ raw.attributes, a.Fits) →
      S'.Resolves fun r => ∃ d, (m.instructions ≠ [] → P r d) ∧ read r options raw = .ok (m.asRead d)) := by
  rw [write_eq] at h ⊢
  obtain ⟨n, S₁, h₁, h₂⟩ := bind_eq_ok h
  obtain ⟨dsc, S₂, h₃, h₄⟩ := bind_eq_ok h₂
  obtain ⟨cs, S₃, h₅, h₆⟩ := bind_eq_ok h₄
  obtain ⟨es, S₄, h₇, h₈⟩ := bind_eq_ok h₆
  obtain ⟨ss, S₅, h₉, h₁₀⟩ := bind_eq_ok h₈
  obtain ⟨ds, S₆, h₁₁, h₁₂⟩ := bind_eq_ok h₁₀
  obtain ⟨rfl, rfl⟩ := Prod.mk.inj (Except.ok.inj h₁₂)
  obtain ⟨hspec₁, hname, -, -⟩ := utf8_spec hS h₁
  obtain ⟨hspec₂, hdesc, -, -⟩ := utf8_spec hspec₁.laid h₃
  obtain ⟨hspec₃, happ₃⟩ := writeCode_decodes hbody hspec₂.laid h₅
  obtain ⟨hspec₄, happ₄⟩ := unless_spec
    (fun _ _ _ _ hS h => writeExceptions_spec hexceptions hS h) hspec₃.laid h₇
  obtain ⟨hspec₅, happ₅⟩ :=
    present_spec (fun _ _ _ _ _ hS h => writeSignature_spec hS h) hspec₄.laid h₉
  obtain ⟨hspec₆, happ₆⟩ :=
    present_spec (fun v hv _ _ _ hS h => writeDefault_spec (hdefault v hv) hS h) hspec₅.laid h₁₁
  refine ⟨hspec₁.bind (hspec₂.bind (hspec₃.bind (hspec₄.bind (hspec₅.bind (hspec₆.bind
    (Spec.pure hspec₆.laid _)))))), fun hfits T hT hlaid => ?_⟩
  have hT₅ := hspec₆.grows.trans hT
  have hT₄ := hspec₅.grows.trans hT₅
  have hT₃ := hspec₄.grows.trans hT₄
  have hn := hname T ((hspec₂.grows.trans hspec₃.grows).trans hT₃) hlaid
  have hd := hdesc T (hspec₃.grows.trans hT₃) hlaid
  obtain ⟨body, hP, happ⟩ := happ₃ (fun a ha => hfits a (by simp [ha])) T hT₃ hlaid
  have happ' := ((happ.append (happ₄ T hT₄ hlaid)).append (happ₅ T hT₅ hlaid)).append
    (happ₆ T hT hlaid)
  refine ⟨body, hP, ?_⟩
  simp only [Applies] at hn hd happ' ⊢
  simp only [read, happ', hn, hd]
  -- each present value was set by its attribute, each absent one is the reader's default
  cases m with
  | mk name descriptor access signature exceptions annotationDefault maxStack maxLocals
      instructions handlers =>
    cases instructions with
    | nil => cases exceptions <;> cases signature <;> cases annotationDefault <;> rfl
    | cons i is => cases exceptions <;> cases signature <;> cases annotationDefault <;> rfl

end MethodModel

namespace ClassModel

open Reader

def tableStep (p : Pool) (table : List BootstrapEntry) (a : RawAttribute) :
    Except FormatError (List BootstrapEntry) := do
  if (← p.utf8 a.name) == "BootstrapMethods" then a.decode (Reader.list BootstrapEntry.read)
  else pure table

theorem bootstrapTable_eq (p : Pool) (as : List RawAttribute) :
    bootstrapTable p as = as.foldlM (tableStep p) [] := rfl

def readStep (r : Resolver) (s : ClassModel × List BootstrapEntry) (a : RawAttribute) :
    Except FormatError (ClassModel × List BootstrapEntry) := do
  let c ← withAttribute r s.1 a
  let table ← tableStep r.pool s.2 a
  pure (c, table)

variable {r : Resolver}

theorem foldlM_readStep : ∀ {as : List RawAttribute} {c c' : ClassModel}
    {t t' : List BootstrapEntry}, as.foldlM (readStep r) (c, t) = .ok (c', t') →
      as.foldlM (withAttribute r) c = .ok c' ∧ as.foldlM (tableStep r.pool) t = .ok t'
  | [], _, _, _, _, h => by
    cases h
    exact ⟨rfl, rfl⟩
  | a :: as, c, c', t, t', h => by
    rw [List.foldlM_cons] at h
    obtain ⟨⟨c₁, t₁⟩, h₁, h₂⟩ := Except.bind_eq_ok_iff.mp h
    obtain ⟨c₂, hc, h₁⟩ := Except.bind_eq_ok_iff.mp h₁
    obtain ⟨t₂, ht, h₁⟩ := Except.bind_eq_ok_iff.mp h₁
    cases h₁
    obtain ⟨hcs, hts⟩ := foldlM_readStep h₂
    simp only [List.foldlM_cons, hc, ht, Except.ok_bind]
    exact ⟨hcs, hts⟩

theorem tableStep_of_name {a : RawAttribute} {name : String} (hname : r.pool.utf8 a.name = .ok name)
    (hn : name ≠ "BootstrapMethods") (t : List BootstrapEntry) : tableStep r.pool t a = .ok t := by
  simp [tableStep, hname, hn]

theorem readStep_of {a : RawAttribute} {name : String} {u : ClassModel → ClassModel}
    (hname : r.pool.utf8 a.name = .ok name) (hn : name ≠ "BootstrapMethods")
    (hu : ∀ c, withAttribute r c a = .ok (u c)) (s : ClassModel × List BootstrapEntry) :
    readStep r s a = .ok (u s.1, s.2) := by
  simp [readStep, hu, tableStep_of_name hname hn]

variable {c : ClassModel} {a : RawAttribute}

theorem withAttribute_signature {i : UInt16} {s : String}
    (hname : r.pool.utf8 a.name = .ok "Signature") (hinfo : a.info = BigEndian.u16 i)
    (hs : r.pool.utf8 i = .ok s) : withAttribute r c a = .ok { c with signature := some s } := by
  obtain ⟨n, info⟩ := a
  subst hinfo
  simp [withAttribute, hname, RawAttribute.decode_index, hs]

theorem withAttribute_sourceFile {i : UInt16} {s : String}
    (hname : r.pool.utf8 a.name = .ok "SourceFile") (hinfo : a.info = BigEndian.u16 i)
    (hs : r.pool.utf8 i = .ok s) : withAttribute r c a = .ok { c with sourceFile := some s } := by
  obtain ⟨n, info⟩ := a
  subst hinfo
  simp [withAttribute, hname, RawAttribute.decode_index, hs]

theorem withAttribute_sourceDebug {s : String}
    (hname : r.pool.utf8 a.name = .ok "SourceDebugExtension")
    (hinfo : a.info = ModifiedUtf8.encode (JavaString.ofString s)) :
    withAttribute r c a = .ok { c with sourceDebug := some s } := by
  obtain ⟨n, info⟩ := a
  subst hinfo
  simp [withAttribute, hname, sourceDebugText]

theorem withAttribute_nestHost {i : UInt16} {s : String}
    (hname : r.pool.utf8 a.name = .ok "NestHost") (hinfo : a.info = BigEndian.u16 i)
    (hs : r.pool.className i = .ok s) : withAttribute r c a = .ok { c with nestHost := some s } := by
  obtain ⟨n, info⟩ := a
  subst hinfo
  simp [withAttribute, hname, RawAttribute.decode_index, hs]

theorem withAttribute_nestMembers {is : List UInt16} {names : List String}
    (hname : r.pool.utf8 a.name = .ok "NestMembers") (hinfo : a.info = Writer.list BigEndian.u16 is)
    (hlen : is.length < 65536) (hs : is.mapM r.pool.className = .ok names) :
    withAttribute r c a = .ok { c with nestMembers := names } := by
  obtain ⟨n, info⟩ := a
  subst hinfo
  have hdecode := @RawAttribute.decode_of_reads _ _ _ n _ (reads_list hlen fun i _ => reads_u16 i)
  simp [withAttribute, hname, hdecode, hs]

end ClassModel

namespace ClassModel

open Reader

def enclosingMethod (c : ClassModel) : Option (String × String) :=
  match c.outerMethod, c.outerMethodDescriptor with
  | some name, some descriptor => some (name, descriptor)
  | _, _ => none

def withEnclosing (outer : String) (method : Option (String × String)) (c : ClassModel) :
    ClassModel :=
  { c with outerClass := some outer, outerMethod := (method.map Prod.fst).or c.outerMethod,
           outerMethodDescriptor := (method.map Prod.snd).or c.outerMethodDescriptor }

variable {r : Resolver} {c : ClassModel} {a : RawAttribute}

theorem withAttribute_enclosing {cls method : UInt16} {outer : String}
    {em : Option (String × String)} (hname : r.pool.utf8 a.name = .ok "EnclosingMethod")
    (hinfo : a.info = BigEndian.u16 cls ++ BigEndian.u16 method)
    (hcls : r.pool.className cls = .ok outer)
    (hmethod : em = none ∧ method = 0 ∨
      ∃ n d, em = some (n, d) ∧ method ≠ 0 ∧ r.pool.nameAndType method = .ok (n, d)) :
    withAttribute r c a = .ok (withEnclosing outer em c) := by
  obtain ⟨n, info⟩ := a
  subst hinfo
  have hread : Reads readEnclosing (BigEndian.u16 cls ++ BigEndian.u16 method) (cls, method) :=
    (reads_u16 cls).bind (reads_u16 method).bind_pure
  rcases hmethod with ⟨rfl, rfl⟩ | ⟨n, d, rfl, hne, hnat⟩
  · simp [withAttribute, hname, RawAttribute.decode_of_reads hread, hcls, withEnclosing]
  · simp [withAttribute, hname, RawAttribute.decode_of_reads hread, hcls, hne, hnat, withEnclosing]

def InnerReads (r : Resolver) (x : RawInnerClass) (e : InnerClassEntry) : Prop :=
  r.pool.className x.inner = .ok e.name ∧ r.pool.optionalClassName x.outer = .ok e.outerName ∧
    r.pool.optionalUtf8 x.name = .ok e.innerName ∧ x.access = e.access

theorem withAttribute_innerClasses {xs : List RawInnerClass} {es : List InnerClassEntry}
    (hname : r.pool.utf8 a.name = .ok "InnerClasses")
    (hinfo : a.info = Writer.list RawInnerClass.encode xs) (hlen : xs.length < 65536)
    (hs : List.Forall₂ (InnerReads r) xs es) :
    withAttribute r c a = .ok { c with innerClasses := es } := by
  obtain ⟨n, info⟩ := a
  subst hinfo
  have hdecode := @RawAttribute.decode_of_reads _ _ _ n _
    (reads_list hlen fun x _ => RawInnerClass.reads_read x)
  simp only [withAttribute, hname, hdecode, Except.ok_bind]
  refine Except.bind_eq_ok_iff.mpr ⟨es, mapM_eq_ok_of_forall₂ (hs.imp fun x e h => ?_), rfl⟩
  obtain ⟨h₁, h₂, h₃, h₄⟩ := h
  simp [h₁, h₂, h₃, h₄]

theorem readStep_bootstrap {table : List BootstrapEntry}
    (hname : r.pool.utf8 a.name = .ok "BootstrapMethods")
    (hinfo : a.info = Writer.list BootstrapEntry.encode table) (hlen : table.length < 65536)
    (hargs : ∀ b ∈ table, b.arguments.length < 65536) (s : ClassModel × List BootstrapEntry) :
    readStep r s a = .ok (s.1, table) := by
  obtain ⟨n, info⟩ := a
  subst hinfo
  have hdecode := @RawAttribute.decode_of_reads _ _ _ n _
    (reads_list hlen fun b hb => BootstrapEntry.reads_read b (hargs b hb))
  simp [readStep, withAttribute, tableStep, hname, hdecode]

end ClassModel

namespace ClassModel

open Build PoolBuilder

variable {c : ClassModel} {S S' : PoolBuilder} {x : RawAttribute}

-- each attribute of a class is written so that, read in any later pool, it sets what it holds and
-- leaves the bootstrap method table as it is

theorem writeSourceFile_spec {s : String} (hS : S.Laid 0)
    (h : (do let index ← utf8 s; indexAttribute "SourceFile" index) S = .ok (x, S')) :
    Spec 0 (do let index ← utf8 s; indexAttribute "SourceFile" index) S x S' ∧
      S'.Resolves fun r => ∀ y, readStep r y x = .ok ({ y.1 with sourceFile := some s }, y.2) := by
  obtain ⟨i, S₁, h₁, h₂⟩ := bind_eq_ok h
  obtain ⟨hspec₁, htext, -, -⟩ := utf8_spec hS h₁
  obtain ⟨hspec₂, hinfo, hname⟩ := indexAttribute_spec hspec₁.laid h₂
  refine ⟨hspec₁.bind hspec₂, fun T hT hlaid => readStep_of (hname T hT hlaid) (by decide)
    fun _ => withAttribute_sourceFile (hname T hT hlaid) hinfo (htext T (hspec₂.grows.trans hT) hlaid)⟩

theorem writeSourceDebug_spec {s : String} (hS : S.Laid 0)
    (h : attributeNamed "SourceDebugExtension" (ModifiedUtf8.encode (JavaString.ofString s)) S =
      .ok (x, S')) :
    Spec 0 (attributeNamed "SourceDebugExtension" (ModifiedUtf8.encode (JavaString.ofString s)))
        S x S' ∧
      S'.Resolves fun r => ∀ y, readStep r y x = .ok ({ y.1 with sourceDebug := some s }, y.2) := by
  obtain ⟨hspec, hinfo, hname⟩ := attributeNamed_spec hS h
  exact ⟨hspec, fun T hT hlaid => readStep_of (hname T hT hlaid) (by decide)
    fun _ => withAttribute_sourceDebug (hname T hT hlaid) hinfo⟩

theorem writeSignature_spec {s : String} (hS : S.Laid 0) (h : Build.signature s S = .ok (x, S')) :
    Spec 0 (Build.signature s) S x S' ∧
      S'.Resolves fun r => ∀ y, readStep r y x = .ok ({ y.1 with signature := some s }, y.2) := by
  obtain ⟨hspec, i, hinfo, hres⟩ := signature_spec hS h
  refine ⟨hspec, fun T hT hlaid => ?_⟩
  obtain ⟨hname, htext⟩ := hres T hT hlaid
  exact readStep_of hname (by decide) fun _ => withAttribute_signature hname hinfo htext

theorem writeNestHost_spec {s : String} (hS : S.Laid 0)
    (h : (do let index ← classRef s; indexAttribute "NestHost" index) S = .ok (x, S')) :
    Spec 0 (do let index ← classRef s; indexAttribute "NestHost" index) S x S' ∧
      S'.Resolves fun r => ∀ y, readStep r y x = .ok ({ y.1 with nestHost := some s }, y.2) := by
  obtain ⟨i, S₁, h₁, h₂⟩ := bind_eq_ok h
  obtain ⟨hspec₁, hclass, -, -⟩ := classRef_spec hS h₁
  obtain ⟨hspec₂, hinfo, hname⟩ := indexAttribute_spec hspec₁.laid h₂
  refine ⟨hspec₁.bind hspec₂, fun T hT hlaid => readStep_of (hname T hT hlaid) (by decide)
    fun _ => withAttribute_nestHost (hname T hT hlaid) hinfo (hclass T (hspec₂.grows.trans hT) hlaid)⟩

theorem enclosing_tail {outer : String} {em : Option (String × String)} {method : Build UInt16}
    {cls index : UInt16} {S₁ S₂ : PoolBuilder} (hspec₁ : Spec 0 (classRef outer) S cls S₁)
    (hcls : S₁.Resolves fun r => r.pool.className cls = .ok outer)
    (hspec₂ : Spec 0 method S₁ index S₂)
    (hmethod : em = none ∧ index = 0 ∨
      ∃ n d, em = some (n, d) ∧ index ≠ 0 ∧ S₂.Resolves fun r => r.pool.nameAndType index = .ok (n, d))
    (h : attributeNamed "EnclosingMethod" (BigEndian.u16 cls ++ BigEndian.u16 index) S₂ = .ok (x, S')) :
    Spec 0 (do
      let cls ← classRef outer
      let index ← method
      attributeNamed "EnclosingMethod" (BigEndian.u16 cls ++ BigEndian.u16 index)) S x S' ∧
      S'.Resolves fun r => ∀ y, readStep r y x = .ok (withEnclosing outer em y.1, y.2) := by
  obtain ⟨hspec₃, hinfo, hname⟩ := attributeNamed_spec hspec₂.laid h
  refine ⟨hspec₁.bind (hspec₂.bind hspec₃), fun T hT hlaid => readStep_of (hname T hT hlaid)
    (by decide) fun _ => withAttribute_enclosing (hname T hT hlaid) hinfo
      (hcls T ((hspec₂.grows.trans hspec₃.grows).trans hT) hlaid) ?_⟩
  rcases hmethod with hnone | ⟨n, d, hem, hne, hnat⟩
  · exact .inl hnone
  · exact .inr ⟨n, d, hem, hne, hnat T (hspec₃.grows.trans hT) hlaid⟩

theorem enclosing_spec {outer : String} (hS : S.Laid 0) (h : c.enclosing outer S = .ok (x, S')) :
    Spec 0 (c.enclosing outer) S x S' ∧
      S'.Resolves fun r => ∀ y, readStep r y x = .ok (withEnclosing outer c.enclosingMethod y.1, y.2) := by
  unfold enclosing at h ⊢
  -- the method written depends on whether both its name and its descriptor are known
  cases hm : c.outerMethod <;> cases hd : c.outerMethodDescriptor <;>
    simp only [enclosingMethod, hm, hd] at h ⊢
  all_goals
    obtain ⟨cls, S₁, h₁, h₂⟩ := bind_eq_ok h
    obtain ⟨index, S₂, h₃, h₄⟩ := bind_eq_ok h₂
    obtain ⟨hspec₁, hcls, -, -⟩ := classRef_spec hS h₁
  case some.some name descriptor =>
    obtain ⟨hspec₂, hnat, hne, -⟩ := nameAndType_spec hspec₁.laid h₃
    exact enclosing_tail hspec₁ hcls hspec₂ (.inr ⟨name, descriptor, rfl, hne, hnat⟩) h₄
  all_goals
    obtain ⟨rfl, rfl⟩ := pure_eq_ok h₃
    exact enclosing_tail hspec₁ hcls (Spec.pure hspec₁.laid _) (.inl ⟨rfl, rfl⟩) h₄

end ClassModel

namespace Build

open PoolBuilder

theorem mapM_spec {α β : Type} {w : α → Build β} {Q : Resolver → α → β → Prop} :
    ∀ {l : List α}, (∀ a ∈ l, ∀ {S S' : PoolBuilder} {b : β}, S.Laid 0 → w a S = .ok (b, S') →
      Spec 0 (w a) S b S' ∧ S'.Resolves fun r => Q r a b) →
    ∀ {S S' : PoolBuilder} {bs : List β}, S.Laid 0 → l.mapM w S = .ok (bs, S') →
      Spec 0 (l.mapM w) S bs S' ∧ S'.Resolves fun r => List.Forall₂ (Q r) l bs
  | [], _, _, _, _, hS, h => by
    rw [List.mapM_nil] at h ⊢
    obtain ⟨rfl, rfl⟩ := Prod.mk.inj (Except.ok.inj h)
    exact ⟨Spec.pure hS [], fun _ _ _ => .nil⟩
  | a :: l, hw, _, _, _, hS, h => by
    rw [List.mapM_cons] at h ⊢
    obtain ⟨b, S₁, h₁, h₂⟩ := bind_eq_ok h
    obtain ⟨bs, S₂, h₃, h₄⟩ := bind_eq_ok h₂
    obtain ⟨rfl, rfl⟩ := Prod.mk.inj (Except.ok.inj h₄)
    obtain ⟨hspec₁, hb⟩ := hw a List.mem_cons_self hS h₁
    obtain ⟨hspec₂, hbs⟩ := mapM_spec (fun a' ha' => hw a' (List.mem_cons_of_mem a ha')) hspec₁.laid h₃
    exact ⟨hspec₁.bind (hspec₂.bind (Spec.pure hspec₂.laid _)),
      fun T hT hlaid => .cons (hb T (hspec₂.grows.trans hT) hlaid) (hbs T hT hlaid)⟩

variable {S S' : PoolBuilder}

theorem optionalClass_some {name : String} {i : UInt16} (hS : S.Laid 0)
    (h : classRef name S = .ok (i, S')) :
    Spec 0 (classRef name) S i S' ∧
      S'.Resolves fun r => r.pool.optionalClassName i = .ok (some name) := by
  obtain ⟨hspec, hres, hne, -⟩ := classRef_spec hS h
  exact ⟨hspec, fun T hT hlaid => by simp [Pool.optionalClassName, hne, hres T hT hlaid, Except.map]⟩

theorem optionalUtf8_some {text : String} {i : UInt16} (hS : S.Laid 0)
    (h : utf8 text S = .ok (i, S')) :
    Spec 0 (utf8 text) S i S' ∧ S'.Resolves fun r => r.pool.optionalUtf8 i = .ok (some text) := by
  obtain ⟨hspec, hres, hne, -⟩ := utf8_spec hS h
  exact ⟨hspec, fun T hT hlaid => by simp [Pool.optionalUtf8, hne, hres T hT hlaid, Except.map]⟩

end Build

namespace ClassModel

open Build PoolBuilder

variable {c : ClassModel} {S S' : PoolBuilder}

theorem innerEntry_tail {e : InnerClassEntry} {outerStep nameStep : Build UInt16}
    {inner outer name : UInt16} {S₁ S₂ : PoolBuilder} (hspec₁ : Spec 0 (classRef e.name) S inner S₁)
    (hinner : S₁.Resolves fun r => r.pool.className inner = .ok e.name)
    (hspec₂ : Spec 0 outerStep S₁ outer S₂)
    (houter : S₂.Resolves fun r => r.pool.optionalClassName outer = .ok e.outerName)
    (hspec₃ : Spec 0 nameStep S₂ name S')
    (hname : S'.Resolves fun r => r.pool.optionalUtf8 name = .ok e.innerName) :
    Spec 0 (do
      let inner ← classRef e.name
      let outer ← outerStep
      let name ← nameStep
      pure { inner, outer, name, access := e.access : RawInnerClass })
        S { inner, outer, name, access := e.access } S' ∧
      S'.Resolves fun r => InnerReads r { inner, outer, name, access := e.access } e :=
  ⟨hspec₁.bind (hspec₂.bind (hspec₃.bind (Spec.pure hspec₃.laid _))), fun T hT hlaid =>
    ⟨hinner T ((hspec₂.grows.trans hspec₃.grows).trans hT) hlaid,
      houter T (hspec₃.grows.trans hT) hlaid, hname T hT hlaid, rfl⟩⟩

theorem innerEntry_spec {e : InnerClassEntry} {x : RawInnerClass} (hS : S.Laid 0)
    (h : innerEntry e S = .ok (x, S')) :
    Spec 0 (innerEntry e) S x S' ∧ S'.Resolves fun r => InnerReads r x e := by
  unfold innerEntry at h ⊢
  -- an absent outer class or inner name is written as 0
  cases ho : e.outerName <;> cases hi : e.innerName <;> simp only [ho, hi] at h ⊢
  all_goals
    obtain ⟨inner, S₁, h₁, h₂⟩ := bind_eq_ok h
    obtain ⟨outer, S₂, h₃, h₄⟩ := bind_eq_ok h₂
    obtain ⟨name, S₃, h₅, h₆⟩ := bind_eq_ok h₄
    obtain ⟨rfl, rfl⟩ := pure_eq_ok h₆
    obtain ⟨hspec₁, hinner, -, -⟩ := classRef_spec hS h₁
  case none.none =>
    obtain ⟨rfl, rfl⟩ := pure_eq_ok h₃
    obtain ⟨rfl, rfl⟩ := pure_eq_ok h₅
    exact innerEntry_tail hspec₁ hinner (Spec.pure hspec₁.laid _) (fun _ _ _ => by simp [ho, Pool.optionalClassName])
      (Spec.pure hspec₁.laid _) fun _ _ _ => by simp [hi, Pool.optionalUtf8]
  case none.some text =>
    obtain ⟨rfl, rfl⟩ := pure_eq_ok h₃
    obtain ⟨hspec₃, hname⟩ := optionalUtf8_some hspec₁.laid h₅
    exact innerEntry_tail hspec₁ hinner (Spec.pure hspec₁.laid _) (fun _ _ _ => by simp [ho, Pool.optionalClassName])
      hspec₃ (hi ▸ hname)
  case some.none outerName =>
    obtain ⟨hspec₂, houter⟩ := optionalClass_some hspec₁.laid h₃
    obtain ⟨rfl, rfl⟩ := pure_eq_ok h₅
    exact innerEntry_tail hspec₁ hinner hspec₂ (ho ▸ houter) (Spec.pure hspec₂.laid _)
      fun _ _ _ => by simp [hi, Pool.optionalUtf8]
  case some.some outerName text =>
    obtain ⟨hspec₂, houter⟩ := optionalClass_some hspec₁.laid h₃
    obtain ⟨hspec₃, hname⟩ := optionalUtf8_some hspec₂.laid h₅
    exact innerEntry_tail hspec₁ hinner hspec₂ (ho ▸ houter) hspec₃ (hi ▸ hname)

theorem writeNestMembers_spec (hlen : c.nestMembers.length < 65536) {as : List RawAttribute}
    (hS : S.Laid 0)
    (h : (do
      let members ← c.nestMembers.mapM classRef
      let a ← attributeNamed "NestMembers" (Writer.list BigEndian.u16 members)
      pure [a]) S = .ok (as, S')) :
    Spec 0 (do
      let members ← c.nestMembers.mapM classRef
      let a ← attributeNamed "NestMembers" (Writer.list BigEndian.u16 members)
      pure [a]) S as S' ∧
      S'.Resolves fun r => Applies (readStep r) as fun y => ({ y.1 with nestMembers := c.nestMembers }, y.2) := by
  obtain ⟨is, S₁, h₁, h₂⟩ := bind_eq_ok h
  obtain ⟨a, S₂, h₃, h₄⟩ := bind_eq_ok h₂
  obtain ⟨rfl, rfl⟩ := Prod.mk.inj (Except.ok.inj h₄)
  obtain ⟨hspec₁, hcount, hclasses⟩ := classRefs_spec hS h₁
  obtain ⟨hspec₂, hinfo, hname⟩ := attributeNamed_spec hspec₁.laid h₃
  refine ⟨hspec₁.bind (hspec₂.bind (Spec.pure hspec₂.laid _)),
    fun T hT hlaid => Applies.single fun y => readStep_of (hname T hT hlaid) (by decide)
      (fun _ => withAttribute_nestMembers (hname T hT hlaid) hinfo (hcount ▸ hlen)
        (hclasses T (hspec₂.grows.trans hT) hlaid)) y⟩

theorem writeInnerClasses_spec (hlen : c.innerClasses.length < 65536) {as : List RawAttribute}
    (hS : S.Laid 0)
    (h : (do
      let entries ← c.innerClasses.mapM innerEntry
      let a ← attributeNamed "InnerClasses" (Writer.list RawInnerClass.encode entries)
      pure [a]) S = .ok (as, S')) :
    Spec 0 (do
      let entries ← c.innerClasses.mapM innerEntry
      let a ← attributeNamed "InnerClasses" (Writer.list RawInnerClass.encode entries)
      pure [a]) S as S' ∧
      S'.Resolves fun r => Applies (readStep r) as fun y =>
        ({ y.1 with innerClasses := c.innerClasses }, y.2) := by
  obtain ⟨xs, S₁, h₁, h₂⟩ := bind_eq_ok h
  obtain ⟨a, S₂, h₃, h₄⟩ := bind_eq_ok h₂
  obtain ⟨rfl, rfl⟩ := Prod.mk.inj (Except.ok.inj h₄)
  obtain ⟨hspec₁, hentries⟩ := mapM_spec (fun _ _ _ _ _ hS h => innerEntry_spec hS h) hS h₁
  obtain ⟨hspec₂, hinfo, hname⟩ := attributeNamed_spec hspec₁.laid h₃
  refine ⟨hspec₁.bind (hspec₂.bind (Spec.pure hspec₂.laid _)), fun T hT hlaid => ?_⟩
  have hs := hentries T (hspec₂.grows.trans hT) hlaid
  exact Applies.single fun y => readStep_of (hname T hT hlaid) (by decide)
    (fun _ => withAttribute_innerClasses (hname T hT hlaid) hinfo
      (hs.length_eq ▸ hlen) hs.flip) y

end ClassModel

namespace PoolBuilder

theorem Resolves.applies_append {σ : Type} {step : Resolver → σ → RawAttribute → Except FormatError σ}
    {S₁ S₂ : PoolBuilder} {as bs : List RawAttribute} {u v : σ → σ}
    (h₁ : S₁.Resolves fun r => Applies (step r) as u) (hS : S₁.Extends S₂)
    (h₂ : S₂.Resolves fun r => Applies (step r) bs v) :
    S₂.Resolves fun r => Applies (step r) (as ++ bs) (v ∘ u) :=
  fun T hT hlaid => (h₁ T (hS.trans hT) hlaid).append (h₂ T hT hlaid)

end PoolBuilder

namespace Build

open PoolBuilder

variable {σ : Type} {step : Resolver → σ → RawAttribute → Except FormatError σ}
  {S S' : PoolBuilder} {as : List RawAttribute}

theorem present_set_spec {α : Type} {g : α → Build RawAttribute} {o : Option α}
    {v : Option α → σ → σ} (hnone : ∀ y, v none y = y)
    (hg : ∀ a ∈ o, ∀ {S S' : PoolBuilder} {x : RawAttribute}, S.Laid 0 → g a S = .ok (x, S') →
      Spec 0 (g a) S x S' ∧ S'.Resolves fun r => ∀ y, step r y x = .ok (v (some a) y))
    (hS : S.Laid 0) (h : present g o S = .ok (as, S')) :
    Spec 0 (present g o) S as S' ∧ S'.Resolves fun r => Applies (step r) as (v o) := by
  obtain ⟨hspec, happ⟩ := present_spec hg hS h
  refine ⟨hspec, fun T hT hlaid y => ?_⟩
  rw [happ T hT hlaid y]
  cases o <;> simp [hnone]

theorem unless_set_spec {b : Bool} {w : Build (List RawAttribute)} {v : Bool → σ → σ}
    (htrue : ∀ y, v true y = y)
    (hw : b = false → ∀ {S S' : PoolBuilder} {as : List RawAttribute}, S.Laid 0 →
      w S = .ok (as, S') → Spec 0 w S as S' ∧ S'.Resolves fun r => Applies (step r) as (v false))
    (hS : S.Laid 0) (h : (if b then pure [] else w) S = .ok (as, S')) :
    Spec 0 (if b then pure [] else w) S as S' ∧ S'.Resolves fun r => Applies (step r) as (v b) := by
  obtain ⟨hspec, happ⟩ := unless_spec hw hS h
  refine ⟨hspec, fun T hT hlaid y => ?_⟩
  rw [happ T hT hlaid y]
  cases b <;> simp [htrue]

end Build

namespace ClassModel

open Build PoolBuilder

variable {c : ClassModel} {S S' : PoolBuilder}

-- the class attributes but the table add entries to the pool only

theorem keeps_enclosing (outer : String) (t : List BootstrapEntry) :
    Keeps (·.bootstrap = t) (c.enclosing outer) := by
  unfold enclosing
  refine (keeps_classRef _ t).bind fun _ => ?_
  dsimp only
  split
  · exact (keeps_nameAndType _ _ t).bind fun _ => keeps_attributeNamed _ _ t
  · exact (Keeps.pure _).bind fun _ => keeps_attributeNamed _ _ t

theorem keeps_innerEntry (e : InnerClassEntry) (t : List BootstrapEntry) :
    Keeps (·.bootstrap = t) (innerEntry e) := by
  unfold innerEntry
  refine (keeps_classRef _ t).bind fun _ => ?_
  -- an absent outer class or inner name is written as 0
  cases e.outerName <;> cases e.innerName <;> simp only
  case none.none => exact (Keeps.pure _).bind fun _ => (Keeps.pure _).bind fun _ => .pure _
  case none.some => exact (Keeps.pure _).bind fun _ => (keeps_utf8 _ t).bind fun _ => .pure _
  case some.none => exact (keeps_classRef _ t).bind fun _ => (Keeps.pure _).bind fun _ => .pure _
  case some.some => exact (keeps_classRef _ t).bind fun _ => (keeps_utf8 _ t).bind fun _ => .pure _

theorem ite_bind {α β : Type} {b : Prop} [Decidable b] (x y : Build α) (f : α → Build β) :
    (if b then x else y) >>= f = if b then x >>= f else y >>= f := by
  split <;> rfl

theorem attributes_eq (c : ClassModel) : c.attributes = (do
    let sourceFile ← present (fun s => do
      let index ← utf8 s
      indexAttribute "SourceFile" index) c.sourceFile
    let sourceDebug ← present (fun s =>
      attributeNamed "SourceDebugExtension" (ModifiedUtf8.encode (JavaString.ofString s)))
      c.sourceDebug
    let signature ← present Build.signature c.signature
    let enclosing ← present c.enclosing c.outerClass
    let nestHost ← present (fun s => do
      let index ← classRef s
      indexAttribute "NestHost" index) c.nestHost
    let nestMembers ← (if c.nestMembers.isEmpty then pure [] else do
      let members ← c.nestMembers.mapM classRef
      let a ← attributeNamed "NestMembers" (Writer.list BigEndian.u16 members)
      pure [a] : Build (List RawAttribute))
    let innerClasses ← (if c.innerClasses.isEmpty then pure [] else do
      let entries ← c.innerClasses.mapM innerEntry
      let a ← attributeNamed "InnerClasses" (Writer.list RawInnerClass.encode entries)
      pure [a] : Build (List RawAttribute))
    let builder ← get
    let bootstrap ← (if builder.bootstrap.isEmpty then pure [] else do
      let a ← attributeNamed "BootstrapMethods"
        (Writer.list BootstrapEntry.encode builder.bootstrap)
      pure [a] : Build (List RawAttribute))
    pure (sourceFile ++ sourceDebug ++ signature ++ enclosing ++ nestHost ++ nestMembers ++
      innerClasses ++ bootstrap)) := by
  unfold attributes
  simp only [ite_bind, bind_assoc, pure_bind]

theorem keeps_attributes (t : List BootstrapEntry) : Keeps (·.bootstrap = t) c.attributes := by
  rw [attributes_eq]
  exact (keeps_present fun _ _ => (keeps_utf8 _ t).bind fun _ => keeps_attributeNamed _ _ t).bind
    fun _ => (keeps_present fun _ _ => keeps_attributeNamed _ _ t).bind
    fun _ => (keeps_present fun _ _ => keeps_signature _ t).bind
    fun _ => (keeps_present fun _ _ => keeps_enclosing _ t).bind
    fun _ => (keeps_present fun _ _ => (keeps_classRef _ t).bind
      fun _ => keeps_attributeNamed _ _ t).bind
    fun _ => (Keeps.ite (fun _ => .pure _) fun _ => (Keeps.mapM fun _ _ => keeps_classRef _ t).bind
      fun _ => (keeps_attributeNamed _ _ t).bind fun _ => .pure _).bind
    fun _ => (Keeps.ite (fun _ => .pure _) fun _ =>
      (Keeps.mapM fun _ _ => keeps_innerEntry _ t).bind
      fun _ => (keeps_attributeNamed _ _ t).bind fun _ => .pure _).bind
    fun _ => Keeps.get.bind fun _ => (Keeps.ite (fun _ => .pure _) fun _ =>
      (keeps_attributeNamed _ _ t).bind fun _ => .pure _).bind fun _ => .pure _

theorem writeBootstrap_spec {table : List BootstrapEntry} (hlen : table.length < 65536)
    (hargs : ∀ b ∈ table, b.arguments.length < 65536) {as : List RawAttribute} (hS : S.Laid 0)
    (h : (do
      let a ← attributeNamed "BootstrapMethods" (Writer.list BootstrapEntry.encode table)
      pure [a]) S = .ok (as, S')) :
    Spec 0 (do
      let a ← attributeNamed "BootstrapMethods" (Writer.list BootstrapEntry.encode table)
      pure [a]) S as S' ∧
      S'.Resolves fun r => Applies (readStep r) as fun y => (y.1, table) := by
  obtain ⟨a, S₁, h₁, h₂⟩ := bind_eq_ok h
  obtain ⟨rfl, rfl⟩ := pure_eq_ok h₂
  obtain ⟨hspec, hinfo, hname⟩ := attributeNamed_spec hS h₁
  exact ⟨hspec.bind (Spec.pure hspec.laid _), fun T hT hlaid =>
    Applies.single (readStep_bootstrap (hname T hT hlaid) hinfo hlen hargs)⟩

theorem attributes_spec (hnest : c.nestMembers.length < 65536)
    (hinner : c.innerClasses.length < 65536) {as : List RawAttribute} (hS : S.Laid 0)
    (hargs : S.ArgumentsFit) (h : c.attributes S = .ok (as, S')) :
    S'.Laid 0 ∧ S.Extends S' ∧ S'.Resolves fun r => ∀ g : ClassModel,
      as.foldlM (readStep r) ({ g with
        signature := none, sourceFile := none, sourceDebug := none, outerClass := none,
        outerMethod := none, outerMethodDescriptor := none, nestHost := none, nestMembers := [],
        innerClasses := [] }, []) =
      .ok ({ g with
        signature := c.signature, sourceFile := c.sourceFile, sourceDebug := c.sourceDebug,
        outerClass := c.outerClass,
        outerMethod := c.outerClass.bind fun _ => c.enclosingMethod.map Prod.fst,
        outerMethodDescriptor := c.outerClass.bind fun _ => c.enclosingMethod.map Prod.snd,
        nestHost := c.nestHost, nestMembers := c.nestMembers, innerClasses := c.innerClasses },
        S'.bootstrap) := by
  have htable : S'.bootstrap = S.bootstrap := keeps_attributes S.bootstrap S as S' rfl h
  rw [attributes_eq] at h
  obtain ⟨as₁, S₁, h₁, h₂⟩ := bind_eq_ok h
  obtain ⟨as₂, S₂, h₃, h₄⟩ := bind_eq_ok h₂
  obtain ⟨as₃, S₃, h₅, h₆⟩ := bind_eq_ok h₄
  obtain ⟨as₄, S₄, h₇, h₈⟩ := bind_eq_ok h₆
  obtain ⟨as₅, S₅, h₉, h₁₀⟩ := bind_eq_ok h₈
  obtain ⟨as₆, S₆, h₁₁, h₁₂⟩ := bind_eq_ok h₁₀
  obtain ⟨as₇, S₇, h₁₃, h₁₄⟩ := bind_eq_ok h₁₂
  obtain ⟨s, S₇', h₁₅, h₁₆⟩ := bind_eq_ok h₁₄
  obtain ⟨rfl, rfl⟩ := Prod.mk.inj (Except.ok.inj h₁₅)
  obtain ⟨as₈, S₈, h₁₇, h₁₈⟩ := bind_eq_ok h₁₆
  obtain ⟨rfl, rfl⟩ := pure_eq_ok h₁₈
  -- each piece sets its part of the class by a field update, so that the pieces compose
  obtain ⟨hspec₁, happ₁⟩ := present_set_spec
    (v := fun o (y : ClassModel × List BootstrapEntry) =>
      ({ y.1 with sourceFile := o.or y.1.sourceFile }, y.2)) (fun _ => rfl)
    (fun _ _ _ _ _ hS h => writeSourceFile_spec hS h) hS h₁
  obtain ⟨hspec₂, happ₂⟩ := present_set_spec
    (v := fun o (y : ClassModel × List BootstrapEntry) =>
      ({ y.1 with sourceDebug := o.or y.1.sourceDebug }, y.2)) (fun _ => rfl)
    (fun _ _ _ _ _ hS h => writeSourceDebug_spec hS h) hspec₁.laid h₃
  obtain ⟨hspec₃, happ₃⟩ := present_set_spec
    (v := fun o (y : ClassModel × List BootstrapEntry) =>
      ({ y.1 with signature := o.or y.1.signature }, y.2)) (fun _ => rfl)
    (fun _ _ _ _ _ hS h => writeSignature_spec hS h) hspec₂.laid h₅
  obtain ⟨hspec₄, happ₄⟩ := present_set_spec
    (v := fun o (y : ClassModel × List BootstrapEntry) => ({ y.1 with
      outerClass := o.or y.1.outerClass,
      outerMethod := (o.bind fun _ => c.enclosingMethod.map Prod.fst).or y.1.outerMethod,
      outerMethodDescriptor :=
        (o.bind fun _ => c.enclosingMethod.map Prod.snd).or y.1.outerMethodDescriptor }, y.2))
    (fun _ => rfl) (fun _ _ _ _ _ hS h => enclosing_spec hS h) hspec₃.laid h₇
  obtain ⟨hspec₅, happ₅⟩ := present_set_spec
    (v := fun o (y : ClassModel × List BootstrapEntry) =>
      ({ y.1 with nestHost := o.or y.1.nestHost }, y.2)) (fun _ => rfl)
    (fun _ _ _ _ _ hS h => writeNestHost_spec hS h) hspec₄.laid h₉
  obtain ⟨hspec₆, happ₆⟩ := unless_set_spec
    (v := fun b (y : ClassModel × List BootstrapEntry) =>
      ({ y.1 with nestMembers := if b then y.1.nestMembers else c.nestMembers }, y.2))
    (fun _ => rfl) (fun _ _ _ _ hS h => writeNestMembers_spec hnest hS h) hspec₅.laid h₁₁
  obtain ⟨hspec₇, happ₇⟩ := unless_set_spec
    (v := fun b (y : ClassModel × List BootstrapEntry) =>
      ({ y.1 with innerClasses := if b then y.1.innerClasses else c.innerClasses }, y.2))
    (fun _ => rfl) (fun _ _ _ _ hS h => writeInnerClasses_spec hinner hS h) hspec₆.laid h₁₃
  -- the members and the attributes before the table add no method to it
  have hkept : S'.bootstrap = S₇.bootstrap :=
    (Keeps.ite (fun _ => .pure _) fun _ => (keeps_attributeNamed _ _ _).bind fun _ => .pure _)
      S₇ as₈ S' rfl h₁₇
  have hfit : S₇.ArgumentsFit := fun b hb => hargs b (htable ▸ hkept ▸ hb)
  have hcount : S₇.bootstrap.length < 65536 := by
    have := hspec₇.laid.count
    have := hspec₇.laid.length_lt
    omega
  obtain ⟨hspec₈, happ₈⟩ := unless_set_spec
    (v := fun b (y : ClassModel × List BootstrapEntry) => (y.1, if b then y.2 else S₇.bootstrap))
    (fun _ => rfl)
    (fun _ _ _ _ hS h => writeBootstrap_spec hcount hfit hS h) hspec₇.laid h₁₇
  have happ := Resolves.applies_append (Resolves.applies_append (Resolves.applies_append
    (Resolves.applies_append (Resolves.applies_append (Resolves.applies_append
    (Resolves.applies_append happ₁ hspec₂.grows happ₂) hspec₃.grows happ₃) hspec₄.grows happ₄)
    hspec₅.grows happ₅) hspec₆.grows happ₆) hspec₇.grows happ₇) hspec₈.grows happ₈
  refine ⟨hspec₈.laid, hspec₁.grows.trans (hspec₂.grows.trans (hspec₃.grows.trans
    (hspec₄.grows.trans (hspec₅.grows.trans (hspec₆.grows.trans (hspec₇.grows.trans
    hspec₈.grows)))))), fun T hT hlaid g => ?_⟩
  rw [happ T hT hlaid, hkept]
  simp [Option.or_none]

end ClassModel

theorem exists_mapM_of_forall₂ {ε α β γ : Type} {f : β → Except ε γ} {R : α → γ → Prop}
    {as : List α} {bs : List β} (h : List.Forall₂ (fun a b => ∃ y, f b = .ok y ∧ R a y) as bs) :
    ∃ ys, bs.mapM f = .ok ys ∧ List.Forall₂ R as ys := by
  induction h with
  | nil => exact ⟨[], rfl, .nil⟩
  | cons hab _ ih =>
    obtain ⟨y, hy, hR⟩ := hab
    obtain ⟨ys, hys, hRs⟩ := ih
    exact ⟨y :: ys, by simp [hy, hys], .cons hR hRs⟩

namespace ClassModel

open Build PoolBuilder

variable {c : ClassModel} {options : ReadOptions} {S S' : PoolBuilder}

theorem toRaw_eq (c : ClassModel) : c.toRaw = (do
    let (raw, builder) ← (do
      let this ← classRef c.name
      let super ← (c.superName.elim (pure 0) classRef : Build UInt16)
      let interfaces ← c.interfaces.mapM classRef
      let fields ← c.fields.mapM FieldModel.write
      let methods ← c.methods.mapM MethodModel.write
      let attributes ← c.attributes
      pure { version := c.version, pool := {}, access := c.access, this, super, interfaces, fields,
             methods, attributes } : Build RawClass).run {}
    pure { raw with pool := builder.pool }) := by
  unfold toRaw
  cases c.superName <;> rfl

theorem superRef_spec {o : Option String} {i : UInt16} (hS : S.Laid 0)
    (h : (o.elim (pure 0) classRef : Build UInt16) S = .ok (i, S')) :
    Spec 0 (o.elim (pure 0) classRef : Build UInt16) S i S' ∧
      S'.Resolves fun r => r.pool.optionalClassName i = .ok o := by
  cases o with
  | none =>
    obtain ⟨rfl, rfl⟩ := pure_eq_ok h
    exact ⟨Spec.pure hS _, fun _ _ _ => by simp [Pool.optionalClassName]⟩
  | some name => exact optionalClass_some hS h

theorem keeps_superRef (o : Option String) :
    Keeps ArgumentsFit (o.elim (pure 0) classRef : Build UInt16) := by
  cases o with
  | none => exact .pure _
  | some name => exact Keeps.argumentsFit (keeps_classRef name)

theorem fields_spec (hf : ∀ f ∈ c.fields, ∀ k ∈ f.value, k.Resolvable Resolver.maxDynamicDepth)
    {raws : List RawMember} (hS : S.Laid 0) (h : c.fields.mapM FieldModel.write S = .ok (raws, S')) :
    Spec 0 (c.fields.mapM FieldModel.write) S raws S' ∧
      S'.Resolves fun r => raws.mapM (FieldModel.read r) = .ok c.fields := by
  obtain ⟨hspec, hread⟩ := mapM_spec (Q := fun r f m => FieldModel.read r m = .ok f)
    (fun f hf' _ _ _ hS h => FieldModel.write_spec (hf f hf') hS h) hS h
  exact ⟨hspec, fun T hT hlaid => mapM_eq_ok_of_forall₂ (hread T hT hlaid).flip⟩

theorem methods_spec
    (hm : ∀ m ∈ c.methods, (m.instructions ≠ [] → m.BodyDecodes options fun _ _ => True) ∧
      m.exceptions.length < 65536 ∧ ∀ v ∈ m.annotationDefault, v.Fits)
    {raws : List RawMember} (hS : S.Laid 0)
    (h : c.methods.mapM MethodModel.write S = .ok (raws, S')) :
    Spec 0 (c.methods.mapM MethodModel.write) S raws S' ∧
      ((∀ x ∈ raws, ∀ a ∈ x.attributes, a.Fits) → S'.Resolves fun r => ∃ ms,
        raws.mapM (MethodModel.read r options) = .ok ms ∧
        List.Forall₂ MethodModel.SameOutsideBody c.methods ms) := by
  obtain ⟨hspec, hread⟩ := mapM_spec (Q := fun r m x => (∀ a ∈ x.attributes, a.Fits) →
      ∃ d, MethodModel.read r options x = .ok (m.asRead d))
    (fun m hm' _ _ _ hS h => by
      obtain ⟨hbody, hexceptions, hdefault⟩ := hm m hm'
      obtain ⟨hspec, hres⟩ := MethodModel.write_reads_back hbody hexceptions hdefault hS h
      exact ⟨hspec, fun T hT hlaid ha => (hres ha T hT hlaid).imp fun _ hd => hd.2⟩) hS h
  refine ⟨hspec, fun hfits T hT hlaid => exists_mapM_of_forall₂ ?_⟩
  -- every written member's attributes fit, so each reads back as its method outside the body
  have hboth := (List.forall₂_and_left _ _).mpr ⟨hfits, (hread T hT hlaid).flip⟩
  refine (hboth.imp fun x m hx => ?_).flip
  obtain ⟨d, hd⟩ := hx.2 hx.1
  exact ⟨_, hd, MethodModel.sameOutsideBody_asRead m d⟩

/-- Two classes agree outside their method bodies: in all that the first holds, with the enclosing
method kept only with an enclosing class and when both its name and its descriptor are known, in
their fields, and in methods that agree outside their bodies. -/
structure SameOutsideBodies (c c' : ClassModel) : Prop where
  name : c'.name = c.name
  access : c'.access = c.access
  version : c'.version = c.version
  superName : c'.superName = c.superName
  interfaces : c'.interfaces = c.interfaces
  signature : c'.signature = c.signature
  sourceFile : c'.sourceFile = c.sourceFile
  sourceDebug : c'.sourceDebug = c.sourceDebug
  outerClass : c'.outerClass = c.outerClass
  outerMethod : c'.outerMethod = c.outerClass.bind fun _ => c.enclosingMethod.map Prod.fst
  outerMethodDescriptor :
    c'.outerMethodDescriptor = c.outerClass.bind fun _ => c.enclosingMethod.map Prod.snd
  nestHost : c'.nestHost = c.nestHost
  nestMembers : c'.nestMembers = c.nestMembers
  innerClasses : c'.innerClasses = c.innerClasses
  fields : c'.fields = c.fields
  methods : List.Forall₂ MethodModel.SameOutsideBody c.methods c'.methods

/-- What a class needs outside its method bodies, beyond the lengths and counts of its stored
form, to be read back as written: the lists the writer stores inside attributes fit their 16-bit
counts, the constants of its fields resolve, and no constant or instruction calls a bootstrap
method with more than 65535 arguments. -/
structure MembersFit (c : ClassModel) : Prop where
  nestMembers : c.nestMembers.length < 65536
  innerClasses : c.innerClasses.length < 65536
  constants : ∀ f ∈ c.fields, ∀ k ∈ f.value, k.Resolvable Resolver.maxDynamicDepth ∧ k.CallsFit
  calls : ∀ m ∈ c.methods, ∀ i ∈ m.instructions, i.CallsFit
  exceptions : ∀ m ∈ c.methods, m.exceptions.length < 65536
  defaults : ∀ m ∈ c.methods, ∀ v ∈ m.annotationDefault, v.Fits

theorem parse_encode_toRaw_of_bodies (hc : c.MembersFit)
    (hbodies : ∀ m ∈ c.methods, m.instructions ≠ [] → m.BodyDecodes options fun _ _ => True)
    {raw : RawClass} (h : c.toRaw = .ok raw) (hfits : raw.Fits) :
    ∃ c', parse raw.encode options = .ok c' ∧ c.SameOutsideBodies c' := by
  rw [toRaw_eq] at h
  obtain ⟨⟨raw₀, S⟩, hbuild, hraw⟩ := Except.bind_eq_ok_iff.mp h
  obtain rfl : raw = { raw₀ with pool := S.pool } := (Except.ok.inj hraw).symm
  obtain ⟨this, S₁, h₁, h₂⟩ := bind_eq_ok hbuild
  obtain ⟨super, S₂, h₃, h₄⟩ := bind_eq_ok h₂
  obtain ⟨interfaces, S₃, h₅, h₆⟩ := bind_eq_ok h₄
  obtain ⟨fields, S₄, h₇, h₈⟩ := bind_eq_ok h₆
  obtain ⟨methods, S₅, h₉, h₁₀⟩ := bind_eq_ok h₈
  obtain ⟨attributes, S₆, h₁₁, h₁₂⟩ := bind_eq_ok h₁₀
  obtain ⟨rfl, rfl⟩ := pure_eq_ok h₁₂
  obtain ⟨hspec₁, hthis, -, -⟩ := classRef_spec laid_empty h₁
  obtain ⟨hspec₂, hsuper⟩ := superRef_spec hspec₁.laid h₃
  obtain ⟨hspec₃, -, hinterfaces⟩ := classRefs_spec hspec₂.laid h₅
  obtain ⟨hspec₄, hfields⟩ :=
    fields_spec (fun f hf k hk => (hc.constants f hf k hk).1) hspec₃.laid h₇
  obtain ⟨hspec₅, hmethods⟩ := methods_spec
    (fun m hm => ⟨hbodies m hm, hc.exceptions m hm, hc.defaults m hm⟩) hspec₄.laid h₉
  -- the members add to the table only methods whose arguments fit their count
  have hargs : S₅.ArgumentsFit := by
    refine Keeps.mapM (fun m hm => MethodModel.keeps_write (hc.calls m hm)) S₄ methods S₅ ?_ h₉
    refine Keeps.mapM (fun f hf => FieldModel.keeps_write fun k hk => (hc.constants f hf k hk).2)
      S₃ fields S₄ ?_ h₇
    refine Keeps.mapM (fun _ _ => Keeps.argumentsFit (keeps_classRef _)) S₂ interfaces S₃ ?_ h₅
    refine keeps_superRef c.superName S₁ super S₂ ?_ h₃
    exact Keeps.argumentsFit (keeps_classRef _) {} this S₁ nofun h₁
  obtain ⟨hlaid, hgrows, hattributes⟩ :=
    attributes_spec hc.nestMembers hc.innerClasses hspec₅.laid hargs h₁₁
  -- everything written reads back in the pool and table the class ends with
  have e₄ := hspec₅.grows.trans hgrows
  have e₃ := hspec₄.grows.trans e₄
  have e₂ := hspec₃.grows.trans e₃
  have e₁ := hspec₂.grows.trans e₂
  obtain ⟨ms, hms, hsame⟩ :=
    hmethods (fun x hx => (hfits.methods.2 x hx).2) _ hgrows hlaid
  obtain ⟨hfold, htable⟩ :=
    foldlM_readStep (hattributes _ (Extends.refl _) hlaid { c with methods := ms })
  have hread := (RawClass.reads_read _ hfits).run_eq
  refine ⟨{ c with
    outerMethod := c.outerClass.bind fun _ => c.enclosingMethod.map Prod.fst,
    outerMethodDescriptor := c.outerClass.bind fun _ => c.enclosingMethod.map Prod.snd,
    methods := ms }, ?_,
    ⟨rfl, rfl, rfl, rfl, rfl, rfl, rfl, rfl, rfl, rfl, rfl, rfl, rfl, rfl, rfl, hsame⟩⟩
  have hname : S.pool.className this = .ok c.name := hthis _ e₁ hlaid
  have hsup : S.pool.optionalClassName super = .ok c.superName := hsuper _ e₂ hlaid
  have hifs : interfaces.mapM S.pool.className = .ok c.interfaces := hinterfaces _ e₃ hlaid
  simp only [parse, hread, Except.ok_bind, ofRaw, bootstrapTable_eq, htable, hname, hsup, hifs,
    hfields _ e₄ hlaid, hms]
  exact hfold

end ClassModel

end ClassPatch
