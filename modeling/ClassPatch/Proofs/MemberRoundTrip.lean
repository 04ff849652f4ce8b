import Mathlib
import ClassPatch.Proofs.InstructionCodec
import ClassPatch.Model.Write

namespace ClassPatch

open Build PoolBuilder Reader

def Applies {σ : Type} (step : σ → RawAttribute → Except FormatError σ) (as : List RawAttribute)
    (u : σ → σ) : Prop :=
  ∀ x, as.foldlM step x = .ok (u x)

namespace Applies

variable {σ : Type} {step : σ → RawAttribute → Except FormatError σ} {as bs : List RawAttribute}
  {u v : σ → σ}

theorem nil : Applies step [] id := fun _ => rfl

theorem single {a : RawAttribute} (h : ∀ x, step x a = .ok (u x)) : Applies step [a] u := by
  intro x
  simp [h]

theorem append (h₁ : Applies step as u) (h₂ : Applies step bs v) :
    Applies step (as ++ bs) (v ∘ u) := by
  intro x
  rw [List.foldlM_append, h₁ x]
  exact h₂ (u x)

end Applies

theorem RawAttribute.decode_index (name index : UInt16) :
    RawAttribute.decode ⟨name, BigEndian.u16 index⟩ readIndex = .ok index :=
  decode_of_reads (reads_u16 index)

namespace Build

variable {S S' : PoolBuilder}

theorem attributeNamed_spec {name : String} {info : List UInt8} {a : RawAttribute}
    (hS : S.Laid 0) (h : attributeNamed name info S = .ok (a, S')) :
    Spec 0 (attributeNamed name info) S a S' ∧ a.info = info ∧
      S'.Resolves (fun r => r.pool.utf8 a.name = .ok name) := by
  obtain ⟨n, S₁, h₁, h₂⟩ := bind_eq_ok h
  obtain ⟨rfl, rfl⟩ := Prod.mk.inj (Except.ok.inj h₂)
  obtain ⟨hspec, hname, -, -⟩ := utf8_spec hS h₁
  exact ⟨hspec.bind (Spec.pure hspec.laid _), rfl, hname⟩

theorem present_spec {α σ : Type} {g : α → Build RawAttribute} {o : Option α}
    {step : Resolver → σ → RawAttribute → Except FormatError σ} {u : α → σ → σ}
    (hg : ∀ a ∈ o, ∀ {S S' : PoolBuilder} {x : RawAttribute}, S.Laid 0 → g a S = .ok (x, S') →
      Spec 0 (g a) S x S' ∧ S'.Resolves fun r => ∀ y, step r y x = .ok (u a y))
    {as : List RawAttribute} (hS : S.Laid 0) (h : present g o S = .ok (as, S')) :
    Spec 0 (present g o) S as S' ∧
      S'.Resolves fun r => Applies (step r) as fun y => (o.map (u · y)).getD y := by
  cases o with
  | none =>
    obtain ⟨rfl, rfl⟩ := Prod.mk.inj (Except.ok.inj h)
    exact ⟨Spec.pure hS _, fun _ _ _ => Applies.nil⟩
  | some a =>
    obtain ⟨x, S₁, h₁, h₂⟩ := bind_eq_ok h
    obtain ⟨rfl, rfl⟩ := Prod.mk.inj (Except.ok.inj h₂)
    obtain ⟨hspec, happ⟩ := hg a rfl hS h₁
    exact ⟨hspec.bind (Spec.pure hspec.laid _), fun T hT hlaid => Applies.single (happ T hT hlaid)⟩

theorem indexAttribute_spec {name : String} {index : UInt16} {a : RawAttribute}
    (hS : S.Laid 0) (h : indexAttribute name index S = .ok (a, S')) :
    Spec 0 (indexAttribute name index) S a S' ∧ a.info = BigEndian.u16 index ∧
      S'.Resolves (fun r => r.pool.utf8 a.name = .ok name) :=
  attributeNamed_spec hS h

theorem signature_spec {text : String} {a : RawAttribute} (hS : S.Laid 0)
    (h : signature text S = .ok (a, S')) :
    Spec 0 (signature text) S a S' ∧ ∃ i, a.info = BigEndian.u16 i ∧
      S'.Resolves fun r => r.pool.utf8 a.name = .ok "Signature" ∧ r.pool.utf8 i = .ok text := by
  obtain ⟨i, S₁, h₁, h₂⟩ := bind_eq_ok h
  obtain ⟨hspec₁, htext, -, -⟩ := utf8_spec hS h₁
  obtain ⟨hspec₂, hinfo, hname⟩ := indexAttribute_spec hspec₁.laid h₂
  exact ⟨hspec₁.bind hspec₂, i, hinfo, hname.and (htext.mono hspec₂.grows)⟩

end Build

namespace FieldModel

variable {r : Resolver} {f : FieldModel} {a : RawAttribute}

theorem withAttribute_signature {i : UInt16} {s : String}
    (hname : r.pool.utf8 a.name = .ok "Signature") (hinfo : a.info = BigEndian.u16 i)
    (hs : r.pool.utf8 i = .ok s) : withAttribute r f a = .ok { f with signature := some s } := by
  obtain ⟨n, info⟩ := a
  subst hinfo
  simp [withAttribute, hname, RawAttribute.decode_index, hs]

theorem withAttribute_constantValue {i : UInt16} {c : Constant}
    (hname : r.pool.utf8 a.name = .ok "ConstantValue") (hinfo : a.info = BigEndian.u16 i)
    (hc : r.loadable i = .ok c) : withAttribute r f a = .ok { f with value := some c } := by
  obtain ⟨n, info⟩ := a
  subst hinfo
  simp [withAttribute, hname, RawAttribute.decode_index, hc]

variable {S S' : PoolBuilder}

theorem writeSignature_spec {s : String} {x : RawAttribute} (hS : S.Laid 0)
    (h : Build.signature s S = .ok (x, S')) :
    Spec 0 (Build.signature s) S x S' ∧
      S'.Resolves fun r => ∀ g, withAttribute r g x = .ok { g with signature := some s } := by
  obtain ⟨hspec, i, hinfo, hres⟩ := signature_spec hS h
  refine ⟨hspec, fun T hT hlaid g => ?_⟩
  obtain ⟨hname, htext⟩ := hres T hT hlaid
  exact withAttribute_signature hname hinfo htext

theorem writeValue_spec {c : Constant} (hc : c.Resolvable Resolver.maxDynamicDepth)
    {x : RawAttribute} (hS : S.Laid 0)
    (h : (do let index ← constant c; indexAttribute "ConstantValue" index) S = .ok (x, S')) :
    Spec 0 (do let index ← constant c; indexAttribute "ConstantValue" index) S x S' ∧
      S'.Resolves fun r => ∀ g, withAttribute r g x = .ok { g with value := some c } := by
  obtain ⟨i, S₁, h₁, h₂⟩ := bind_eq_ok h
  obtain ⟨hspec₁, hconst⟩ := constant_spec c _ hc hS h₁
  obtain ⟨hspec₂, hinfo, hname⟩ := indexAttribute_spec hspec₁.laid h₂
  refine ⟨hspec₁.bind hspec₂, fun T hT hlaid g => ?_⟩
  exact withAttribute_constantValue (hname T hT hlaid) hinfo
    (hconst T (hspec₂.grows.trans hT) hlaid)

theorem write_spec (hf : ∀ c ∈ f.value, c.Resolvable Resolver.maxDynamicDepth) {m : RawMember}
    (hS : S.Laid 0) (h : f.write S = .ok (m, S')) :
    Spec 0 f.write S m S' ∧ S'.Resolves (fun r => read r m = .ok f) := by
  obtain ⟨n, S₁, h₁, h₂⟩ := bind_eq_ok h
  obtain ⟨d, S₂, h₃, h₄⟩ := bind_eq_ok h₂
  obtain ⟨vs, S₃, h₅, h₆⟩ := bind_eq_ok h₄
  obtain ⟨ss, S₄, h₇, h₈⟩ := bind_eq_ok h₆
  obtain ⟨rfl, rfl⟩ := Prod.mk.inj (Except.ok.inj h₈)
  obtain ⟨hspec₁, hname, -, -⟩ := utf8_spec hS h₁
  obtain ⟨hspec₂, hdesc, -, -⟩ := utf8_spec hspec₁.laid h₃
  obtain ⟨hspec₃, happ₃⟩ :=
    present_spec (fun c hc _ _ _ hS h => writeValue_spec (hf c hc) hS h) hspec₂.laid h₅
  obtain ⟨hspec₄, happ₄⟩ :=
    present_spec (fun _ _ _ _ _ hS h => writeSignature_spec hS h) hspec₃.laid h₇
  refine ⟨hspec₁.bind (hspec₂.bind (hspec₃.bind (hspec₄.bind (Spec.pure hspec₄.laid _)))),
    fun T hT hlaid => ?_⟩
  have hn := hname T (((hspec₂.grows.trans hspec₃.grows).trans hspec₄.grows).trans hT) hlaid
  have hd := hdesc T ((hspec₃.grows.trans hspec₄.grows).trans hT) hlaid
  have happ := (happ₃ T (hspec₄.grows.trans hT) hlaid).append (happ₄ T hT hlaid)
  simp only [Applies] at hn hd happ ⊢
  simp only [read, happ, hn, hd]
  -- each present value was set by its attribute, each absent one is the reader's default
  cases f with
  | mk name descriptor access signature value => cases value <;> cases signature <;> rfl

end FieldModel

namespace ElementValue

mutual

/-- Arrays and nested annotations hold fewer than 65536 items each, as their counts need. -/
def Fits : ElementValue → Prop
  | .annotationValue _ elements => elements.length < 65536 ∧ FitsPairs elements
  | .array values => values.length < 65536 ∧ FitsList values
  | _ => True

def FitsPairs : List (String × ElementValue) → Prop
  | [] => True
  | (_, v) :: rest => Fits v ∧ FitsPairs rest

def FitsList : List ElementValue → Prop
  | [] => True
  | v :: rest => Fits v ∧ FitsList rest

end

end ElementValue

namespace Build

variable {S S' : PoolBuilder}

theorem elementEntry_spec {e : PoolEntry} {tag : UInt8} {v : ElementValue} {x : RawElementValue}
    (hb : e.bootstrapIndex? = none) (htag : RawElementValue.isConstantTag tag = true)
    (hread : ∀ (r : Resolver) i, r.pool.get? i = some e → r.elementConstant tag i = .ok v)
    (hS : S.Laid 0) (h : (do let i ← entry e; pure (RawElementValue.constant tag i)) S = .ok (x, S')) :
    Spec 0 (do let i ← entry e; pure (RawElementValue.constant tag i)) S x S' ∧ x.Fits ∧
      S'.Resolves fun r => r.elementValue x = .ok v := by
  obtain ⟨i, S₁, h₁, h₂⟩ := bind_eq_ok h
  obtain ⟨rfl, rfl⟩ := Prod.mk.inj (Except.ok.inj h₂)
  obtain ⟨hspec, hhas, -⟩ := entry_spec' hS (by simp [hb]) h₁
  exact ⟨hspec.bind (Spec.pure hspec.laid _), htag,
    fun T hT hlaid => hread _ i (hlaid.get? (hhas.mono hT))⟩

mutual

theorem elementValue_spec : ∀ (v : ElementValue) {S S' : PoolBuilder} {x : RawElementValue},
    v.Fits → S.Laid 0 → elementValue v S = .ok (x, S') →
    Spec 0 (elementValue v) S x S' ∧ x.Fits ∧ S'.Resolves fun r => r.elementValue x = .ok v
  | .byte _, _, _, _, _, hS, h | .char _, _, _, _, _, hS, h | .short _, _, _, _, _, hS, h
  | .boolean _, _, _, _, _, hS, h | .int _, _, _, _, _, hS, h | .long _, _, _, _, _, hS, h
  | .float _, _, _, _, _, hS, h | .double _, _, _, _, _, hS, h
  | .string _, _, _, _, _, hS, h => by
    -- a constant is one pool entry of the kind its tag names
    rw [elementValue] at h ⊢
    exact elementEntry_spec rfl rfl
      (fun r i hi => by simp [Resolver.elementConstant, Pool.entry, hi]) hS h
  | .enum descriptor name, _, _, _, _, hS, h => by
    rw [elementValue] at h ⊢
    obtain ⟨d, S₁, h₁, h₂⟩ := bind_eq_ok h
    obtain ⟨n, S₂, h₃, h₄⟩ := bind_eq_ok h₂
    obtain ⟨rfl, rfl⟩ := Prod.mk.inj (Except.ok.inj h₄)
    obtain ⟨hspec₁, hd, -, -⟩ := utf8_spec hS h₁
    obtain ⟨hspec₂, hn, -, -⟩ := utf8_spec hspec₁.laid h₃
    refine ⟨hspec₁.bind (hspec₂.bind (Spec.pure hspec₂.laid _)), trivial, fun T hT hlaid => ?_⟩
    have hd' := hd T (hspec₂.grows.trans hT) hlaid
    have hn' := hn T hT hlaid
    simp only at hd' hn'
    simp [Resolver.elementValue, hd', hn']
  | .classLiteral descriptor, _, _, _, _, hS, h => by
    rw [elementValue] at h ⊢
    obtain ⟨d, S₁, h₁, h₂⟩ := bind_eq_ok h
    obtain ⟨rfl, rfl⟩ := Prod.mk.inj (Except.ok.inj h₂)
    obtain ⟨hspec, hd, -, -⟩ := utf8_spec hS h₁
    refine ⟨hspec.bind (Spec.pure hspec.laid _), trivial, fun T hT hlaid => ?_⟩
    have hd' := hd T hT hlaid
    simp only at hd'
    simp [Resolver.elementValue, hd']
  | .annotationValue descriptor elements, _, _, _, ⟨hlen, hpairs⟩, hS, h => by
    rw [elementValue] at h ⊢
    obtain ⟨d, S₁, h₁, h₂⟩ := bind_eq_ok h
    obtain ⟨ps, S₂, h₃, h₄⟩ := bind_eq_ok h₂
    obtain ⟨rfl, rfl⟩ := Prod.mk.inj (Except.ok.inj h₄)
    obtain ⟨hspec₁, hd, -, -⟩ := utf8_spec hS h₁
    obtain ⟨hspec₂, hlen', hfits, hps⟩ := elementPairs_spec elements hpairs hspec₁.laid h₃
    refine ⟨hspec₁.bind (hspec₂.bind (Spec.pure hspec₂.laid _)), ⟨by omega, hfits⟩,
      fun T hT hlaid => ?_⟩
    have hd' := hd T (hspec₂.grows.trans hT) hlaid
    have hps' := hps T hT hlaid
    simp only at hd' hps'
    simp [Resolver.elementValue, hd', hps']
  | .array values, _, _, _, ⟨hlen, hvalues⟩, hS, h => by
    rw [elementValue] at h ⊢
    obtain ⟨vs, S₁, h₁, h₂⟩ := bind_eq_ok h
    obtain ⟨rfl, rfl⟩ := Prod.mk.inj (Except.ok.inj h₂)
    obtain ⟨hspec, hlen', hfits, hvs⟩ := elementValues_spec values hvalues hS h₁
    refine ⟨hspec.bind (Spec.pure hspec.laid _), ⟨by omega, hfits⟩, fun T hT hlaid => ?_⟩
    have hvs' := hvs T hT hlaid
    simp only at hvs'
    simp [Resolver.elementValue, hvs']

theorem elementPairs_spec : ∀ (ps : List (String × ElementValue)) {S S' : PoolBuilder}
    {xs : List (UInt16 × RawElementValue)}, ElementValue.FitsPairs ps → S.Laid 0 →
    elementPairs ps S = .ok (xs, S') →
    Spec 0 (elementPairs ps) S xs S' ∧ xs.length = ps.length ∧ RawElementValue.FitsPairs xs ∧
      S'.Resolves fun r => r.elementPairs xs = .ok ps
  | [], _, _, _, _, hS, h => by
    rw [elementPairs] at h ⊢
    obtain ⟨rfl, rfl⟩ := Prod.mk.inj (Except.ok.inj h)
    exact ⟨Spec.pure hS _, rfl, trivial, fun _ _ _ => by simp [Resolver.elementPairs]⟩
  | (name, v) :: rest, _, _, _, ⟨hv, hrest⟩, hS, h => by
    rw [elementPairs] at h ⊢
    obtain ⟨n, S₁, h₁, h₂⟩ := bind_eq_ok h
    obtain ⟨x, S₂, h₃, h₄⟩ := bind_eq_ok h₂
    obtain ⟨xs, S₃, h₅, h₆⟩ := bind_eq_ok h₄
    obtain ⟨rfl, rfl⟩ := Prod.mk.inj (Except.ok.inj h₆)
    obtain ⟨hspec₁, hn, -, -⟩ := utf8_spec hS h₁
    obtain ⟨hspec₂, hfits, hx⟩ := elementValue_spec v hv hspec₁.laid h₃
    obtain ⟨hspec₃, hlen, hfitss, hxs⟩ := elementPairs_spec rest hrest hspec₂.laid h₅
    refine ⟨hspec₁.bind (hspec₂.bind (hspec₃.bind (Spec.pure hspec₃.laid _))), by simp [hlen],
      ⟨hfits, hfitss⟩, fun T hT hlaid => ?_⟩
    have hn' := hn T ((hspec₂.grows.trans hspec₃.grows).trans hT) hlaid
    have hx' := hx T (hspec₃.grows.trans hT) hlaid
    have hxs' := hxs T hT hlaid
    simp only at hn' hx' hxs'
    simp [Resolver.elementPairs, hn', hx', hxs']

theorem elementValues_spec : ∀ (vs : List ElementValue) {S S' : PoolBuilder}
    {xs : List RawElementValue}, ElementValue.FitsList vs → S.Laid 0 →
    elementValues vs S = .ok (xs, S') →
    Spec 0 (elementValues vs) S xs S' ∧ xs.length = vs.length ∧ RawElementValue.FitsList xs ∧
      S'.Resolves fun r => r.elementValues xs = .ok vs
  | [], _, _, _, _, hS, h => by
    rw [elementValues] at h ⊢
    obtain ⟨rfl, rfl⟩ := Prod.mk.inj (Except.ok.inj h)
    exact ⟨Spec.pure hS _, rfl, trivial, fun _ _ _ => by simp [Resolver.elementValues]⟩
  | v :: rest, _, _, _, ⟨hv, hrest⟩, hS, h => by
    rw [elementValues] at h ⊢
    obtain ⟨x, S₁, h₁, h₂⟩ := bind_eq_ok h
    obtain ⟨xs, S₂, h₃, h₄⟩ := bind_eq_ok h₂
    obtain ⟨rfl, rfl⟩ := Prod.mk.inj (Except.ok.inj h₄)
    obtain ⟨hspec₁, hfits, hx⟩ := elementValue_spec v hv hS h₁
    obtain ⟨hspec₂, hlen, hfitss, hxs⟩ := elementValues_spec rest hrest hspec₁.laid h₃
    refine ⟨hspec₁.bind (hspec₂.bind (Spec.pure hspec₂.laid _)), by simp [hlen],
      ⟨hfits, hfitss⟩, fun T hT hlaid => ?_⟩
    have hx' := hx T (hspec₂.grows.trans hT) hlaid
    have hxs' := hxs T hT hlaid
    simp only at hx' hxs'
    simp [Resolver.elementValues, hx', hxs']

end

end Build

namespace Build

variable {S S' : PoolBuilder}

theorem unless_spec {σ : Type} {b : Bool} {w : Build (List RawAttribute)}
    {step : Resolver → σ → RawAttribute → Except FormatError σ} {u : σ → σ}
    (hw : b = false → ∀ {S S' : PoolBuilder} {as : List RawAttribute}, S.Laid 0 →
      w S = .ok (as, S') → Spec 0 w S as S' ∧ S'.Resolves fun r => Applies (step r) as u)
    {as : List RawAttribute} (hS : S.Laid 0) (h : (if b then pure [] else w) S = .ok (as, S')) :
    Spec 0 (if b then pure [] else w) S as S' ∧
      S'.Resolves fun r => Applies (step r) as (if b then id else u) := by
  cases b with
  | true =>
    simp only [if_true] at h ⊢
    obtain ⟨rfl, rfl⟩ := Prod.mk.inj (Except.ok.inj h)
    exact ⟨Spec.pure hS _, fun _ _ _ => Applies.nil⟩
  | false =>
    simp only [Bool.false_eq_true, if_false] at h ⊢
    exact hw rfl hS h

theorem classRefs_spec : ∀ {names : List String} {S S' : PoolBuilder} {is : List UInt16},
    S.Laid 0 → names.mapM classRef S = .ok (is, S') →
    Spec 0 (names.mapM classRef) S is S' ∧ is.length = names.length ∧
      S'.Resolves fun r => is.mapM r.pool.className = .ok names
  | [], _, _, _, hS, h => by
    rw [List.mapM_nil] at h ⊢
    obtain ⟨rfl, rfl⟩ := Prod.mk.inj (Except.ok.inj h)
    exact ⟨Spec.pure hS [], rfl, fun _ _ _ => rfl⟩
  | name :: names, _, _, _, hS, h => by
    rw [List.mapM_cons] at h ⊢
    obtain ⟨i, S₁, h₁, h₂⟩ := bind_eq_ok h
    obtain ⟨is, S₂, h₃, h₄⟩ := bind_eq_ok h₂
    obtain ⟨rfl, rfl⟩ := Prod.mk.inj (Except.ok.inj h₄)
    obtain ⟨hspec₁, hname, -, -⟩ := classRef_spec hS h₁
    obtain ⟨hspec₂, hlen, hnames⟩ := classRefs_spec hspec₁.laid h₃
    refine ⟨hspec₁.bind (hspec₂.bind (Spec.pure hspec₂.laid _)), by simp [hlen],
      fun T hT hlaid => ?_⟩
    have hname' := hname T (hspec₂.grows.trans hT) hlaid
    have hnames' := hnames T hT hlaid
    simp only at hname' hnames'
    simp [List.mapM_cons, hname', hnames']

end Build

namespace MethodModel

variable {r : Resolver} {options : ReadOptions} {m : MethodModel} {a : RawAttribute}

theorem withAttribute_signature {i : UInt16} {s : String}
    (hname : r.pool.utf8 a.name = .ok "Signature") (hinfo : a.info = BigEndian.u16 i)
    (hs : r.pool.utf8 i = .ok s) :
    withAttribute r options m a = .ok { m with signature := some s } := by
  obtain ⟨n, info⟩ := a
  subst hinfo
  simp [withAttribute, hname, RawAttribute.decode_index, hs]

theorem withAttribute_exceptions {is : List UInt16} {names : List String}
    (hname : r.pool.utf8 a.name = .ok "Exceptions") (hinfo : a.info = Writer.list BigEndian.u16 is)
    (hlen : is.length < 65536) (hs : is.mapM r.pool.className = .ok names) :
    withAttribute r options m a = .ok { m with exceptions := names } := by
  obtain ⟨n, info⟩ := a
  subst hinfo
  have hdecode := @RawAttribute.decode_of_reads _ _ _ n _ (reads_list hlen fun i _ => reads_u16 i)
  simp [withAttribute, hname, hdecode, hs]

theorem withAttribute_annotationDefault {x : RawElementValue} {v : ElementValue}
    (hname : r.pool.utf8 a.name = .ok "AnnotationDefault") (hinfo : a.info = x.encode)
    (hx : x.Fits) (hv : r.elementValue x = .ok v) :
    withAttribute r options m a = .ok { m with annotationDefault := some v } := by
  obtain ⟨n, info⟩ := a
  subst hinfo
  have hdecode := @RawAttribute.decode_of_reads _ _ _ n _
    (RawElementValue.reads_read x (x.encode.length + 1) hx (by omega))
  simp [withAttribute, hname, hdecode, hv]

theorem withAttribute_code {c : CodeAttribute} {body : List (Instruction Label)}
    {handlers : List (Handler Label)} (hname : r.pool.utf8 a.name = .ok "Code")
    (hinfo : a.info = c.encode) (hc : c.Fits) (hbody : c.body r options = .ok (body, handlers)) :
    withAttribute r options m a =
      .ok { m with maxStack := c.maxStack, maxLocals := c.maxLocals, instructions := body,
                   handlers := handlers } := by
  obtain ⟨n, info⟩ := a
  subst hinfo
  have hdecode := @RawAttribute.decode_of_reads _ _ _ n _ (CodeAttribute.reads_read c hc)
  simp [withAttribute, hname, hdecode, hbody]

def BodyReadsBack (options : ReadOptions) (m : MethodModel) : Prop :=
  ∀ {S S' : PoolBuilder} {c : CodeAttribute}, S.Laid 0 → m.code S = .ok (c, S') →
    Spec 0 m.code S c S' ∧ c.Fits ∧
      S'.Resolves fun r => c.body r options = .ok (m.instructions, m.handlers)

variable {S S' : PoolBuilder}

theorem code_limits {c : CodeAttribute} (h : m.code S = .ok (c, S')) :
    c.maxStack = m.maxStack ∧ c.maxLocals = m.maxLocals := by
  obtain ⟨positions, S₁, -, h₁⟩ := bind_eq_ok h
  obtain ⟨⟨offsets, wide⟩, S₂, -, h₂⟩ := bind_eq_ok h₁
  obtain ⟨⟨code, handlers⟩, S₃, -, h₃⟩ := bind_eq_ok h₂
  obtain ⟨⟨lines, frames⟩, S₄, -, h₄⟩ := bind_eq_ok h₃
  obtain ⟨attributes, S₅, -, h₅⟩ := bind_eq_ok h₄
  obtain ⟨rfl, rfl⟩ := Prod.mk.inj (Except.ok.inj h₅)
  exact ⟨rfl, rfl⟩

theorem writeCode_spec (hb : m.BodyReadsBack options) {as : List RawAttribute} (hS : S.Laid 0)
    (h : (do let c ← m.code; let a ← attributeNamed "Code" c.encode; pure [a]) S = .ok (as, S')) :
    Spec 0 (do let c ← m.code; let a ← attributeNamed "Code" c.encode; pure [a]) S as S' ∧
      S'.Resolves fun r => Applies (withAttribute r options) as fun g =>
        { g with maxStack := m.maxStack, maxLocals := m.maxLocals, instructions := m.instructions,
                 handlers := m.handlers } := by
  obtain ⟨c, S₁, h₁, h₂⟩ := bind_eq_ok h
  obtain ⟨a, S₂, h₃, h₄⟩ := bind_eq_ok h₂
  obtain ⟨rfl, rfl⟩ := Prod.mk.inj (Except.ok.inj h₄)
  obtain ⟨hspec₁, hfits, hbody⟩ := hb hS h₁
  obtain ⟨hstack, hlocals⟩ := code_limits h₁
  obtain ⟨hspec₂, hinfo, hname⟩ := attributeNamed_spec hspec₁.laid h₃
  refine ⟨hspec₁.bind (hspec₂.bind (Spec.pure hspec₂.laid _)),
    fun T hT hlaid => Applies.single fun g => ?_⟩
  rw [withAttribute_code (hname T hT hlaid) hinfo hfits (hbody T (hspec₂.grows.trans hT) hlaid),
    hstack, hlocals]

theorem writeExceptions_spec (hlen : m.exceptions.length < 65536) {as : List RawAttribute}
    (hS : S.Laid 0)
    (h : (do
      let classes ← m.exceptions.mapM classRef
      let a ← attributeNamed "Exceptions" (Writer.list BigEndian.u16 classes)
      pure [a]) S = .ok (as, S')) :
    Spec 0 (do
      let classes ← m.exceptions.mapM classRef
      let a ← attributeNamed "Exceptions" (Writer.list BigEndian.u16 classes)
      pure [a]) S as S' ∧
      S'.Resolves fun r => Applies (withAttribute r options) as fun g =>
        { g with exceptions := m.exceptions } := by
  obtain ⟨is, S₁, h₁, h₂⟩ := bind_eq_ok h
  obtain ⟨a, S₂, h₃, h₄⟩ := bind_eq_ok h₂
  obtain ⟨rfl, rfl⟩ := Prod.mk.inj (Except.ok.inj h₄)
  obtain ⟨hspec₁, hcount, hclasses⟩ := classRefs_spec hS h₁
  obtain ⟨hspec₂, hinfo, hname⟩ := attributeNamed_spec hspec₁.laid h₃
  refine ⟨hspec₁.bind (hspec₂.bind (Spec.pure hspec₂.laid _)),
    fun T hT hlaid => Applies.single fun g => ?_⟩
  exact withAttribute_exceptions (hname T hT hlaid) hinfo (hcount ▸ hlen)
    (hclasses T (hspec₂.grows.trans hT) hlaid)

theorem writeSignature_spec {s : String} {x : RawAttribute} (hS : S.Laid 0)
    (h : Build.signature s S = .ok (x, S')) :
    Spec 0 (Build.signature s) S x S' ∧
      S'.Resolves fun r => ∀ g, withAttribute r options g x = .ok { g with signature := some s } := by
  obtain ⟨hspec, i, hinfo, hres⟩ := signature_spec hS h
  refine ⟨hspec, fun T hT hlaid g => ?_⟩
  obtain ⟨hname, htext⟩ := hres T hT hlaid
  exact withAttribute_signature hname hinfo htext

theorem writeDefault_spec {v : ElementValue} (hv : v.Fits) {x : RawAttribute} (hS : S.Laid 0)
    (h : (do let stored ← elementValue v; attributeNamed "AnnotationDefault" stored.encode) S =
      .ok (x, S')) :
    Spec 0 (do let stored ← elementValue v; attributeNamed "AnnotationDefault" stored.encode)
        S x S' ∧
      S'.Resolves fun r => ∀ g, withAttribute r options g x =
        .ok { g with annotationDefault := some v } := by
  obtain ⟨stored, S₁, h₁, h₂⟩ := bind_eq_ok h
  obtain ⟨hspec₁, hfits, hvalue⟩ := elementValue_spec v hv hS h₁
  obtain ⟨hspec₂, hinfo, hname⟩ := attributeNamed_spec hspec₁.laid h₂
  refine ⟨hspec₁.bind hspec₂, fun T hT hlaid g => ?_⟩
  exact withAttribute_annotationDefault (hname T hT hlaid) hinfo hfits
    (hvalue T (hspec₂.grows.trans hT) hlaid)

theorem write_eq (m : MethodModel) : m.write = (do
    let name ← utf8 m.name
    let descriptor ← utf8 m.descriptor
    let code ← (if m.instructions.isEmpty then pure [] else do
      let c ← m.code
      let a ← attributeNamed "Code" c.encode
      pure [a] : Build (List RawAttribute))
    let exceptions ← (if m.exceptions.isEmpty then pure [] else do
      let classes ← m.exceptions.mapM classRef
      let a ← attributeNamed "Exceptions" (Writer.list BigEndian.u16 classes)
      pure [a] : Build (List RawAttribute))
    let signature ← present Build.signature m.signature
    let annotationDefault ← present (fun v => do
      let stored ← elementValue v
      attributeNamed "AnnotationDefault" stored.encode) m.annotationDefault
    pure { access := m.access, name, descriptor,
           attributes := code ++ exceptions ++ signature ++ annotationDefault }) := by
  unfold write
  congr 1; funext name; congr 1; funext descriptor
  split <;> split <;> simp only [bind_assoc, pure_bind]

theorem write_spec (hbody : m.instructions ≠ [] → m.BodyReadsBack options)
    (hempty : m.instructions = [] → m.maxStack = 0 ∧ m.maxLocals = 0 ∧ m.handlers = [])
    (hexceptions : m.exceptions.length < 65536) (hdefault : ∀ v ∈ m.annotationDefault, v.Fits)
    {raw : RawMember} (hS : S.Laid 0) (h : m.write S = .ok (raw, S')) :
    Spec 0 m.write S raw S' ∧ S'.Resolves (fun r => read r options raw = .ok m) := by
  rw [write_eq] at h ⊢
  obtain ⟨n, S₁, h₁, h₂⟩ := bind_eq_ok h
  obtain ⟨d, S₂, h₃, h₄⟩ := bind_eq_ok h₂
  obtain ⟨cs, S₃, h₅, h₆⟩ := bind_eq_ok h₄
  obtain ⟨es, S₄, h₇, h₈⟩ := bind_eq_ok h₆
  obtain ⟨ss, S₅, h₉, h₁₀⟩ := bind_eq_ok h₈
  obtain ⟨ds, S₆, h₁₁, h₁₂⟩ := bind_eq_ok h₁₀
  obtain ⟨rfl, rfl⟩ := Prod.mk.inj (Except.ok.inj h₁₂)
  obtain ⟨hspec₁, hname, -, -⟩ := utf8_spec hS h₁
  obtain ⟨hspec₂, hdesc, -, -⟩ := utf8_spec hspec₁.laid h₃
  obtain ⟨hspec₃, happ₃⟩ := unless_spec
    (fun hb _ _ _ hS h => writeCode_spec (hbody (by simpa using hb)) hS h) hspec₂.laid h₅
  obtain ⟨hspec₄, happ₄⟩ := unless_spec
    (fun _ _ _ _ hS h => writeExceptions_spec hexceptions hS h) hspec₃.laid h₇
  obtain ⟨hspec₅, happ₅⟩ :=
    present_spec (fun _ _ _ _ _ hS h => writeSignature_spec hS h) hspec₄.laid h₉
  obtain ⟨hspec₆, happ₆⟩ :=
    present_spec (fun v hv _ _ _ hS h => writeDefault_spec (hdefault v hv) hS h) hspec₅.laid h₁₁
  refine ⟨hspec₁.bind (hspec₂.bind (hspec₃.bind (hspec₄.bind (hspec₅.bind (hspec₆.bind
    (Spec.pure hspec₆.laid _)))))), fun T hT hlaid => ?_⟩
  have hT₅ := hspec₆.grows.trans hT
  have hT₄ := hspec₅.grows.trans hT₅
  have hT₃ := hspec₄.grows.trans hT₄
  have hn := hname T ((hspec₂.grows.trans hspec₃.grows).trans hT₃) hlaid
  have hd := hdesc T (hspec₃.grows.trans hT₃) hlaid
  have happ := (((happ₃ T hT₃ hlaid).append (happ₄ T hT₄ hlaid)).append
    (happ₅ T hT₅ hlaid)).append (happ₆ T hT hlaid)
  simp only [Applies] at hn hd happ ⊢
  simp only [read, happ, hn, hd]
  -- each present value was set by its attribute, each absent one is the reader's default
  cases m with
  | mk name descriptor access signature exceptions annotationDefault maxStack maxLocals
      instructions handlers =>
    cases instructions with
    | nil =>
      obtain ⟨rfl, rfl, rfl⟩ := hempty rfl
      cases exceptions <;> cases signature <;> cases annotationDefault <;> rfl
    | cons i is => cases exceptions <;> cases signature <;> cases annotationDefault <;> rfl

end MethodModel

end ClassPatch
