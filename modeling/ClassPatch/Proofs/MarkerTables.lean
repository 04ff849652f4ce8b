import ClassPatch.Proofs.EmittedOffsets
import ClassPatch.Proofs.FrameTable

namespace ClassPatch

def Frame.CountsFit {C U : Type} : Frame C U → Prop
  | .full locals stack => locals.length < 65536 ∧ stack.length < 65536
  | _ => True

def Layout.storedSite (lay : Layout) (l : Label) : Build UInt16 := do
  let o ← Build.lift (lay.labelOffset l)
  pure o.toUInt16

namespace Build

open PoolBuilder

variable {lay : Layout} {S S' : PoolBuilder}

theorem countsFit_of_frameMapM {C U C' U' : Type} {f : C → Build C'} {g : U → Build U'}
    {fr : Frame C U} {fr' : Frame C' U'} (h : fr.mapM f g S = .ok (fr', S'))
    (hfits : fr.CountsFit) : fr'.CountsFit := by
  cases fr
  case full locals stack =>
    simp only [Frame.mapM] at h
    obtain ⟨l, S₁, h₁, h₂⟩ := bind_eq_ok h
    obtain ⟨s, S₂, h₃, h₄⟩ := bind_eq_ok h₂
    obtain ⟨rfl, -⟩ := pure_eq_ok h₄
    -- each list keeps its length
    exact ⟨(forall₂_of_mapM h₁).length_eq ▸ hfits.1, (forall₂_of_mapM h₃).length_eq ▸ hfits.2⟩
  case sameLocalsOneStack t =>
    simp only [Frame.mapM] at h
    obtain ⟨t', S₁, -, h₂⟩ := bind_eq_ok h
    obtain ⟨rfl, -⟩ := pure_eq_ok h₂
    trivial
  case append locals =>
    simp only [Frame.mapM] at h
    obtain ⟨l, S₁, -, h₂⟩ := bind_eq_ok h
    obtain ⟨rfl, -⟩ := pure_eq_ok h₂
    trivial
  all_goals
    simp only [Frame.mapM] at h
    obtain ⟨rfl, -⟩ := pure_eq_ok h
    trivial

theorem typeMapM_spec {t : VerificationType String Label} {t' : VerificationType UInt16 UInt16}
    (hS : S.Laid 0) (h : t.mapM classRef lay.storedSite S = .ok (t', S')) :
    (∀ l ∈ t.sites, ∃ v, lay.labelOffset l = .ok v) ∧ S'.Resolves fun r =>
      t'.mapM r.pool.className pure = .ok (t.map id fun l => (lay.offsetOf l).toUInt16) := by
  cases t
  case object c =>
    simp only [VerificationType.mapM] at h
    obtain ⟨i, S₁, h₁, h₂⟩ := bind_eq_ok h
    obtain ⟨rfl, rfl⟩ := pure_eq_ok h₂
    obtain ⟨-, hres, -, -⟩ := classRef_spec hS h₁
    refine ⟨by simp [VerificationType.sites], fun T hT hlaid => ?_⟩
    simp [VerificationType.mapM, VerificationType.map, hres T hT hlaid]
  case uninitialized l =>
    simp only [VerificationType.mapM, Layout.storedSite] at h
    obtain ⟨o, S₁, h₁, h₂⟩ := bind_eq_ok h
    obtain ⟨v, S₀, h₀, h₀'⟩ := bind_eq_ok h₁
    obtain ⟨hv, rfl⟩ := lift_eq_ok h₀
    obtain ⟨rfl, rfl⟩ := pure_eq_ok h₀'
    obtain ⟨rfl, rfl⟩ := pure_eq_ok h₂
    refine ⟨by simp [VerificationType.sites, hv], fun _ _ _ => ?_⟩
    simp [VerificationType.mapM, VerificationType.map, Layout.labelOffset_eq_ok hv]
  all_goals
    simp only [VerificationType.mapM] at h
    obtain ⟨rfl, rfl⟩ := pure_eq_ok h
    exact ⟨by simp [VerificationType.sites], fun _ _ _ => rfl⟩

theorem typesMapM_spec {ts : List (VerificationType String Label)}
    {ts' : List (VerificationType UInt16 UInt16)} (hS : S.Laid 0)
    (h : ts.mapM (VerificationType.mapM classRef lay.storedSite) S = .ok (ts', S')) :
    (∀ l ∈ ts.flatMap VerificationType.sites, ∃ v, lay.labelOffset l = .ok v) ∧
      S'.Resolves fun r => ts'.mapM (VerificationType.mapM r.pool.className pure) =
        .ok (ts.map (VerificationType.map id fun l => (lay.offsetOf l).toUInt16)) := by
  obtain ⟨hspec, hread⟩ := mapM_spec (Q := fun r t t' => (∀ l ∈ t.sites, ∃ v, lay.labelOffset l = .ok v) ∧
      t'.mapM r.pool.className pure = .ok (t.map id fun l => (lay.offsetOf l).toUInt16))
    (fun t _ _ _ _ hS h => ⟨specified_typeMapM specified_classRef
      (fun _ => (Specified.lift _).bind fun _ => .pure _) t _ _ _ hS h,
      fun T hT hlaid => ⟨(typeMapM_spec hS h).1, (typeMapM_spec hS h).2 T hT hlaid⟩⟩) hS h
  -- the labels are placed whatever the pool, so in the pool left itself
  have hsites := (hread S' (Extends.refl _) hspec.laid).imp fun _ _ hq => hq.1
  refine ⟨fun l hl => ?_, fun T hT hlaid => mapM_eq_ok_of_forall₂ ?_⟩
  · obtain ⟨t, ht, hl⟩ := List.mem_flatMap.mp hl
    obtain ⟨t', -, hsite⟩ := exists_of_forall₂_left hsites t ht
    exact hsite l hl
  · exact List.forall₂_map_right_iff.mpr ((hread T hT hlaid).imp fun _ _ hq => hq.2).flip

theorem frameMapM_spec {f : Frame String Label} {sf : Frame UInt16 UInt16} (hS : S.Laid 0)
    (h : f.mapM classRef lay.storedSite S = .ok (sf, S')) :
    (∀ l ∈ f.sites, ∃ v, lay.labelOffset l = .ok v) ∧ S'.Resolves fun r =>
      sf.mapM r.pool.className pure = .ok (f.map id fun l => (lay.offsetOf l).toUInt16) := by
  cases f
  case sameLocalsOneStack t =>
    simp only [Frame.mapM] at h
    obtain ⟨t', S₁, h₁, h₂⟩ := bind_eq_ok h
    obtain ⟨rfl, rfl⟩ := pure_eq_ok h₂
    obtain ⟨hsites, hres⟩ := typeMapM_spec hS h₁
    exact ⟨hsites, fun T hT hlaid => by simp [Frame.mapM, Frame.map, hres T hT hlaid]⟩
  case append locals =>
    simp only [Frame.mapM] at h
    obtain ⟨ls, S₁, h₁, h₂⟩ := bind_eq_ok h
    obtain ⟨rfl, rfl⟩ := pure_eq_ok h₂
    obtain ⟨hsites, hres⟩ := typesMapM_spec hS h₁
    exact ⟨hsites, fun T hT hlaid => by simp [Frame.mapM, Frame.map, hres T hT hlaid]⟩
  case full locals stack =>
    simp only [Frame.mapM] at h
    obtain ⟨ls, S₁, h₁, h₂⟩ := bind_eq_ok h
    obtain ⟨ss, S₂, h₃, h₄⟩ := bind_eq_ok h₂
    obtain ⟨rfl, rfl⟩ := pure_eq_ok h₄
    obtain ⟨hsites₁, hres₁⟩ := typesMapM_spec hS h₁
    have hspec₁ := Specified.mapM (fun t _ => specified_typeMapM specified_classRef
      (fun _ => (Specified.lift _).bind fun _ => .pure _) t) _ _ _ hS h₁
    obtain ⟨hsites₂, hres₂⟩ := typesMapM_spec hspec₁.laid h₃
    have hspec₂ := Specified.mapM (fun t _ => specified_typeMapM specified_classRef
      (fun _ => (Specified.lift _).bind fun _ => .pure _) t) _ _ _ hspec₁.laid h₃
    refine ⟨fun l hl => ?_, fun T hT hlaid => ?_⟩
    · rcases List.mem_append.mp hl with hl | hl
      · exact hsites₁ l hl
      · exact hsites₂ l hl
    · simp [Frame.mapM, Frame.map, hres₁ T (hspec₂.grows.trans hT) hlaid, hres₂ T hT hlaid]
  all_goals
    simp only [Frame.mapM] at h
    obtain ⟨rfl, rfl⟩ := pure_eq_ok h
    exact ⟨by simp [Frame.sites], fun _ _ _ => rfl⟩

end Build

section Deltas

theorem frameDelta_spec {previous : Option Nat} {offset delta : Nat}
    (h : frameDelta previous offset = .ok delta) :
    (∀ p ∈ previous, p < offset) ∧ delta ≤ offset ∧ offsetAfter previous delta = offset := by
  cases previous with
  | none =>
    cases h
    exact ⟨fun _ hp => absurd hp (Option.not_mem_none _), le_rfl, rfl⟩
  | some p =>
    simp only [frameDelta] at h
    split at h
    · cases h
      refine ⟨fun q hq => ?_, by omega, by simp only [offsetAfter]; omega⟩
      rw [Option.mem_some_iff] at hq
      omega
    · cases h

theorem ofFrame_spec {delta : UInt16} {sf : Frame UInt16 UInt16} {x : StackMapFrame}
    (h : StackMapFrame.ofFrame delta sf = .ok x) (hfits : sf.CountsFit) :
    x = ⟨delta, sf⟩ ∧ x.Fits := by
  cases sf
  case chop k =>
    simp only [StackMapFrame.ofFrame] at h
    split at h
    · next hk =>
      cases h
      simpa [StackMapFrame.Fits] using hk
    · cases h
  case append locals =>
    simp only [StackMapFrame.ofFrame] at h
    split at h
    · next hl =>
      cases h
      simpa [StackMapFrame.Fits] using hl
    · cases h
  case full locals stack =>
    cases h
    exact ⟨rfl, hfits⟩
  all_goals
    cases h
    exact ⟨rfl, trivial⟩

theorem frameOffsets_of_frameTable :
    ∀ {fs : List (Nat × Frame UInt16 UInt16)} {previous : Option Nat} {table : List StackMapFrame},
      frameTable previous fs = .ok table → (∀ x ∈ fs, x.1 < 65536) → (∀ x ∈ fs, x.2.CountsFit) →
      frameOffsets previous table = fs ∧ (∀ f ∈ table, f.Fits) ∧
        (∀ p ∈ previous, ∀ x ∈ fs, p < x.1) ∧ (fs.map (·.1)).Pairwise (· < ·)
  | [], _, _, h, _, _ => by
    cases h
    exact ⟨rfl, fun _ hf => absurd hf List.not_mem_nil, fun _ _ _ hx => absurd hx List.not_mem_nil,
      List.Pairwise.nil⟩
  | (offset, f) :: rest, previous, table, h, hlt, hfits => by
    obtain ⟨delta, hdelta, h⟩ := Except.bind_eq_ok_iff.mp h
    obtain ⟨stored, hstored, h⟩ := Except.bind_eq_ok_iff.mp h
    obtain ⟨more, hmore, h⟩ := Except.bind_eq_ok_iff.mp h
    cases h
    obtain ⟨habove, hle, hback⟩ := frameDelta_spec hdelta
    obtain ⟨rfl, hfit⟩ := ofFrame_spec hstored (hfits _ List.mem_cons_self)
    obtain ⟨hoffsets, hfits', hrest, hinc⟩ := frameOffsets_of_frameTable hmore
      (fun x hx => hlt x (List.mem_cons_of_mem _ hx)) (fun x hx => hfits x (List.mem_cons_of_mem _ hx))
    -- the delta fits 16 bits, since it is at most the offset
    have hdeltaNat : delta.toUInt16.toNat = delta :=
      UInt16.toNat_ofNat_of_lt' (Nat.lt_of_le_of_lt hle (hlt _ List.mem_cons_self))
    refine ⟨by rw [frameOffsets_cons, hdeltaNat, hback, hoffsets], fun g hg => ?_, fun p hp x hx => ?_,
      List.pairwise_cons.mpr ⟨fun y hy => ?_, hinc⟩⟩
    · rcases List.mem_cons.mp hg with rfl | hg
      · exact hfit
      · exact hfits' g hg
    · rcases List.mem_cons.mp hx with rfl | hx
      · exact habove p hp
      · exact (habove p hp).trans (hrest offset rfl x hx)
    · obtain ⟨x, hx, rfl⟩ := List.mem_map.mp hy
      exact hrest offset rfl x hx

end Deltas

namespace SideTables

variable {p : Pool} {a : RawAttribute} {rest : List RawAttribute}

theorem read_lineTable {lines : List RawLine} (hname : p.utf8 a.name = .ok "LineNumberTable")
    (hinfo : a.info = Writer.list RawLine.encode lines) (hlen : lines.length < 65536) :
    read p {} (a :: rest) = (fun more : SideTables =>
      { lines := lines.map (fun e => (e.start.toNat, e.line)) ++ more.lines,
        frames := more.frames }) <$> read p {} rest := by
  have hdecode : a.decode (Reader.list RawLine.read) = .ok lines := by
    obtain ⟨name, info⟩ := a
    dsimp only at hinfo
    subst hinfo
    exact RawAttribute.decode_of_reads (Reader.reads_list hlen fun l _ => l.reads_read)
  simp only [read, hname, hdecode, Except.ok_bind, beq_self_eq_true, Bool.not_false, Bool.and_self,
    if_true]
  cases read p {} rest <;> rfl

theorem read_frameTable {frames : List StackMapFrame} (hname : p.utf8 a.name = .ok "StackMapTable")
    (hinfo : a.info = Writer.list StackMapFrame.encode frames) (hfits : ∀ f ∈ frames, f.Fits)
    (hlen : frames.length < 65536) :
    read p {} (a :: rest) = (fun more : SideTables =>
      { lines := more.lines, frames := frameOffsets none frames ++ more.frames }) <$>
        read p {} rest := by
  have hdecode : a.decode (Reader.list StackMapFrame.read) = .ok frames := by
    obtain ⟨name, info⟩ := a
    dsimp only at hinfo
    subst hinfo
    exact decode_table hfits hlen name
  have hother : ("StackMapTable" == "LineNumberTable") = false := by decide
  simp only [read, hname, hdecode, hother, Except.ok_bind, beq_self_eq_true, Bool.not_false,
    Bool.and_self, Bool.false_and, Bool.false_eq_true, if_true, if_false]
  cases read p {} rest <;> rfl

end SideTables

namespace Build

open PoolBuilder

variable {lay : Layout}

theorem markerTables_spec :
    ∀ {previous : Option Nat} {items : List (Instruction Label × Nat)} {S S' : PoolBuilder}
      {lines : List RawLine} {frames : List StackMapFrame}, S.Laid 0 →
      markerTables lay previous items S = .ok ((lines, frames), S') →
      lines = items.filterMap (fun q => q.1.line?.map fun p => ⟨(lay.offsetOf p.2).toUInt16, p.1⟩) ∧
      (∀ q ∈ items, ∀ p ∈ q.1.line?, ∃ v, lay.labelOffset p.2 = .ok v) ∧
      ∃ stored, frameTable previous stored = .ok frames ∧
        List.Forall₂ (fun q s => ∃ f, q.1 = .frame f ∧ s.1 = lay.offsets.getD q.2 0 ∧
          (∀ l ∈ f.sites, ∃ v, lay.labelOffset l = .ok v) ∧ (f.CountsFit → s.2.CountsFit))
          (items.filter (·.1.isFrame)) stored ∧
        S'.Resolves fun r => List.Forall₂ (fun q s => ∀ f, q.1 = .frame f →
          s.2.mapM r.pool.className pure = .ok (f.map id fun l => (lay.offsetOf l).toUInt16))
          (items.filter (·.1.isFrame)) stored
  | previous, [], S, S', lines, frames, hS, h => by
    simp only [markerTables] at h
    cases h
    exact ⟨rfl, fun _ hq => absurd hq List.not_mem_nil, [], rfl, .nil, fun _ _ _ => .nil⟩
  | previous, (i, position) :: rest, S, S', lines, frames, hS, h => by
    unfold markerTables at h
    split at h
    · -- a line number goes to the line table, at the offset of its start
      next line start =>
      obtain ⟨offset, S₁, hlift, h₁⟩ := bind_eq_ok h
      obtain ⟨hoffset, rfl⟩ := lift_eq_ok hlift
      obtain ⟨⟨lines', frames'⟩, S₂, hrest, h₂⟩ := bind_eq_ok h₁
      cases h₂
      obtain ⟨hlines, hplaced, stored, htable, hrel, hres⟩ := markerTables_spec hS hrest
      refine ⟨?_, fun q hq p hp => ?_, stored, htable, by simpa [Instruction.isFrame] using hrel,
        fun T hT hlaid => by simpa [Instruction.isFrame] using hres T hT hlaid⟩
      · simp [Instruction.line?, hlines, Layout.labelOffset_eq_ok hoffset]
      · rcases List.mem_cons.mp hq with rfl | hq
        · simp only [Instruction.line?, Option.mem_def, Option.some.injEq] at hp
          subst hp
          exact ⟨offset, hoffset⟩
        · exact hplaced q hq p hp
    · -- a frame goes to the frame table, at the offset of its position
      next f =>
      obtain ⟨delta, S₁, hlift, h₁⟩ := bind_eq_ok h
      obtain ⟨hdelta, rfl⟩ := lift_eq_ok hlift
      obtain ⟨sf, S₂, hstore, h₂⟩ := bind_eq_ok h₁
      obtain ⟨frame, S₃, hlift', h₃⟩ := bind_eq_ok h₂
      obtain ⟨hframe, rfl⟩ := lift_eq_ok hlift'
      obtain ⟨⟨lines', frames'⟩, S₄, hrest, h₄⟩ := bind_eq_ok h₃
      cases h₄
      have hspec₂ := specified_frameMapM specified_classRef
        (fun _ => (Specified.lift _).bind fun _ => .pure _) f _ _ _ hS hstore
      obtain ⟨hsites, hres₂⟩ := frameMapM_spec hS hstore
      have hspec₄ := specified_markerTables lay _ rest _ _ _ hspec₂.laid hrest
      obtain ⟨hlines, hplaced, stored, htable, hrel, hres⟩ := markerTables_spec hspec₂.laid hrest
      refine ⟨by simpa [Instruction.line?] using hlines, fun q hq p hp => ?_,
        (lay.offsets.getD position 0, sf) :: stored, ?_, ?_, fun T hT hlaid => ?_⟩
      · rcases List.mem_cons.mp hq with rfl | hq
        · simp [Instruction.line?] at hp
        · exact hplaced q hq p hp
      · rw [frameTable, hdelta, Except.ok_bind, hframe, Except.ok_bind, htable]
        rfl
      · rw [List.filter_cons_of_pos rfl]
        exact .cons ⟨f, rfl, rfl, hsites, countsFit_of_frameMapM hstore⟩ hrel
      · rw [List.filter_cons_of_pos rfl]
        refine .cons (fun f' hf' => ?_) (hres T hT hlaid)
        cases hf'
        exact hres₂ T (hspec₄.grows.trans hT) hlaid
    · -- every other element is left out of both tables
      next hline hframe =>
      obtain ⟨hlines, hplaced, stored, htable, hrel, hres⟩ := markerTables_spec hS h
      have hnot : i.isFrame = false := by
        cases i with
        | frame f => exact absurd rfl (hframe f)
        | _ => rfl
      have hnoline : i.line? = none := by
        cases i with
        | lineNumber line start => exact absurd rfl (hline line start)
        | _ => rfl
      refine ⟨by simp [hnoline, hlines], fun q hq p hp => ?_, stored, htable,
        by simpa [hnot] using hrel, fun T hT hlaid => by simpa [hnot] using hres T hT hlaid⟩
      rcases List.mem_cons.mp hq with rfl | hq
      · simp [hnoline] at hp
      · exact hplaced q hq p hp

def optionalTable (name : String) (empty : Bool) (info : List UInt8) : Build (List RawAttribute) :=
  if empty then pure [] else do
    let a ← attributeNamed name info
    pure [a]

theorem markerAttributes_eq (lines : List RawLine) (frames : List StackMapFrame) :
    markerAttributes lines frames = (do
      let lineTable ← optionalTable "LineNumberTable" lines.isEmpty (Writer.list RawLine.encode lines)
      let frameTable ←
        optionalTable "StackMapTable" frames.isEmpty (Writer.list StackMapFrame.encode frames)
      pure (lineTable ++ frameTable)) := by
  unfold markerAttributes optionalTable
  simp only [ClassModel.ite_bind, bind_assoc, pure_bind]

theorem optionalTable_spec {S S' : PoolBuilder} {name : String} {empty : Bool}
    {info : List UInt8} {as : List RawAttribute} {F : SideTables → SideTables}
    (hempty : empty = true → ∀ t, F t = t)
    (hread : ∀ (p : Pool) (a : RawAttribute) rest, p.utf8 a.name = .ok name → a.info = info →
      SideTables.read p {} (a :: rest) = F <$> SideTables.read p {} rest)
    (hS : S.Laid 0) (h : optionalTable name empty info S = .ok (as, S')) :
    Spec 0 (optionalTable name empty info) S as S' ∧
      S'.Resolves fun r => ∀ rest, SideTables.read r.pool {} (as ++ rest) =
        F <$> SideTables.read r.pool {} rest := by
  unfold optionalTable at h ⊢
  by_cases he : empty = true
  · rw [if_pos he] at h ⊢
    obtain ⟨rfl, rfl⟩ := pure_eq_ok h
    refine ⟨Spec.pure hS _, fun _ _ _ rest => ?_⟩
    rw [List.nil_append]
    cases SideTables.read _ {} rest with
    | error e => rfl
    | ok t => exact congrArg Except.ok (hempty he t).symm
  · rw [if_neg he] at h ⊢
    obtain ⟨a, S₁, h₁, h₂⟩ := bind_eq_ok h
    obtain ⟨rfl, rfl⟩ := pure_eq_ok h₂
    obtain ⟨hspec, hinfo, hname⟩ := attributeNamed_spec hS h₁
    exact ⟨hspec.bind (Spec.pure hspec.laid _),
      fun T hT hlaid rest => hread _ a rest (hname T hT hlaid) hinfo⟩

theorem markerAttributes_spec {S S' : PoolBuilder} {lines : List RawLine}
    {frames : List StackMapFrame} {as : List RawAttribute} (hlines : lines.length < 65536)
    (hframes : frames.length < 65536) (hfits : ∀ f ∈ frames, f.Fits) (hS : S.Laid 0)
    (h : markerAttributes lines frames S = .ok (as, S')) :
    S'.Resolves fun r => SideTables.read r.pool {} as =
      .ok { lines := lines.map (fun e => (e.start.toNat, e.line)), frames := frameOffsets none frames } := by
  rw [markerAttributes_eq] at h
  obtain ⟨lineTable, S₁, h₁, h₂⟩ := bind_eq_ok h
  obtain ⟨frameTable, S₂, h₃, h₄⟩ := bind_eq_ok h₂
  obtain ⟨rfl, rfl⟩ := pure_eq_ok h₄
  obtain ⟨hspec₁, hline⟩ := optionalTable_spec
    (F := fun more => ⟨lines.map (fun e => (e.start.toNat, e.line)) ++ more.lines, more.frames⟩)
    (fun he t => by rw [List.isEmpty_iff.mp he]; rfl)
    (fun _ _ _ hname hinfo => SideTables.read_lineTable hname hinfo hlines) hS h₁
  obtain ⟨hspec₂, hframe⟩ := optionalTable_spec
    (F := fun more => ⟨more.lines, frameOffsets none frames ++ more.frames⟩)
    (fun he t => by rw [List.isEmpty_iff.mp he]; rfl)
    (fun _ _ _ hname hinfo => SideTables.read_frameTable hname hinfo hfits hframes) hspec₁.laid h₃
  intro T hT hlaid
  rw [hline T (hspec₂.grows.trans hT) hlaid, ← List.append_nil frameTable, hframe T hT hlaid]
  simp [SideTables.read]

theorem length_optionalTable_le {S S' : PoolBuilder} {name : String} {empty : Bool}
    {info : List UInt8} {as : List RawAttribute} (h : optionalTable name empty info S = .ok (as, S')) :
    as.length ≤ 1 := by
  unfold optionalTable at h
  by_cases he : empty = true
  · rw [if_pos he] at h
    obtain ⟨rfl, rfl⟩ := pure_eq_ok h
    simp
  · rw [if_neg he] at h
    obtain ⟨a, S₁, -, h₂⟩ := bind_eq_ok h
    obtain ⟨rfl, rfl⟩ := pure_eq_ok h₂
    simp

theorem length_markerAttributes_le {S S' : PoolBuilder} {lines : List RawLine}
    {frames : List StackMapFrame} {as : List RawAttribute}
    (h : markerAttributes lines frames S = .ok (as, S')) : as.length ≤ 2 := by
  rw [markerAttributes_eq] at h
  obtain ⟨lineTable, S₁, h₁, h₂⟩ := bind_eq_ok h
  obtain ⟨frameTable, S₂, h₃, h₄⟩ := bind_eq_ok h₂
  obtain ⟨rfl, rfl⟩ := pure_eq_ok h₄
  have := length_optionalTable_le h₁
  have := length_optionalTable_le h₃
  rw [List.length_append]
  omega

end Build

end ClassPatch
