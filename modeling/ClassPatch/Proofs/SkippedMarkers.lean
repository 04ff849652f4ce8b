import ClassPatch.Proofs.DecodedLabels
import ClassPatch.Model.Read

/-!
Reading without line numbers or frames. Reading that skips line numbers, frames or both gives
each method body the full reading gives, with those markers taken out, then the label markers
that only they referred to, and the labels left numbered `0, 1, 2, …` again in order; everything
outside the bodies is read alike.

The two readings of one `Code` attribute read the same instructions, and the reduced one labels
fewer offsets: those that what it keeps refers to. Offset by offset, what the reduced reading
lays out is what the full one lays out without the skipped markers, its labels renamed into the
full reading's by `τ`, which sends the rank of an offset among the reduced labels to its rank
among the full ones. Renumbering undoes an injective renaming of a canonical body, so the
reduced body comes back.
-/

namespace ClassPatch

namespace Instruction

variable {L : Type}

def skippedBy (options : ReadOptions) : Instruction L → Bool
  | .lineNumber .. => options.skipDebug
  | .frame _ => options.skipFrames
  | _ => false

end Instruction

def renumberLabels (insns : List (Instruction Label)) (handlers : List (Handler Label)) :
    List (Instruction Label) × List (Handler Label) :=
  let rename (l : Label) : Label := ⟨(placedLabels insns).idxOf l⟩
  (insns.map (·.mapLabels rename), handlers.map (·.mapLabels rename))

def stripMarkers (options : ReadOptions) (insns : List (Instruction Label))
    (handlers : List (Handler Label)) : List (Instruction Label) × List (Handler Label) :=
  let kept := insns.filter (!·.skippedBy options)
  let used := referencedLabels kept handlers
  renumberLabels (kept.filter fun i => i.label?.all used.contains) handlers

/-- The method with its body as reading with `options` gives it. -/
def MethodModel.withoutMarkers (options : ReadOptions) (m : MethodModel) : MethodModel :=
  let body := stripMarkers options m.instructions m.handlers
  { m with instructions := body.1, handlers := body.2 }

/-- The class with its method bodies as reading with `options` gives them. -/
def ClassModel.withoutMarkers (options : ReadOptions) (c : ClassModel) : ClassModel :=
  { c with methods := c.methods.map (·.withoutMarkers options) }

section Renaming

variable {C U U' U'' : Type}

namespace VerificationType

theorem map_map (k : U → U') (σ : U' → U'') (t : VerificationType C U) :
    (t.map id k).map id σ = t.map id (σ ∘ k) := by
  cases t <;> rfl

@[simp] theorem map_id_id : (map id id : VerificationType C U → VerificationType C U) = id := by
  funext t
  cases t <;> rfl

theorem map_congr {k k' : U → U'} {t : VerificationType C U} (h : ∀ u ∈ t.sites, k u = k' u) :
    t.map id k = t.map id k' := by
  cases t <;> simp_all [map, sites]

@[simp] theorem sites_map (k : U → U') (t : VerificationType C U) :
    (t.map id k).sites = t.sites.map k := by
  cases t <;> rfl

theorem mapM_pure {ε C' : Type} (g : C → Except ε C') (k : U → U') :
    mapM g (fun u => pure (k u)) = fun t : VerificationType C U => map id k <$> t.mapM g pure := by
  funext t
  cases t
  case object cls =>
    simp only [mapM]
    cases g cls <;> rfl
  all_goals rfl

end VerificationType

theorem mapM_functor_map {ε α β γ : Type} (f : α → Except ε β) (F : β → γ) :
    ∀ xs : List α, xs.mapM (fun a => F <$> f a) = List.map F <$> xs.mapM f
  | [] => rfl
  | a :: xs => by
    rw [List.mapM_cons, List.mapM_cons, mapM_functor_map f F xs]
    cases f a <;> cases xs.mapM f <;> rfl

namespace Frame

theorem map_map (k : U → U') (σ : U' → U'') (f : Frame C U) :
    (f.map id k).map id σ = f.map id (σ ∘ k) := by
  cases f <;> simp [map, VerificationType.map_map, Function.comp_def]

@[simp] theorem map_id_id (f : Frame C U) : f.map id id = f := by
  cases f <;> simp [map]

theorem map_congr {k k' : U → U'} {f : Frame C U} (h : ∀ u ∈ f.sites, k u = k' u) :
    f.map id k = f.map id k' := by
  cases f <;> simp only [map, sites] at h ⊢
  case sameLocalsOneStack t => rw [VerificationType.map_congr h]
  case append locals =>
    rw [List.map_congr_left fun t ht => VerificationType.map_congr fun u hu =>
      h u (List.mem_flatMap.mpr ⟨t, ht, hu⟩)]
  case full locals stack =>
    rw [List.map_congr_left fun t ht => VerificationType.map_congr fun u hu =>
        h u (List.mem_append_left _ (List.mem_flatMap.mpr ⟨t, ht, hu⟩)),
      List.map_congr_left fun t ht => VerificationType.map_congr fun u hu =>
        h u (List.mem_append_right _ (List.mem_flatMap.mpr ⟨t, ht, hu⟩))]

@[simp] theorem sites_map (k : U → U') (f : Frame C U) : (f.map id k).sites = f.sites.map k := by
  cases f <;> simp [map, sites, List.flatMap_map, List.map_flatMap]

theorem mapM_pure {ε C' : Type} (g : C → Except ε C') (k : U → U') (f : Frame C U) :
    f.mapM g (fun u => pure (k u)) = map id k <$> f.mapM g pure := by
  cases f
  case sameLocalsOneStack t =>
    simp only [mapM, VerificationType.mapM_pure]
    cases t.mapM g pure <;> rfl
  case append locals =>
    simp only [mapM]
    rw [VerificationType.mapM_pure, mapM_functor_map]
    cases locals.mapM (VerificationType.mapM g pure) <;> rfl
  case full locals stack =>
    simp only [mapM]
    rw [VerificationType.mapM_pure, mapM_functor_map, mapM_functor_map]
    cases locals.mapM (VerificationType.mapM g pure) <;>
      cases stack.mapM (VerificationType.mapM g pure) <;> rfl
  all_goals rfl

end Frame

namespace Instruction

variable {L L' L'' : Type} {i : Instruction L}

theorem mapLabels_mapLabels (k : L → L') (σ : L' → L'') (i : Instruction L) :
    (i.mapLabels k).mapLabels σ = i.mapLabels (σ ∘ k) := by
  cases i <;> simp [mapLabels, Frame.map_map]

@[simp] theorem mapLabels_id (i : Instruction L) : i.mapLabels id = i := by
  cases i <;> simp [mapLabels]

@[simp] theorem label?_mapLabels (f : L → L') (i : Instruction L) :
    (i.mapLabels f).label? = i.label?.map f := by
  cases i <;> rfl

@[simp] theorem references_mapLabels (f : L → L') (i : Instruction L) :
    (i.mapLabels f).references = i.references.map f := by
  cases i <;> simp [references, mapLabels, targets]

@[simp] theorem skippedBy_mapLabels (options : ReadOptions) (f : L → L') (i : Instruction L) :
    (i.mapLabels f).skippedBy options = i.skippedBy options := by
  cases i <;> rfl

theorem mapLabels_congr {k k' : L → L'} (hl : ∀ l ∈ i.label?, k l = k' l)
    (hr : ∀ l ∈ i.references, k l = k' l) : i.mapLabels k = i.mapLabels k' := by
  cases i <;> simp only [mapLabels, references, label?, targets, Option.mem_def] at hl hr ⊢
  case jump op t => rw [hr t (List.mem_singleton_self t)]
  case tableSwitch lo hi d ts =>
    rw [hr d List.mem_cons_self, List.map_congr_left fun t ht => hr t (List.mem_cons_of_mem d ht)]
  case lookupSwitch d ks ts =>
    rw [hr d List.mem_cons_self, List.map_congr_left fun t ht => hr t (List.mem_cons_of_mem d ht)]
  case label l => rw [hl l rfl]
  case lineNumber line s => rw [hr s (List.mem_singleton_self s)]
  case frame f => rw [Frame.map_congr hr]

end Instruction

namespace Handler

variable {L L' L'' : Type}

theorem mapLabels_mapLabels (k : L → L') (σ : L' → L'') (h : Handler L) :
    (h.mapLabels k).mapLabels σ = h.mapLabels (σ ∘ k) := rfl

@[simp] theorem mapLabels_id (h : Handler L) : h.mapLabels id = h := rfl

theorem mapLabels_congr {k k' : L → L'} {h : Handler L} (hk : ∀ l ∈ h.targets, k l = k' l) :
    h.mapLabels k = h.mapLabels k' := by
  simp only [targets, List.mem_cons, List.not_mem_nil, or_false, forall_eq_or_imp, forall_eq] at hk
  simp [mapLabels, hk.1, hk.2.1, hk.2.2]

end Handler

end Renaming

section Renumbering

variable {insns : List (Instruction Label)} {handlers : List (Handler Label)}

theorem placedLabels_map (f : Label → Label) (insns : List (Instruction Label)) :
    placedLabels (insns.map (·.mapLabels f)) = (placedLabels insns).map f := by
  simp [placedLabels, List.filterMap_map, List.map_filterMap]

theorem referencedLabels_map (f : Label → Label) (insns : List (Instruction Label))
    (handlers : List (Handler Label)) :
    referencedLabels (insns.map (·.mapLabels f)) (handlers.map (·.mapLabels f)) =
      (referencedLabels insns handlers).map f := by
  simp [referencedLabels, List.flatMap_map, List.map_flatMap]

theorem idxOf_map_of_injOn {α β : Type} [DecidableEq α] [DecidableEq β] {f : α → β} {a : α} :
    ∀ {l : List α}, (∀ x ∈ l, ∀ y ∈ l, f x = f y → x = y) → a ∈ l →
      (l.map f).idxOf (f a) = l.idxOf a
  | [], _, ha => absurd ha List.not_mem_nil
  | x :: l, hinj, ha => by
    by_cases hx : x = a
    · subst hx
      simp
    · have hfx : f x ≠ f a := fun h => hx (hinj x List.mem_cons_self a ha h)
      rw [List.map_cons, List.idxOf_cons_ne _ hfx, List.idxOf_cons_ne _ hx,
        idxOf_map_of_injOn (fun y hy z hz => hinj y (List.mem_cons_of_mem x hy) z
          (List.mem_cons_of_mem x hz)) ((List.mem_cons.mp ha).resolve_left (Ne.symm hx))]

theorem renumberLabels_map {τ : Label → Label}
    (hplaced : placedLabels insns = (List.range (placedLabels insns).length).map Label.mk)
    (hclosed : ∀ l ∈ referencedLabels insns handlers, l ∈ placedLabels insns)
    (hinj : ∀ a ∈ placedLabels insns, ∀ b ∈ placedLabels insns, τ a = τ b → a = b) :
    renumberLabels (insns.map (·.mapLabels τ)) (handlers.map (·.mapLabels τ)) = (insns, handlers) := by
  -- a placed label is its own rank among the placed labels, and `τ` keeps the ranks
  have hrank : ∀ l ∈ placedLabels insns, (⟨((placedLabels insns).map τ).idxOf (τ l)⟩ : Label) = l := by
    intro l hl
    rw [idxOf_map_of_injOn hinj hl]
    have hnd : (placedLabels insns).Nodup := by
      rw [hplaced]
      exact List.nodup_range.map fun _ _ h => congrArg Label.id h
    obtain ⟨i, hi⟩ := List.getElem_of_mem hl
    obtain ⟨hlt, rfl⟩ := hi
    rw [hnd.idxOf_getElem]
    have := congrArg (fun l => l[i]?) hplaced
    simp only [List.getElem?_map, List.getElem?_range hlt, Option.map_some] at this
    rw [List.getElem?_eq_getElem hlt] at this
    exact (Option.some.inj this).symm
  simp only [renumberLabels, placedLabels_map, Prod.mk.injEq]
  constructor
  · rw [List.map_map]
    refine (List.map_congr_left fun i hi => ?_).trans (List.map_id insns)
    rw [Function.comp_apply, Instruction.mapLabels_mapLabels, id]
    refine Eq.trans (Instruction.mapLabels_congr (fun l hl => ?_) (fun l hl => ?_) :
      _ = i.mapLabels id) i.mapLabels_id
    · exact hrank l (List.mem_filterMap.mpr ⟨i, hi, hl⟩)
    · exact hrank l (hclosed l (List.mem_append_left _ (List.mem_flatMap.mpr ⟨i, hi, hl⟩)))
  · rw [List.map_map]
    refine (List.map_congr_left fun h hh => ?_).trans (List.map_id handlers)
    rw [Function.comp_apply, Handler.mapLabels_mapLabels, id]
    refine Eq.trans (Handler.mapLabels_congr fun l hl => ?_ : _ = h.mapLabels id) h.mapLabels_id
    exact hrank l (hclosed l (List.mem_append_right _ (List.mem_flatMap.mpr ⟨h, hh, hl⟩)))

end Renumbering

namespace SideTables

def restrict (options : ReadOptions) (t : SideTables) : SideTables :=
  { lines := if options.skipDebug then [] else t.lines
    frames := if options.skipFrames then [] else t.frames }

def resolvedFrame (p : Pool) (t : SideTables) (offset : Nat) :
    Except FormatError (Option (Frame String UInt16)) :=
  (t.frameAt? offset).mapM fun f => f.mapM p.className pure

variable {options : ReadOptions} {t : SideTables} {x : Nat}

theorem linesAt_restrict :
    (t.restrict options).linesAt x = if options.skipDebug then [] else t.linesAt x := by
  unfold restrict linesAt
  cases options.skipDebug <;> simp

theorem lineKeys_restrict :
    (t.restrict options).lineKeys = if options.skipDebug then [] else t.lineKeys := by
  unfold restrict lineKeys
  cases options.skipDebug <;> rfl

theorem frameAt?_restrict :
    (t.restrict options).frameAt? x = if options.skipFrames then none else t.frameAt? x := by
  unfold restrict frameAt?
  cases options.skipFrames <;> simp

theorem frameKeys_restrict :
    (t.restrict options).frameKeys = if options.skipFrames then [] else t.frameKeys := by
  unfold restrict frameKeys
  cases options.skipFrames <;> rfl

theorem resolvedFrame_restrict {p : Pool} :
    (t.restrict options).resolvedFrame p x =
      if options.skipFrames then .ok none else t.resolvedFrame p x := by
  unfold resolvedFrame
  rw [frameAt?_restrict]
  cases options.skipFrames <;> rfl

theorem resolvedFrame_restrict_ok {p : Pool} {F : Option (Frame String UInt16)}
    (h : t.resolvedFrame p x = .ok F) :
    (t.restrict options).resolvedFrame p x = .ok (if options.skipFrames then none else F) := by
  rw [resolvedFrame_restrict]
  split
  · rfl
  · exact h

theorem read_restrict {p : Pool} :
    ∀ {as : List RawAttribute} {t : SideTables}, read p {} as = .ok t →
      read p options as = .ok (t.restrict options)
  | [], t, h => by
    cases h
    simp [read, restrict]
  | a :: as, t, h => by
    unfold read at h ⊢
    obtain ⟨name, hname, h⟩ := Except.bind_eq_ok_iff.mp h
    rw [hname]
    simp only [Except.ok_bind]
    by_cases hl : name = "LineNumberTable"
    · -- a line number table, which skipping debug data leaves unread
      subst hl
      simp at h ⊢
      obtain ⟨entries, hentries, h⟩ := Except.bind_eq_ok_iff.mp h
      obtain ⟨more, hmore, h⟩ := Except.bind_eq_ok_iff.mp h
      cases h
      cases hd : options.skipDebug <;> simp [hentries, read_restrict hmore, restrict, hd]
    · by_cases hs : name = "StackMapTable"
      · -- a stack map table, which skipping frames leaves unread
        subst hs
        simp at h ⊢
        obtain ⟨frames, hframes, h⟩ := Except.bind_eq_ok_iff.mp h
        obtain ⟨more, hmore, h⟩ := Except.bind_eq_ok_iff.mp h
        cases h
        cases hf : options.skipFrames <;> simp [hframes, read_restrict hmore, restrict, hf]
      · simp [hl, hs] at h ⊢
        obtain ⟨more, hmore, h⟩ := Except.bind_eq_ok_iff.mp h
        cases h
        simp [read_restrict hmore, restrict]

end SideTables

namespace OffsetBlock

def laid (label : Nat → Label) (placed : Bool) (offset : Nat) (lines : List UInt16)
    (frame : Option (Frame String UInt16)) (insn : Option (Instruction Int)) : OffsetBlock :=
  { label := label offset, placed, lines
    frame := frame.map (Frame.map id fun s => label s.toNat)
    instruction := insn.map (·.mapLabels fun t => label t.toNat) }

variable {label label' : Nat → Label} {placed : Bool} {offset : Nat} {lines : List UInt16}
  {frame : Option (Frame String UInt16)} {insn : Option (Instruction Int)}

theorem own_filter {k : Nat → Label} {p : Instruction Label → Bool}
    (hinsn : ∀ i ∈ insn, i.isMarker = false) (hp : ∀ i : Instruction Int, i.isMarker = false →
      p (i.mapLabels fun t => k t.toNat) = true) :
    (insn.map (·.mapLabels fun t => k t.toNat)).toList.filter p =
      (insn.map (·.mapLabels fun t => k t.toNat)).toList := by
  cases insn with
  | none => rfl
  | some i => simp [hp i (hinsn i rfl)]

theorem filter_skippedBy_elements (options : ReadOptions) (hinsn : ∀ i ∈ insn, i.isMarker = false) :
    (laid label placed offset lines frame insn).elements.filter (!·.skippedBy options) =
      (laid label placed offset (if options.skipDebug then [] else lines)
        (if options.skipFrames then none else frame) insn).elements := by
  -- the instruction read at the offset is not a marker, so no option skips it
  have hown := own_filter (k := label) (p := (!·.skippedBy options)) hinsn fun i hi => by
    cases i <;> simp_all [Instruction.skippedBy, Instruction.isMarker, Instruction.opcode?,
      Instruction.mapLabels]
  simp only [elements, laid, List.filter_append, hown]
  cases placed <;> cases frame <;> cases hd : options.skipDebug <;>
    cases hf : options.skipFrames <;> simp [Instruction.skippedBy, List.filter_map, hd, hf,
      Function.comp_def]

theorem filter_label_elements (q : Label → Bool) (hinsn : ∀ i ∈ insn, i.isMarker = false) :
    (laid label placed offset lines frame insn).elements.filter (fun i => i.label?.all q) =
      (laid label (placed && q (label offset)) offset lines frame insn).elements := by
  have hown := own_filter (k := label) (p := fun i => i.label?.all q) hinsn fun i hi => by
    simp [Instruction.label?_of_not_marker (i := i.mapLabels _) (by simpa using hi)]
  simp only [elements, laid, List.filter_append, hown]
  cases placed <;> cases frame <;> cases hq : q (label offset) <;>
    simp [List.filter_map, Function.comp_def, Instruction.label?, hq]

theorem elements_map_mapLabels (τ : Label → Label) :
    (laid label placed offset lines frame insn).elements.map (·.mapLabels τ) =
      (laid (τ ∘ label) placed offset lines frame insn).elements := by
  have hown : (insn.map (·.mapLabels fun t => label t.toNat)).toList.map (·.mapLabels τ) =
      (insn.map (·.mapLabels fun t => (τ ∘ label) t.toNat)).toList := by
    cases insn <;> simp [Instruction.mapLabels_mapLabels, Function.comp_def]
  simp only [elements, laid, List.map_append, hown]
  cases placed <;> cases frame <;> simp [Frame.map_map, Function.comp_def, Instruction.mapLabels]

theorem elements_congr (hlabel : placed = true ∨ lines ≠ [] → label offset = label' offset)
    (hframe : ∀ f ∈ frame, ∀ s ∈ f.sites, label s.toNat = label' s.toNat)
    (htargets : ∀ i ∈ insn, ∀ t ∈ i.targets, label t.toNat = label' t.toNat)
    (hinsn : ∀ i ∈ insn, i.isMarker = false) :
    (laid label placed offset lines frame insn).elements =
      (laid label' placed offset lines frame insn).elements := by
  have hown : insn.map (·.mapLabels fun t => label t.toNat) =
      insn.map (·.mapLabels fun t => label' t.toNat) := by
    cases insn with
    | none => rfl
    | some i =>
      simp only [Option.map_some, Option.some.injEq]
      refine Instruction.mapLabels_congr (fun l hl => ?_) (fun t ht => htargets i rfl t ?_)
      · simp [Instruction.label?_of_not_marker (hinsn i rfl)] at hl
      · rwa [Instruction.references_of_not_marker (hinsn i rfl)] at ht
  have hfr : frame.map (Frame.map id fun s => label s.toNat) =
      frame.map (Frame.map id fun s => label' s.toNat) := by
    cases frame with
    | none => rfl
    | some f => simp [Frame.map_congr fun s hs => hframe f rfl s hs]
  have hlines : lines.map (fun line => Instruction.lineNumber line (label offset)) =
      lines.map (fun line => Instruction.lineNumber line (label' offset)) := by
    cases lines with
    | nil => rfl
    | cons l ls => rw [hlabel (.inr (List.cons_ne_nil l ls))]
  simp only [elements, laid, hown, hfr, hlines]
  cases placed
  · rfl
  · simp only [hlabel (.inl rfl)]

theorem references_laid (placed : Bool) :
    (laid label placed offset lines frame insn).elements.flatMap Instruction.references =
      (laid label false offset lines frame insn).elements.flatMap Instruction.references := by
  cases placed <;> simp [elements, laid]

end OffsetBlock

section Lists

variable {α β γ : Type} {R : α → β → Prop}

theorem forall₂_through {S : α → γ → Prop} {T : β → γ → Prop} {as : List α} {bs : List β}
    {cs : List γ} (hb : List.Forall₂ R as bs) (hc : List.Forall₂ S as cs)
    (h : ∀ a ∈ as, ∀ b c, R a b → S a c → T b c) : List.Forall₂ T bs cs := by
  induction hb generalizing cs with
  | nil =>
    cases hc
    exact .nil
  | @cons a b as bs hab _ ih =>
    cases hc with
    | cons hac hcs =>
      exact .cons (h a List.mem_cons_self b _ hab hac)
        (ih hcs fun a' ha' => h a' (List.mem_cons_of_mem a ha'))

theorem exists_forall₂_of_forall₂ {S : α → γ → Prop} {as : List α} {bs : List β}
    (hb : List.Forall₂ R as bs) (h : ∀ a ∈ as, ∀ b, R a b → ∃ c, S a c) :
    ∃ cs, List.Forall₂ S as cs := by
  induction hb with
  | nil => exact ⟨[], .nil⟩
  | @cons a b as bs hab _ ih =>
    obtain ⟨c, hc⟩ := h a List.mem_cons_self b hab
    obtain ⟨cs, hcs⟩ := ih fun a' ha' => h a' (List.mem_cons_of_mem a ha')
    exact ⟨c :: cs, .cons hc hcs⟩

theorem mapM_eq_ok_of_forall₂ {ε : Type} {f : α → Except ε β} {xs : List α} {ys : List β}
    (h : List.Forall₂ (fun x y => f x = .ok y) xs ys) : xs.mapM f = .ok ys := by
  rw [mapM_eq_of_forall₂ (g := pure) h, List.mapM_pure, List.map_id']
  rfl

theorem flatMap_eq_flatMap_of_forall₂ {F : α → List γ} {G : β → List γ} {as : List α}
    {bs : List β} (h : List.Forall₂ R as bs) (hFG : ∀ a b, R a b → F a = G b) :
    as.flatMap F = bs.flatMap G := by
  induction h with
  | nil => rfl
  | cons hab _ ih => rw [List.flatMap_cons, List.flatMap_cons, hFG _ _ hab, ih]

theorem eq_map_of_forall₂ {f : β → α} {as : List α} {bs : List β}
    (h : List.Forall₂ (fun a b => a = f b) as bs) : as = bs.map f := by
  have h' := List.forall₂_map_right_iff.mpr h
  rwa [List.forall₂_eq_eq_eq] at h'

end Lists

namespace CodeAttribute

variable {c : CodeAttribute} {r : Resolver} {T : SideTables} {decoded : List (Nat × Instruction Int)}
  {options : ReadOptions}

theorem blockAt_eq_laid (x : Nat) (insn : Option (Instruction Int)) :
    c.blockAt T decoded r x insn =
      (OffsetBlock.laid (c.labelAt T decoded) ((c.labelled T decoded).contains x) x (T.linesAt x) ·
        insn) <$> T.resolvedFrame r.pool x := by
  unfold blockAt SideTables.resolvedFrame OffsetBlock.laid
  cases T.frameAt? x with
  | none => rfl
  | some f =>
    simp only [Option.mapM_some, Frame.mapM_pure]
    cases f.mapM r.pool.className pure <;> rfl

theorem resolvedFrame_sites {x : Nat} {f : Frame String UInt16}
    (h : T.resolvedFrame r.pool x = .ok (some f)) :
    ∃ f₀, T.frameAt? x = some f₀ ∧ f.sites = f₀.sites := by
  unfold SideTables.resolvedFrame at h
  cases hf : T.frameAt? x with
  | none =>
    rw [hf] at h
    cases h
  | some f₀ =>
    rw [hf, Option.mapM_some] at h
    obtain ⟨f', hf', hf'f⟩ := Except.map_eq_ok_iff.mp h
    cases hf'f
    exact ⟨f₀, rfl, by simpa using Frame.sites_of_mapM (k := id) hf'⟩

theorem handlerAt_eq (h : RawHandler) :
    c.handlerAt T decoded r h = (fun catchType => ⟨c.labelAt T decoded h.start.toNat,
      c.labelAt T decoded h.«end».toNat, c.labelAt T decoded h.handler.toNat, catchType⟩) <$>
        r.pool.optionalClassName h.catchType := by
  unfold handlerAt
  cases r.pool.optionalClassName h.catchType <;> rfl

theorem mem_referredOffsets_of_restrict {t : Int}
    (ht : t ∈ c.referredOffsets (T.restrict options) decoded) : t ∈ c.referredOffsets T decoded := by
  rcases mem_referredOffsets.mp ht with h | h | ⟨o, ho, rfl⟩ | ⟨o, ho, f, hf, s, hs, rfl⟩
  · exact mem_referredOffsets.mpr (.inl h)
  · exact mem_referredOffsets.mpr (.inr (.inl h))
  -- a line start or a frame site the reduced tables keep is one of the full tables
  · cases hd : options.skipDebug <;> simp only [SideTables.lineKeys_restrict, hd] at ho
    · exact lineKey_mem_referredOffsets ho
    · simp at ho
  · cases hf' : options.skipFrames <;>
      simp only [SideTables.frameKeys_restrict, SideTables.frameAt?_restrict, hf'] at ho hf
    · exact mem_referredOffsets.mpr (.inr (.inr (.inr ⟨o, ho, f, hf, s, hs, rfl⟩)))
    · simp at ho

theorem mem_labelled_of_restrict {x : Nat} (hx : x ∈ c.labelled (T.restrict options) decoded) :
    x ∈ c.labelled T decoded := by
  obtain ⟨t, ht, rfl⟩ := mem_labelled.mp hx
  exact mem_labelled.mpr ⟨t, mem_referredOffsets_of_restrict ht, rfl⟩

theorem labelAt_injOn {x y : Nat} (hx : x ∈ c.labelled T decoded)
    (h : c.labelAt T decoded x = c.labelAt T decoded y) : x = y :=
  (List.idxOf_inj hx).mp (congrArg Label.id h)

variable (c T decoded options) in
def fullLabel (l : Label) : Label :=
  c.labelAt T decoded ((c.labelled (T.restrict options) decoded).getD l.id 0)

theorem fullLabel_labelAt {x : Nat} (hx : x ∈ c.labelled (T.restrict options) decoded) :
    c.fullLabel T decoded options (c.labelAt (T.restrict options) decoded x) = c.labelAt T decoded x := by
  -- the reduced label of `x` is its rank among the reduced labelled offsets, which gives `x` back
  unfold fullLabel labelAt
  rw [List.getD_eq_getElem?_getD, List.getElem?_eq_getElem (List.idxOf_lt_length_of_mem hx),
    Option.getD_some, List.getElem_idxOf]

theorem not_marker_of_mem_steps {s : Nat × Option (Instruction Int)}
    (hread : r.instructions c.code = .ok decoded) (hs : s ∈ c.steps decoded) :
    ∀ i ∈ s.2, i.isMarker = false := by
  intro i hi
  rcases mem_steps.mp hs with ⟨p, hp, rfl⟩ | rfl
  · cases hi
    simpa using Resolver.instructionsFrom_not_marker hread p hp
  · cases hi

theorem mem_labelled_of_target {s : Nat × Option (Instruction Int)} (hs : s ∈ c.steps decoded) :
    ∀ i ∈ s.2, ∀ t ∈ i.targets, t.toNat ∈ c.labelled T decoded := by
  intro i hi t ht
  rcases mem_steps.mp hs with ⟨p, hp, rfl⟩ | rfl
  · cases hi
    exact mem_labelled.mpr ⟨t, mem_referredOffsets.mpr (.inl ⟨p, hp, ht⟩), rfl⟩
  · cases hi

theorem mem_labelled_of_site {x : Nat} {F : Option (Frame String UInt16)}
    (hF : T.resolvedFrame r.pool x = .ok F) : ∀ f ∈ F, ∀ s ∈ f.sites, s.toNat ∈ c.labelled T decoded := by
  intro f hf s hs
  cases hf
  obtain ⟨f₀, hf₀, hsites⟩ := resolvedFrame_sites hF
  rw [hsites] at hs
  exact mem_labelled.mpr ⟨_, mem_referredOffsets.mpr (.inr (.inr (.inr
    ⟨x, SideTables.mem_frameKeys_of_frameAt? hf₀, f₀, hf₀, s, hs, rfl⟩))), by simp⟩

theorem Decoding.restrict {blocks : List OffsetBlock} {hs : List (Handler Label)}
    (D : c.Decoding r T decoded blocks hs) (options : ReadOptions) :
    ∃ blocks' hs', c.Decoding r (T.restrict options) decoded blocks' hs' := by
  obtain ⟨blocks', hlaid⟩ := exists_forall₂_of_forall₂
      (S := fun s b' => c.blockAt (T.restrict options) decoded r s.1 s.2 = .ok b') D.laid
      fun s _ b hb => by
    rw [blockAt_eq_laid] at hb
    obtain ⟨F, hF, -⟩ := Except.map_eq_ok_iff.mp hb
    rw [blockAt_eq_laid, SideTables.resolvedFrame_restrict_ok hF]
    exact ⟨_, rfl⟩
  obtain ⟨hs', hhandlers⟩ := exists_forall₂_of_forall₂
      (S := fun h h' => c.handlerAt (T.restrict options) decoded r h = .ok h') D.labelledHandlers
      fun h _ h' hh => by
    rw [handlerAt_eq] at hh
    obtain ⟨catchType, hct, -⟩ := Except.map_eq_ok_iff.mp hh
    rw [handlerAt_eq, hct]
    exact ⟨_, rfl⟩
  refine ⟨blocks', hs', D.read, ?_, ?_, hlaid, hhandlers⟩
  · refine checkOffsets_eq_ok.mpr fun t ht => checkOffsets_eq_ok.mp D.framesChecked t ?_
    cases hf : options.skipFrames <;> simp only [SideTables.frameKeys_restrict, hf] at ht
    · exact ht
    · simp at ht
  · exact checkOffsets_eq_ok.mpr fun t ht =>
      checkOffsets_eq_ok.mp D.referredChecked t (mem_referredOffsets_of_restrict ht)

theorem body_eq_ok_of_decoding {options : ReadOptions} {blocks : List OffsetBlock}
    {hs : List (Handler Label)} (ht : SideTables.read r.pool options c.attributes = .ok T)
    (D : c.Decoding r T decoded blocks hs) :
    c.body r options = .ok ((blocks.map OffsetBlock.elements).flatten, hs) := by
  have hplace : (c.steps decoded).mapM (fun s => c.placeAt T decoded r s.1 s.2) =
      .ok (blocks.map OffsetBlock.elements) := by
    simp only [placeAt_eq]
    rw [mapM_functor_map, mapM_eq_ok_of_forall₂ D.laid]
    rfl
  rw [body_eq]
  simp only [ht, D.read, D.framesChecked, D.referredChecked, hplace,
    mapM_eq_ok_of_forall₂ D.labelledHandlers, Except.ok_bind]
  rfl

theorem reduced_block {s : Nat × Option (Instruction Int)}
    (hread : r.instructions c.code = .ok decoded) (hs : s ∈ c.steps decoded) {b b' : OffsetBlock}
    (hb : c.blockAt T decoded r s.1 s.2 = .ok b)
    (hb' : c.blockAt (T.restrict options) decoded r s.1 s.2 = .ok b') :
    (b.elements.filter (!·.skippedBy options)).flatMap Instruction.references =
      (b'.elements.map (·.mapLabels (c.fullLabel T decoded options))).flatMap
        Instruction.references ∧
    ∀ q : Label → Bool, (∀ x ∈ c.labelled T decoded,
        q (c.labelAt T decoded x) = true ↔ x ∈ c.labelled (T.restrict options) decoded) →
      (b.elements.filter (!·.skippedBy options)).filter (fun i => i.label?.all q) =
        b'.elements.map (·.mapLabels (c.fullLabel T decoded options)) := by
  obtain ⟨x, insn⟩ := s
  rw [blockAt_eq_laid] at hb hb'
  obtain ⟨F, hF, rfl⟩ := Except.map_eq_ok_iff.mp hb
  have hF' : (T.restrict options).resolvedFrame r.pool x = _ :=
    SideTables.resolvedFrame_restrict_ok hF
  rw [hF'] at hb'
  cases hb'
  rw [SideTables.linesAt_restrict]
  have hmark := not_marker_of_mem_steps hread hs
  -- where the reduced block refers to an offset, the two labellings agree through the renaming
  have hagree : ∀ P : Bool, (P = true → x ∈ c.labelled (T.restrict options) decoded) →
      (OffsetBlock.laid (c.labelAt T decoded) P x (if options.skipDebug then [] else T.linesAt x)
        (if options.skipFrames then none else F) insn).elements =
      (OffsetBlock.laid (c.fullLabel T decoded options ∘ c.labelAt (T.restrict options) decoded) P x
        (if options.skipDebug then [] else T.linesAt x)
        (if options.skipFrames then none else F) insn).elements := by
    intro P hP
    refine OffsetBlock.elements_congr (fun h => ?_) (fun f hf s hs => ?_) (fun i hi t ht => ?_) hmark
    · refine (fullLabel_labelAt ?_).symm
      rcases h with h | h
      · exact hP h
      · exact mem_labelled_of_linesAt (by rwa [SideTables.linesAt_restrict])
    · exact (fullLabel_labelAt (mem_labelled_of_site hF' f hf s hs)).symm
    · exact (fullLabel_labelAt (mem_labelled_of_target hs i hi t ht)).symm
  constructor
  · rw [OffsetBlock.filter_skippedBy_elements options hmark, OffsetBlock.references_laid,
      hagree false (by simp),
      ← OffsetBlock.references_laid ((c.labelled (T.restrict options) decoded).contains x),
      ← OffsetBlock.elements_map_mapLabels]
  · intro q hq
    -- the full block keeps its label marker exactly when the reduced reading still labels it
    have hplaced : ((c.labelled T decoded).contains x && q (c.labelAt T decoded x)) =
        (c.labelled (T.restrict options) decoded).contains x := by
      by_cases hx : x ∈ c.labelled T decoded
      · rw [List.contains_iff_mem.mpr hx, Bool.true_and, Bool.eq_iff_iff, hq x hx,
          List.contains_iff_mem]
      · have hx' : x ∉ c.labelled (T.restrict options) decoded :=
          fun h => hx (mem_labelled_of_restrict h)
        simp [hx, hx']
    rw [OffsetBlock.filter_skippedBy_elements options hmark,
      OffsetBlock.filter_label_elements q hmark, hplaced, hagree _ List.contains_iff_mem.mp,
      OffsetBlock.elements_map_mapLabels]

theorem Decoding.stripMarkers_eq {blocks blocks' : List OffsetBlock} {hs hs' : List (Handler Label)}
    (D : c.Decoding r T decoded blocks hs)
    (D' : c.Decoding r (T.restrict options) decoded blocks' hs') :
    stripMarkers options (blocks.map OffsetBlock.elements).flatten hs =
      ((blocks'.map OffsetBlock.elements).flatten, hs') := by
  have hpairs := forall₂_through D.laid D'.laid fun s hs _ _ hb hb' => reduced_block D.read hs hb hb'
  -- the handlers differ by the renaming, since both readings label their offsets
  have hhs : hs = hs'.map (·.mapLabels (c.fullLabel T decoded options)) := by
    refine eq_map_of_forall₂ (forall₂_through D.labelledHandlers D'.labelledHandlers
      fun h hh h₁ h₂ e₁ e₂ => ?_)
    rw [handlerAt_eq] at e₁ e₂
    obtain ⟨ct₁, hct₁, rfl⟩ := Except.map_eq_ok_iff.mp e₁
    obtain ⟨ct₂, hct₂, rfl⟩ := Except.map_eq_ok_iff.mp e₂
    rw [hct₁, Except.ok.injEq] at hct₂
    subst hct₂
    have hmem : ∀ x ∈ [h.start, h.«end», h.handler],
        x.toNat ∈ c.labelled (T.restrict options) decoded := fun x hx =>
      mem_labelled.mpr ⟨_, mem_referredOffsets.mpr (.inr (.inl ⟨h, hh, x, hx, rfl⟩)), by simp⟩
    unfold Handler.mapLabels
    rw [fullLabel_labelAt (hmem _ (by simp)), fullLabel_labelAt (hmem _ (by simp)),
      fullLabel_labelAt (hmem _ (by simp))]
  -- what the skipped markers leave refers to the renamed labels the reduced body refers to
  have hrefs : referencedLabels ((blocks.map OffsetBlock.elements).flatten.filter
      (!·.skippedBy options)) hs = (referencedLabels (blocks'.map OffsetBlock.elements).flatten
        hs').map (c.fullLabel T decoded options) := by
    rw [← referencedLabels_map, hhs]
    unfold referencedLabels
    congr 1
    simp only [← List.flatMap_def, List.filter_flatMap, List.map_flatMap, List.flatMap_assoc]
    exact flatMap_eq_flatMap_of_forall₂ hpairs fun _ _ h => h.1
  -- so a labelled offset keeps its label marker exactly when the reduced reading labels it
  have hused : ∀ x ∈ c.labelled T decoded, (referencedLabels ((blocks.map
      OffsetBlock.elements).flatten.filter (!·.skippedBy options)) hs).contains
        (c.labelAt T decoded x) = true ↔ x ∈ c.labelled (T.restrict options) decoded := by
    intro x hx
    rw [hrefs, List.contains_iff_mem, List.mem_map]
    constructor
    · rintro ⟨l, hl, he⟩
      obtain ⟨t, ht, rfl⟩ := D'.referred_of_referenced hl
      have ht' : t.toNat ∈ c.labelled (T.restrict options) decoded := mem_labelled.mpr ⟨t, ht, rfl⟩
      rw [fullLabel_labelAt ht'] at he
      rwa [← labelAt_injOn (mem_labelled_of_restrict ht') he]
    · intro hx'
      obtain ⟨t, ht, rfl⟩ := mem_labelled.mp hx'
      exact ⟨_, D'.referenced_of_referred ht, fullLabel_labelAt hx'⟩
  have hkept : ∀ q : Label → Bool, (∀ x ∈ c.labelled T decoded,
      q (c.labelAt T decoded x) = true ↔ x ∈ c.labelled (T.restrict options) decoded) →
      ((blocks.map OffsetBlock.elements).flatten.filter (!·.skippedBy options)).filter
        (fun i => i.label?.all q) =
      (blocks'.map OffsetBlock.elements).flatten.map (·.mapLabels (c.fullLabel T decoded options)) := by
    intro q hq
    simp only [← List.flatMap_def, List.filter_flatMap, List.map_flatMap]
    exact flatMap_eq_flatMap_of_forall₂ hpairs fun _ _ h => h.2 q hq
  -- the reduced body is canonical, and the renaming is injective on its labels
  have hplaced := D'.placedLabels_eq
  refine (congrArg₂ renumberLabels (hkept _ hused) hhs).trans (renumberLabels_map ?_ ?_ ?_)
  · rw [hplaced, map_labelAt_labelled]
    simp
  · intro l hl
    obtain ⟨t, ht, rfl⟩ := D'.referred_of_referenced hl
    rw [hplaced]
    exact List.mem_map_of_mem (mem_labelled.mpr ⟨t, ht, rfl⟩)
  · rw [hplaced]
    intro a ha b hb hab
    obtain ⟨x, hx, rfl⟩ := List.mem_map.mp ha
    obtain ⟨y, hy, rfl⟩ := List.mem_map.mp hb
    rw [fullLabel_labelAt hx, fullLabel_labelAt hy] at hab
    rw [labelAt_injOn (mem_labelled_of_restrict hx) hab]

end CodeAttribute

theorem CodeAttribute.body_stripMarkers {c : CodeAttribute} {r : Resolver}
    {insns : List (Instruction Label)} {hs : List (Handler Label)}
    (h : c.body r {} = .ok (insns, hs)) (options : ReadOptions) :
    c.body r options = .ok (stripMarkers options insns hs) := by
  obtain ⟨T, decoded, blocks, hT, D, rfl⟩ := CodeAttribute.body_eq_ok h
  obtain ⟨blocks', hs', D'⟩ := D.restrict options
  rw [CodeAttribute.body_eq_ok_of_decoding (SideTables.read_restrict hT) D', D.stripMarkers_eq D']

namespace MethodModel

variable {r : Resolver} {options : ReadOptions} {m m' : MethodModel} {a : RawAttribute}

theorem withAttribute_withoutMarkers (h : withAttribute r {} m a = .ok m') :
    withAttribute r options (m.withoutMarkers options) a = .ok (m'.withoutMarkers options) := by
  unfold withAttribute at h ⊢
  obtain ⟨name, hname, h⟩ := Except.bind_eq_ok_iff.mp h
  rw [hname]
  split at h
  case h_1 =>
    -- a body, which reading with `options` reads with fewer markers
    obtain ⟨code, hcode, h⟩ := Except.bind_eq_ok_iff.mp h
    obtain ⟨⟨insns, hs⟩, hbody, h⟩ := Except.bind_eq_ok_iff.mp h
    cases h
    simp only [Except.ok_bind, hcode, CodeAttribute.body_stripMarkers hbody]
    rfl
  case h_2 =>
    obtain ⟨i, hi, h⟩ := Except.bind_eq_ok_iff.mp h
    obtain ⟨s, hs, h⟩ := Except.bind_eq_ok_iff.mp h
    cases h
    simp only [Except.ok_bind, hi, hs]
    rfl
  case h_3 =>
    obtain ⟨classes, hclasses, h⟩ := Except.bind_eq_ok_iff.mp h
    obtain ⟨names, hnames, h⟩ := Except.bind_eq_ok_iff.mp h
    cases h
    simp only [Except.ok_bind, hclasses, hnames]
    rfl
  case h_4 =>
    obtain ⟨value, hvalue, h⟩ := Except.bind_eq_ok_iff.mp h
    obtain ⟨v, hv, h⟩ := Except.bind_eq_ok_iff.mp h
    cases h
    simp only [Except.ok_bind, hvalue, hv]
    rfl
  case h_5 =>
    -- any other attribute leaves the method as it is
    cases h
    simp only [Except.ok_bind]
    rfl

theorem foldlM_withAttribute_withoutMarkers {as : List RawAttribute}
    (h : as.foldlM (withAttribute r {}) m = .ok m') :
    as.foldlM (withAttribute r options) (m.withoutMarkers options) = .ok (m'.withoutMarkers options) := by
  induction as generalizing m with
  | nil =>
    cases h
    rfl
  | cons a as ih =>
    rw [List.foldlM_cons] at h ⊢
    obtain ⟨m₁, h₁, h⟩ := Except.bind_eq_ok_iff.mp h
    rw [withAttribute_withoutMarkers h₁, Except.ok_bind]
    exact ih h

theorem read_withoutMarkers {raw : RawMember} (h : read r {} raw = .ok m) :
    read r options raw = .ok (m.withoutMarkers options) := by
  unfold read at h ⊢
  obtain ⟨method, hfold, h⟩ := Except.bind_eq_ok_iff.mp h
  obtain ⟨name, hname, h⟩ := Except.bind_eq_ok_iff.mp h
  obtain ⟨descriptor, hdescriptor, h⟩ := Except.bind_eq_ok_iff.mp h
  cases h
  -- the method read starts from has no body, so stripping markers leaves it as it is
  refine Except.bind_eq_ok_iff.mpr ⟨method.withoutMarkers options,
    foldlM_withAttribute_withoutMarkers hfold, ?_⟩
  rw [hname, hdescriptor]
  rfl

end MethodModel

namespace ClassModel

variable {r : Resolver} {options : ReadOptions} {c c' : ClassModel}

theorem withAttribute_withoutMarkers (c : ClassModel) (a : RawAttribute) :
    withAttribute r (c.withoutMarkers options) a = (·.withoutMarkers options) <$> withAttribute r c a := by
  unfold withAttribute
  rw [map_bind]
  congr 1
  funext name
  split
  case h_4 =>
    -- an enclosing method, which is looked up only when there is one
    simp only [map_bind]
    congr 1
    funext p
    congr 1
    funext outer
    split <;> simp only [map_bind, map_pure] <;> rfl
  all_goals simp only [map_bind, map_pure] <;> rfl

theorem foldlM_withAttribute_withoutMarkers {as : List RawAttribute}
    (h : as.foldlM (withAttribute r) c = .ok c') :
    as.foldlM (withAttribute r) (c.withoutMarkers options) = .ok (c'.withoutMarkers options) := by
  induction as generalizing c with
  | nil =>
    cases h
    rfl
  | cons a as ih =>
    rw [List.foldlM_cons] at h ⊢
    obtain ⟨c₁, h₁, h⟩ := Except.bind_eq_ok_iff.mp h
    rw [withAttribute_withoutMarkers, h₁]
    exact ih h

theorem ofRaw_withoutMarkers {raw : RawClass} (h : ofRaw raw {} = .ok c) :
    ofRaw raw options = .ok (c.withoutMarkers options) := by
  unfold ofRaw at h ⊢
  obtain ⟨bootstrap, hbootstrap, h⟩ := Except.bind_eq_ok_iff.mp h
  obtain ⟨name, hname, h⟩ := Except.bind_eq_ok_iff.mp h
  obtain ⟨superName, hsuper, h⟩ := Except.bind_eq_ok_iff.mp h
  obtain ⟨interfaces, hinterfaces, h⟩ := Except.bind_eq_ok_iff.mp h
  obtain ⟨fields, hfields, h⟩ := Except.bind_eq_ok_iff.mp h
  obtain ⟨methods, hmethods, h⟩ := Except.bind_eq_ok_iff.mp h
  -- every method is read without its skipped markers, and the attributes leave them alone
  have hmethods' : raw.methods.mapM (MethodModel.read _ options) =
      .ok (methods.map (·.withoutMarkers options)) :=
    mapM_eq_ok_of_forall₂ (List.forall₂_map_right_iff.mpr
      ((forall₂_of_mapM_eq_ok hmethods).imp fun _ _ hm => MethodModel.read_withoutMarkers hm))
  refine Except.bind_eq_ok_iff.mpr ⟨bootstrap, hbootstrap, ?_⟩
  refine Except.bind_eq_ok_iff.mpr ⟨name, hname, ?_⟩
  refine Except.bind_eq_ok_iff.mpr ⟨superName, hsuper, ?_⟩
  refine Except.bind_eq_ok_iff.mpr ⟨interfaces, hinterfaces, ?_⟩
  refine Except.bind_eq_ok_iff.mpr ⟨fields, hfields, ?_⟩
  refine Except.bind_eq_ok_iff.mpr ⟨_, hmethods', ?_⟩
  exact foldlM_withAttribute_withoutMarkers h

end ClassModel

/-- Reading a class while skipping line numbers, frames or both reads what the full reading
reads, with each method body stripped: the skipped markers go, then the label markers that only
they referred to, and the labels left are numbered `0, 1, 2, …` again in order. Everything
outside the method bodies is read alike. -/
theorem ClassModel.parse_skipping_markers {bytes : List UInt8} {c : ClassModel}
    (h : parse bytes {} = .ok c) (options : ReadOptions) :
    parse bytes options = .ok (c.withoutMarkers options) := by
  unfold parse at h ⊢
  obtain ⟨⟨raw, rest⟩, hraw, h⟩ := Except.bind_eq_ok_iff.mp h
  exact Except.bind_eq_ok_iff.mpr ⟨(raw, rest), hraw, ofRaw_withoutMarkers h⟩

def ClassModel.sampleWithLine : List UInt8 :=
  [0xCA, 0xFE, 0xBA, 0xBE, 0, 0, 0, 0x34, 0, 7,
    1, 0, 1, 0x43, 7, 0, 1, 1, 0, 1, 0x6D, 1, 0, 3, 0x28, 0x29, 0x56,
    1, 0, 4, 0x43, 0x6F, 0x64, 0x65,
    1, 0, 15, 0x4C, 0x69, 0x6E, 0x65, 0x4E, 0x75, 0x6D, 0x62, 0x65, 0x72, 0x54, 0x61, 0x62, 0x6C,
      0x65,
    0, 0x21, 0, 2, 0, 0, 0, 0, 0, 0, 0, 1,
    0, 9, 0, 3, 0, 4, 0, 1,
    0, 5, 0, 0, 0, 28, 0, 0, 0, 0, 0, 0, 0, 4, 0x00, 0xA7, 0, 0, 0, 0, 0, 1,
    0, 6, 0, 0, 0, 6, 0, 1, 0, 0, 0, 1,
    0, 0]

theorem ClassModel.parse_sampleWithLine_skipDebug :
    ∃ c, parse sampleWithLine {} = .ok c ∧
      parse sampleWithLine { skipDebug := true } = .ok (c.withoutMarkers { skipDebug := true }) ∧
      c.methods.map (·.instructions) =
        [[.label ⟨0⟩, .lineNumber 1 ⟨0⟩, .simple Opcode.nop, .label ⟨1⟩, .jump Opcode.goto ⟨1⟩]] ∧
      (c.withoutMarkers { skipDebug := true }).methods.map (·.instructions) =
        [[.simple Opcode.nop, .label ⟨0⟩, .jump Opcode.goto ⟨0⟩]] := by
  have h : parse sampleWithLine {} = .ok _ := rfl
  exact ⟨_, h, parse_skipping_markers h _, rfl, rfl⟩

end ClassPatch
