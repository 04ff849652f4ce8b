import ClassPatch.Proofs.Encoding

/-!
Laws of body equivalence. Two elements match when they have the same shape (the instruction
with its positions forgotten and the payload of its marker dropped) and their targets stand at
the same positions; handlers match when they catch the same class and their three labels stand
at the same positions. Labels enter only through the positions of their markers, so equivalence
is symmetric and transitive, a body is equivalent to itself exactly when it places every label
it branches to, and an injective renaming of the labels of either side changes nothing.
-/

namespace ClassPatch

namespace Instruction

variable {L L' : Type}

/-- The instruction with every position forgotten; a marker keeps only its kind. -/
def shape : Instruction L → Instruction Unit
  | .lineNumber _ _ => .lineNumber 0 ()
  | .frame _ => .frame .same
  | i => i.mapLabels fun _ => ()

@[simp] theorem shape_mapLabels (f : L → L') (i : Instruction L) :
    (i.mapLabels f).shape = i.shape := by
  cases i <;> simp [shape, mapLabels, Function.comp_def]

@[simp] theorem targets_mapLabels (f : L → L') (i : Instruction L) :
    (i.mapLabels f).targets = i.targets.map f := by
  cases i <;> simp [targets, mapLabels]

theorem mapLabels_ne_label {f : L → L'} {i : Instruction L} (hi : ∀ l, i ≠ .label l) (l' : L') :
    i.mapLabels f ≠ .label l' := by
  cases i <;> simp_all [mapLabels]

end Instruction

namespace Handler

variable {L L' : Type}

def targets (h : Handler L) : List L := [h.start, h.«end», h.handler]

/-- Renames the labels of a handler. -/
def mapLabels (f : L → L') (h : Handler L) : Handler L' :=
  ⟨f h.start, f h.«end», f h.handler, h.catchType⟩

@[simp] theorem targets_mapLabels (f : L → L') (h : Handler L) :
    (h.mapLabels f).targets = h.targets.map f := rfl

@[simp] theorem catchType_mapLabels (f : L → L') (h : Handler L) :
    (h.mapLabels f).catchType = h.catchType := rfl

end Handler

theorem forall₂_trans {α β γ : Type} {R : α → β → Prop} {S : β → γ → Prop} {T : α → γ → Prop} :
    ∀ {as bs cs}, List.Forall₂ R as bs → List.Forall₂ S bs cs →
      (∀ a b c, R a b → S b c → T a c) → List.Forall₂ T as cs
  | _, _, _, .nil, .nil, _ => .nil
  | _, _, _, .cons hab hs, .cons hbc ht, hRST => .cons (hRST _ _ _ hab hbc) (forall₂_trans hs ht hRST)

namespace Correspondence

variable {c : Correspondence} {l r : Label} {ls rs : List Label}

def swap (c : Correspondence) : Correspondence := ⟨c.right, c.left⟩

theorem sameTarget_swap : c.swap.sameTarget r l = c.sameTarget l r := by
  simp only [sameTarget, swap]
  cases c.left l with
  | none => cases c.right r <;> rfl
  | some p =>
    cases c.right r with
    | none => rfl
    | some q =>
      by_cases hpq : p = q
      · simp [hpq]
      · simp [hpq, Ne.symm hpq]

theorem sameTarget_trans {f g h : Label → Option Nat} {m : Label}
    (hlm : sameTarget ⟨f, g⟩ l m = true) (hmr : sameTarget ⟨g, h⟩ m r = true) :
    sameTarget ⟨f, h⟩ l r = true := by
  obtain ⟨p, hl, hm⟩ := sameTarget_iff.mp hlm
  obtain ⟨q, hm', hr⟩ := sameTarget_iff.mp hmr
  obtain rfl : p = q := Option.some.inj (hm.symm.trans hm')
  exact sameTarget_iff.mpr ⟨p, hl, hr⟩

theorem sameTarget_self_iff {place : Label → Option Nat} :
    sameTarget ⟨place, place⟩ l l = true ↔ (place l).isSome := by
  rw [sameTarget_iff, Option.isSome_iff_exists]
  simp

theorem sameTarget_rename {f g f' g' : Label → Option Nat} {s₁ s₂ : Label → Label}
    (h₁ : ∀ l, f' (s₁ l) = f l) (h₂ : ∀ r, g' (s₂ r) = g r) :
    sameTarget ⟨f', g'⟩ (s₁ l) (s₂ r) = sameTarget ⟨f, g⟩ l r := by
  simp only [sameTarget, h₁, h₂]

theorem sameTargets_iff :
    c.sameTargets ls rs = true ↔ List.Forall₂ (fun l r => c.sameTarget l r = true) ls rs := by
  refine ⟨forall₂_of_sameTargets, fun h => ?_⟩
  obtain ⟨hlen, hall⟩ := List.forall₂_iff_zip.mp h
  simp only [sameTargets, Bool.and_eq_true, beq_iff_eq, List.all_eq_true]
  exact ⟨hlen, fun p hp => hall hp⟩

theorem sameInstruction_iff {i j : Instruction Label} :
    c.sameInstruction i j = true ↔ i.shape = j.shape ∧ c.sameTargets i.targets j.targets = true := by
  cases i <;> cases j <;>
    simp [sameInstruction, Instruction.shape, Instruction.mapLabels, Instruction.targets,
      Instruction.opcode?, Instruction.kindIndex, sameTargets, and_assoc, and_left_comm]

theorem sameHandler_iff {h k : Handler Label} :
    c.sameHandler h k = true ↔ h.catchType = k.catchType ∧ c.sameTargets h.targets k.targets = true := by
  simp [sameHandler, sameTargets, Handler.targets, and_assoc]

end Correspondence

def Corresponds {α κ : Type} (key : α → κ) (targets : α → List Label) (c : Correspondence)
    (xs ys : List α) : Prop :=
  List.Forall₂ (fun x y => key x = key y ∧
    List.Forall₂ (fun l r => c.sameTarget l r = true) (targets x) (targets y)) xs ys

section Corresponds

variable {α κ : Type} {key : α → κ} {targets : α → List Label}

theorem Corresponds.swap {c : Correspondence} {xs ys : List α}
    (h : Corresponds key targets c xs ys) : Corresponds key targets c.swap ys xs := by
  refine List.Forall₂.flip (h.imp fun x y hxy => ⟨hxy.1.symm, List.Forall₂.flip ?_⟩)
  exact hxy.2.imp fun l r hlr => by simpa [flip, Correspondence.sameTarget_swap] using hlr

theorem Corresponds.trans {f g h : Label → Option Nat} {xs ys zs : List α}
    (hxy : Corresponds key targets ⟨f, g⟩ xs ys) (hyz : Corresponds key targets ⟨g, h⟩ ys zs) :
    Corresponds key targets ⟨f, h⟩ xs zs := by
  refine forall₂_trans hxy hyz fun x y z hxy hyz => ⟨hxy.1.trans hyz.1, ?_⟩
  exact forall₂_trans hxy.2 hyz.2 fun _ _ _ => Correspondence.sameTarget_trans

theorem corresponds_self_iff {place : Label → Option Nat} {xs : List α} :
    Corresponds key targets ⟨place, place⟩ xs xs ↔ ∀ x ∈ xs, ∀ t ∈ targets x, (place t).isSome := by
  simp [Corresponds, List.forall₂_same, Correspondence.sameTarget_self_iff]

theorem corresponds_map_iff {β : Type} {key' : β → κ} {targets' : β → List Label}
    {f g f' g' : Label → Option Nat} {s₁ s₂ : Label → Label} {F₁ F₂ : α → β} {xs ys : List α}
    (hkey₁ : ∀ x, key' (F₁ x) = key x) (hkey₂ : ∀ x, key' (F₂ x) = key x)
    (ht₁ : ∀ x, targets' (F₁ x) = (targets x).map s₁) (ht₂ : ∀ x, targets' (F₂ x) = (targets x).map s₂)
    (h₁ : ∀ l, f' (s₁ l) = f l) (h₂ : ∀ r, g' (s₂ r) = g r) :
    Corresponds key' targets' ⟨f', g'⟩ (xs.map F₁) (ys.map F₂) ↔
      Corresponds key targets ⟨f, g⟩ xs ys := by
  simp only [Corresponds, List.forall₂_map_left_iff, List.forall₂_map_right_iff, hkey₁, hkey₂,
    ht₁, ht₂, Correspondence.sameTarget_rename h₁ h₂]

theorem corresponds_instructions_iff {c : Correspondence} {xs ys : List (Instruction Label)} :
    Corresponds Instruction.shape Instruction.targets c xs ys ↔
      List.Forall₂ (fun x y => c.sameInstruction x y = true) xs ys := by
  simp only [Corresponds, Correspondence.sameInstruction_iff, Correspondence.sameTargets_iff]

theorem corresponds_handlers_iff {c : Correspondence} {xs ys : List (Handler Label)} :
    Corresponds Handler.catchType Handler.targets c xs ys ↔
      List.Forall₂ (fun x y => c.sameHandler x y = true) xs ys := by
  simp only [Corresponds, Correspondence.sameHandler_iff, Correspondence.sameTargets_iff]

end Corresponds

theorem equivalentCode_iff {L R : List (Instruction Label)} {HL HR : List (Handler Label)} :
    equivalentCode L R HL HR = true ↔
      Corresponds Instruction.shape Instruction.targets ⟨placeOf L, placeOf R⟩ L R ∧
      Corresponds Handler.catchType Handler.targets ⟨placeOf L, placeOf R⟩ HL HR := by
  rw [corresponds_instructions_iff, corresponds_handlers_iff]
  simp only [equivalentCode, Bool.and_eq_true, beq_iff_eq, List.all_eq_true, List.forall₂_iff_zip]
  constructor
  · rintro ⟨⟨hl, hh⟩, hi, hs⟩
    exact ⟨⟨hl, fun hp => hi _ hp⟩, ⟨hh, fun hp => hs _ hp⟩⟩
  · rintro ⟨⟨hl, hi⟩, ⟨hh, hs⟩⟩
    exact ⟨⟨hl, hh⟩, fun _ hp => hi hp, fun _ hp => hs hp⟩

variable {L M R : List (Instruction Label)} {H HL HM HR : List (Handler Label)}

theorem equivalentCode_comm : equivalentCode L R HL HR = equivalentCode R L HR HL := by
  rw [Bool.eq_iff_iff, equivalentCode_iff, equivalentCode_iff]
  exact ⟨fun h => ⟨h.1.swap, h.2.swap⟩, fun h => ⟨h.1.swap, h.2.swap⟩⟩

theorem equivalentCode_trans (hLM : equivalentCode L M HL HM = true)
    (hMR : equivalentCode M R HM HR = true) : equivalentCode L R HL HR = true := by
  rw [equivalentCode_iff] at hLM hMR ⊢
  exact ⟨hLM.1.trans hMR.1, hLM.2.trans hMR.2⟩

theorem equivalentCode_self_iff : equivalentCode L L H H = true ↔ ClosedBody L H := by
  simp only [equivalentCode_iff, corresponds_self_iff, placeOf_isSome, ClosedBody, branchLabels,
    List.mem_append, List.mem_flatMap, Handler.targets]
  constructor
  · rintro ⟨hi, hh⟩ l (⟨i, hmem, hl⟩ | ⟨h, hmem, hl⟩)
    · exact hi i hmem l hl
    · exact hh h hmem l hl
  · exact fun h => ⟨fun i hi l hl => h l (.inl ⟨i, hi, hl⟩), fun k hk l hl => h l (.inr ⟨k, hk, hl⟩)⟩

theorem placeOf_map_mapLabels {s : Label → Label} (hs : Function.Injective s) (l : Label) :
    placeOf (L.map (·.mapLabels s)) (s l) = placeOf L l := by
  induction L using List.reverseRecOn with
  | nil => rfl
  | append_singleton L i ih =>
    rw [List.map_append, List.map_singleton]
    by_cases hi : ∃ l', i = .label l'
    · obtain ⟨l', rfl⟩ := hi
      have hlabel : (Instruction.label l').mapLabels s = .label (s l') := rfl
      rw [hlabel, placeOf_append_label, placeOf_append_label, List.length_map, ih]
      simp only [hs.eq_iff]
    · push Not at hi
      rw [placeOf_append_of_not_label (Instruction.mapLabels_ne_label hi), ih,
        placeOf_append_of_not_label hi]

theorem equivalentCode_rename {s₁ s₂ : Label → Label} (hs₁ : Function.Injective s₁)
    (hs₂ : Function.Injective s₂) :
    equivalentCode (L.map (·.mapLabels s₁)) (R.map (·.mapLabels s₂)) (HL.map (·.mapLabels s₁))
      (HR.map (·.mapLabels s₂)) = equivalentCode L R HL HR := by
  have h₁ := placeOf_map_mapLabels (L := L) hs₁
  have h₂ := placeOf_map_mapLabels (L := R) hs₂
  rw [Bool.eq_iff_iff, equivalentCode_iff, equivalentCode_iff,
    corresponds_map_iff (fun _ => Instruction.shape_mapLabels _ _)
      (fun _ => Instruction.shape_mapLabels _ _) (fun _ => Instruction.targets_mapLabels _ _)
      (fun _ => Instruction.targets_mapLabels _ _) h₁ h₂,
    corresponds_map_iff (fun _ => Handler.catchType_mapLabels _ _)
      (fun _ => Handler.catchType_mapLabels _ _) (fun _ => Handler.targets_mapLabels _ _)
      (fun _ => Handler.targets_mapLabels _ _) h₁ h₂]

/-- Equivalence of bodies is a partial equivalence that ignores how labels are named: it is
symmetric and transitive, holds of a body and itself exactly when the body places every label
it branches to, and is unchanged by injective renamings of either side. -/
theorem equivalentCode_partialEquivalence :
    (∀ L R HL HR, equivalentCode L R HL HR = equivalentCode R L HR HL) ∧
    (∀ L M R HL HM HR, equivalentCode L M HL HM = true → equivalentCode M R HM HR = true →
      equivalentCode L R HL HR = true) ∧
    (∀ L H, equivalentCode L L H H = true ↔ ClosedBody L H) ∧
    (∀ s₁ s₂ : Label → Label, Function.Injective s₁ → Function.Injective s₂ → ∀ L R HL HR,
      equivalentCode (L.map (·.mapLabels s₁)) (R.map (·.mapLabels s₂)) (HL.map (·.mapLabels s₁))
        (HR.map (·.mapLabels s₂)) = equivalentCode L R HL HR) :=
  ⟨fun _ _ _ _ => equivalentCode_comm, fun _ _ _ _ _ _ => equivalentCode_trans,
    fun _ _ => equivalentCode_self_iff, fun _ _ hs₁ hs₂ _ _ _ _ => equivalentCode_rename hs₁ hs₂⟩

theorem equivalentCode_shiftedLoop :
    Function.Injective (fun l : Label => (⟨l.id + 1⟩ : Label)) ∧
      equivalentCode
        (([.label ⟨0⟩, .jump Opcode.goto ⟨0⟩] : List (Instruction Label)).map
          (·.mapLabels fun l => ⟨l.id + 1⟩))
        (([.label ⟨0⟩, .jump Opcode.goto ⟨0⟩] : List (Instruction Label)).map
          (·.mapLabels fun l => ⟨l.id + 1⟩))
        (([⟨⟨0⟩, ⟨0⟩, ⟨0⟩, none⟩] : List (Handler Label)).map (·.mapLabels fun l => ⟨l.id + 1⟩))
        (([⟨⟨0⟩, ⟨0⟩, ⟨0⟩, none⟩] : List (Handler Label)).map (·.mapLabels fun l => ⟨l.id + 1⟩)) =
      equivalentCode [.label ⟨0⟩, .jump Opcode.goto ⟨0⟩] [.label ⟨0⟩, .jump Opcode.goto ⟨0⟩]
        [⟨⟨0⟩, ⟨0⟩, ⟨0⟩, none⟩] [⟨⟨0⟩, ⟨0⟩, ⟨0⟩, none⟩] := by
  have shift : Function.Injective (fun l : Label => (⟨l.id + 1⟩ : Label)) := fun a b h => by
    cases a
    cases b
    simpa using h
  exact ⟨shift, equivalentCode_partialEquivalence.2.2.2 _ _ shift shift _ _ _ _⟩

end ClassPatch
