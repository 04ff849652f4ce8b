import ClassPatch.Delta.Difference
import ClassPatch.Delta.Error

namespace ClassPatch

def ClassMap.insertEntry (name : String) (c : ClassModel) :
    List (String × ClassModel) → List (String × ClassModel)
  | [] => [(name, c)]
  | (n, d) :: rest =>
    if name < n then (name, c) :: (n, d) :: rest
    else if name = n then (name, c) :: rest
    else (n, d) :: insertEntry name c rest

namespace ClassMap

theorem mem_insertEntry {name : String} {c : ClassModel} {p : String × ClassModel} :
    {es : List (String × ClassModel)} → p ∈ insertEntry name c es → p = (name, c) ∨ p ∈ es
  | [], h => by simpa [insertEntry] using h
  | (n, d) :: rest, h => by
    simp only [insertEntry] at h
    split at h
    · simpa using h
    · split at h <;> simp only [List.mem_cons] at h
      · rcases h with h | h <;> simp [h]
      · rcases h with h | h
        · simp [h]
        · rcases mem_insertEntry h with h | h <;> simp [h]

theorem pairwise_insertEntry {name : String} {c : ClassModel} :
    {es : List (String × ClassModel)} → es.Pairwise (fun a b => a.1 < b.1) →
      (insertEntry name c es).Pairwise (fun a b => a.1 < b.1)
  | [], _ => by simp [insertEntry]
  | (n, d) :: rest, h => by
    rw [List.pairwise_cons] at h
    simp only [insertEntry]
    split
    · next hlt =>
      refine .cons ?_ (.cons h.1 h.2)
      simp only [List.mem_cons, forall_eq_or_imp]
      exact ⟨hlt, fun p hp => String.lt_trans hlt (h.1 p hp)⟩
    · split
      · next heq => exact .cons (fun p hp => heq ▸ h.1 p hp) h.2
      · next hlt hne =>
        have hgt : n < name := String.not_le.mp fun hle => hne (String.le_antisymm hle hlt)
        refine .cons (fun p hp => ?_) (pairwise_insertEntry h.2)
        rcases mem_insertEntry hp with rfl | hp
        · exact hgt
        · exact h.1 p hp

end ClassMap

/-- Classes by name, in order of their names; a name holds one class. -/
structure ClassMap where
  entries : List (String × ClassModel) := []
  sorted : entries.Pairwise (fun a b => a.1 < b.1) := by exact .nil

instance : Inhabited ClassMap := ⟨{}⟩

namespace ClassMap

def insert (m : ClassMap) (name : String) (c : ClassModel) : ClassMap :=
  ⟨insertEntry name c m.entries, pairwise_insertEntry m.sorted⟩

/-- The class of a name. -/
def get? (m : ClassMap) (name : String) : Option ClassModel := m.entries.lookup name

/-- Whether a class of that name is held. -/
def contains (m : ClassMap) (name : String) : Bool := (m.get? name).isSome

/-- The names held, in order. -/
def names (m : ClassMap) : List String := m.entries.map (·.1)

/-- The classes held, in order of their names. -/
def classes (m : ClassMap) : List ClassModel := m.entries.map (·.2)

def ofList (cs : List ClassModel) : ClassMap := cs.foldl (fun m c => m.insert c.name c) {}

def erase (m : ClassMap) (name : String) : ClassMap :=
  ⟨m.entries.filter (·.1 != name), m.sorted.filter _⟩

def differingNames (a b : ClassMap) : List String :=
  let names := ((a.names ++ b.names).mergeSort fun x y => decide (x ≤ y)).eraseDups
  names.filter fun n => a.get? n != b.get? n

end ClassMap

def replaceFirst {α : Type} (p : α → Bool) (f : α → α) : List α → Option (List α)
  | [] => none
  | a :: rest =>
    if p a then some (f a :: rest) else (replaceFirst p f rest).map (a :: ·)

def eraseFirst {α : Type} (p : α → Bool) : List α → Option (List α)
  | [] => none
  | a :: rest => if p a then some rest else (eraseFirst p rest).map (a :: ·)

def missingField (cls name : String) : PatchError := .missingMember cls s!"field {name}"

def missingMethod (cls name descriptor : String) : PatchError :=
  .missingMember cls s!"method {name}{descriptor}"

namespace ClassModel

def putField (c : ClassModel) (f : FieldModel) : ClassModel :=
  match replaceFirst (·.name == f.name) (fun _ => f) c.fields with
  | some fields => { c with fields }
  | none => { c with fields := c.fields ++ [f] }

def putMethod (c : ClassModel) (m : MethodModel) : ClassModel :=
  match replaceFirst (fun x => x.name == m.name && x.descriptor == m.descriptor) (fun _ => m)
      c.methods with
  | some methods => { c with methods }
  | none => { c with methods := c.methods ++ [m] }

def removeField (c : ClassModel) (cls name : String) : Except PatchError ClassModel :=
  match eraseFirst (·.name == name) c.fields with
  | some fields => .ok { c with fields }
  | none => .error (missingField cls name)

def removeMethod (c : ClassModel) (cls name descriptor : String) : Except PatchError ClassModel :=
  match eraseFirst (fun y => y.name == name && y.descriptor == descriptor) c.methods with
  | some methods => .ok { c with methods }
  | none => .error (missingMethod cls name descriptor)

def changeField (c : ClassModel) (cls name : String) (f : FieldModel → FieldModel) :
    Except PatchError ClassModel :=
  match replaceFirst (·.name == name) f c.fields with
  | some fields => .ok { c with fields }
  | none => .error (missingField cls name)

def changeMethod (c : ClassModel) (cls name descriptor : String) (f : MethodModel → MethodModel) :
    Except PatchError ClassModel :=
  match replaceFirst (fun x => x.name == name && x.descriptor == descriptor) f c.methods with
  | some methods => .ok { c with methods }
  | none => .error (missingMethod cls name descriptor)

end ClassModel

def ClassMap.update (m : ClassMap) (name : String) (f : ClassModel → Except PatchError ClassModel) :
    Except PatchError ClassMap :=
  match m.get? name with
  | some c => return m.insert name (← f c)
  | none => .error (.missingClass name)

namespace Difference

def applyToClass (d : Difference) (x : ClassModel) : Except PatchError ClassModel :=
  match d with
  | .classAdded _ | .classRemoved _ => .ok x
  | .classAccessChanged _ _ new => .ok { x with access := new }
  | .classMetadataChanged change => .ok (change.applyTo x)
  | .classVersionChanged _ v => .ok { x with version := v }
  | .fieldAdded _ f => .ok (x.putField f)
  | .fieldRemoved c n => x.removeField c n
  | .fieldAccessChanged c n _ new => x.changeField c n fun f => { f with access := new }
  | .fieldDescriptorChanged c n d => x.changeField c n fun f => { f with descriptor := d }
  | .fieldSignatureChanged c n s => x.changeField c n fun f => { f with signature := s }
  | .fieldValueChanged c n v => x.changeField c n fun f => { f with value := v }
  | .methodAdded _ meth => .ok (x.putMethod meth)
  | .methodRemoved c n d => x.removeMethod c n d
  | .methodAccessChanged c n d _ new => x.changeMethod c n d fun y => { y with access := new }
  | .methodSignatureChanged c n d s => x.changeMethod c n d fun y => { y with signature := s }
  | .methodExceptionsChanged c n d e => x.changeMethod c n d fun y => { y with exceptions := e }
  | .methodAnnotationDefaultChanged c n d v =>
    x.changeMethod c n d fun y => { y with annotationDefault := v }
  | .methodMaxsChanged c n d s l =>
    x.changeMethod c n d fun y => { y with maxStack := s, maxLocals := l }
  | .methodInstructionsChanged c meth =>
    x.changeMethod c meth.name meth.descriptor fun y =>
      { y with instructions := meth.instructions, handlers := meth.handlers }

/-- Applies the difference to a set of classes. -/
def apply (d : Difference) (m : ClassMap) : Except PatchError ClassMap :=
  match d with
  | .classAdded added => .ok (m.insert added.cls.name added.cls)
  | .classRemoved c => if m.contains c then .ok (m.erase c) else .error (.missingClass c)
  | d => m.update d.className d.applyToClass

end Difference

/-- Applies differences in order, stopping at the first that does not fit. -/
def applyAll (ds : List Difference) (m : ClassMap) : Except PatchError ClassMap :=
  ds.foldlM (fun m d => d.apply m) m

end ClassPatch
