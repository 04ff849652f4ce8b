import ClassPatch.Delta.Apply
import ClassPatch.Bytecode.Equivalence
import ClassPatch.Model.Read

namespace ClassPatch

def compareField (cls : String) (old new : FieldModel) : List Difference :=
  (if old.access != new.access then [.fieldAccessChanged cls old.name old.access new.access]
    else []) ++
  (if old.descriptor != new.descriptor then [.fieldDescriptorChanged cls old.name new.descriptor]
    else []) ++
  (if old.signature != new.signature then [.fieldSignatureChanged cls old.name new.signature]
    else []) ++
  (if old.value != new.value then [.fieldValueChanged cls old.name new.value] else [])

def compareMethod (cls : String) (old new : MethodModel) : List Difference :=
  let n := old.name
  let d := old.descriptor
  (if old.access != new.access then [.methodAccessChanged cls n d old.access new.access]
    else []) ++
  (if old.signature != new.signature then [.methodSignatureChanged cls n d new.signature]
    else []) ++
  (if old.exceptions != new.exceptions then [.methodExceptionsChanged cls n d new.exceptions]
    else []) ++
  (if old.annotationDefault != new.annotationDefault then
    [.methodAnnotationDefaultChanged cls n d new.annotationDefault] else []) ++
  (if old.maxStack != new.maxStack || old.maxLocals != new.maxLocals then
    [.methodMaxsChanged cls n d new.maxStack new.maxLocals] else []) ++
  (if equivalentCode old.instructions new.instructions old.handlers new.handlers then []
    else [.methodInstructionsChanged cls new])

def findLast? {α : Type} (p : α → Bool) (xs : List α) : Option α := xs.reverse.find? p

def memberChanges {α κ : Type} [BEq κ] (key : α → κ) (compare : α → α → List Difference)
    (new : List α) (a : α) : List Difference :=
  match findLast? (key · == key a) new with
  | some b => compare a b
  | none => []

def memberDifferences {α κ : Type} [BEq κ] (key : α → κ) (removed added : α → Difference)
    (compare : α → α → List Difference) (old new : List α) : List Difference :=
  let has (xs : List α) (k : κ) := xs.any (key · == k)
  (old.filter (fun a => !has new (key a))).map removed ++
  (new.filter (fun b => !has old (key b))).map added ++
  old.flatMap (memberChanges key compare new)

def headerDifferences (old new : ClassModel) : List Difference :=
  (if old.access != new.access then [.classAccessChanged old.name old.access new.access]
    else []) ++
  ((MetadataChange.between old new).map Difference.classMetadataChanged).toList ++
  (if old.version != new.version then [.classVersionChanged old.name new.version] else [])

def compareClass (old new : ClassModel) : List Difference :=
  let cls := old.name
  headerDifferences old new ++
  memberDifferences FieldModel.name (fun f => .fieldRemoved cls f.name) (.fieldAdded cls)
    (compareField cls) old.fields new.fields ++
  memberDifferences MethodModel.key (fun m => .methodRemoved cls m.name m.descriptor)
    (.methodAdded cls) (compareMethod cls) old.methods new.methods

def classChanges (new : ClassMap) (n : String) (c : ClassModel) : List Difference :=
  match new.get? n with
  | some c' => compareClass c c'
  | none => []

/-- The differences between two sets of classes. -/
def diffClasses (old new : ClassMap) : List Difference :=
  let removed := old.names.filter (!new.contains ·)
  let added := new.entries.filter (!old.contains ·.1)
  removed.map .classRemoved ++ added.map (fun p => .classAdded { cls := p.2 }) ++
    old.entries.flatMap fun p => classChanges new p.1 p.2

/-- Classes read from class files, each with the bytes it was read from. -/
structure Snapshot where
  classes : ClassMap := default
  classFiles : List (String × List UInt8) := []
  deriving Inhabited

/-- How snapshots read classes: without line numbers. -/
def Snapshot.readOptions : ReadOptions := { skipDebug := true }

/-- Reads class files into a snapshot, taking them from the last to the first, so that of two
files of one class the first stays. The first file that fails to read, counting from the last,
is the error. -/
def Snapshot.load (buffers : List (List UInt8)) : Except PatchError Snapshot :=
  buffers.reverse.foldlM (fun s bytes =>
    match ClassModel.parse bytes readOptions with
    | .ok c => .ok { classes := s.classes.insert c.name c,
                     classFiles := (c.name, bytes) :: s.classFiles.filter (·.1 != c.name) }
    | .error e => .error (.badClass e)) {}

def Snapshot.diff (old new : Snapshot) : List Difference :=
  (diffClasses old.classes new.classes).map fun
    | .classAdded added =>
      .classAdded { added with classFile := new.classFiles.lookup added.cls.name }
    | d => d

end ClassPatch
