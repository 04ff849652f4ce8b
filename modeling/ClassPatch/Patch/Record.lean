import ClassPatch.Patch.Shape
import ClassPatch.Patch.Payload
import ClassPatch.JsonForm.Constant
import ClassPatch.JsonForm.Difference

namespace ClassPatch

/-- A difference as a document holds it: a difference whose payloads are not read yet. -/
inductive Record where
  /-- A difference without a payload. -/
  | plain (d : Difference)
  /-- An added class, as a class payload. -/
  | classAdded (payload : String)
  /-- An added method, as a method payload. -/
  | methodAdded (cls : String) (payload : String)
  /-- A method whose instructions changed, as a method payload. -/
  | methodInstructionsChanged (cls : String) (payload : String)
  deriving Repr, Inhabited

namespace Record

def kinds : List String :=
  ["class_added", "class_removed", "class_access_changed", "class_metadata_changed",
   "class_version_changed", "field_added", "field_removed", "field_access_changed",
   "field_descriptor_changed", "field_signature_changed", "field_value_changed", "method_added",
   "method_removed", "method_access_changed", "method_signature_changed",
   "method_exceptions_changed", "method_annotation_default_changed", "method_maxs_changed",
   "method_instructions_changed"]

open Shape in
def ofContent (kind : String) (j : Json) : Option Record :=
  match kind with
  | "class_added" => do
    match (← fields ["class"] j).2 with
    | [c] => pure (.classAdded (← need str c))
    | _ => none
  | "class_removed" => do
    match (← fields ["class"] j).2 with
    | [c] => pure (.plain (.classRemoved (← need str c)))
    | _ => none
  | "class_access_changed" => do
    match (← fields ["class", "old", "new"] j).2 with
    | [c, old, new] =>
      pure (.plain (.classAccessChanged (← need str c) (← need (flags FlagNames.ofClass) old)
        (← need (flags FlagNames.ofClass) new)))
    | _ => none
  | "class_metadata_changed" => (metadataChange j).map (.plain ∘ .classMetadataChanged)
  | "class_version_changed" => do
    match (← fields ["class", "version"] j).2 with
    | [c, v] => pure (.plain (.classVersionChanged (← need str c) (← need version v)))
    | _ => none
  | "field_added" => do
    match (← fields ["class", "field"] j).2 with
    | [c, f] => pure (.plain (.fieldAdded (← need str c) (← need field f)))
    | _ => none
  | "field_removed" => do
    match (← fields ["class", "name"] j).2 with
    | [c, n] => pure (.plain (.fieldRemoved (← need str c) (← need str n)))
    | _ => none
  | "field_access_changed" => do
    match (← fields ["class", "name", "old", "new"] j).2 with
    | [c, n, old, new] =>
      pure (.plain (.fieldAccessChanged (← need str c) (← need str n)
        (← need (flags FlagNames.ofField) old) (← need (flags FlagNames.ofField) new)))
    | _ => none
  | "field_descriptor_changed" => do
    match (← fields ["class", "name", "descriptor"] j).2 with
    | [c, n, d] => pure (.plain (.fieldDescriptorChanged (← need str c) (← need str n) (← need str d)))
    | _ => none
  | "field_signature_changed" => do
    let (positional, v) ← fields ["class", "name", "signature"] j
    match v with
    | [c, n, s] =>
      pure (.plain (.fieldSignatureChanged (← need str c) (← need str n)
        (← optional positional str s)))
    | _ => none
  | "field_value_changed" => do
    let (positional, v) ← fields ["class", "name", "value"] j
    match v with
    | [c, n, value] =>
      pure (.plain (.fieldValueChanged (← need str c) (← need str n)
        (← optional positional constant value)))
    | _ => none
  | "method_added" => do
    match (← fields ["class", "method"] j).2 with
    | [c, m] => pure (.methodAdded (← need str c) (← need str m))
    | _ => none
  | "method_removed" => do
    match (← fields ["class", "name", "descriptor"] j).2 with
    | [c, n, d] => pure (.plain (.methodRemoved (← need str c) (← need str n) (← need str d)))
    | _ => none
  | "method_access_changed" => do
    match (← fields ["class", "name", "descriptor", "old", "new"] j).2 with
    | [c, n, d, old, new] =>
      pure (.plain (.methodAccessChanged (← need str c) (← need str n) (← need str d)
        (← need (flags FlagNames.ofMethod) old) (← need (flags FlagNames.ofMethod) new)))
    | _ => none
  | "method_signature_changed" => do
    let (positional, v) ← fields ["class", "name", "descriptor", "signature"] j
    match v with
    | [c, n, d, s] =>
      pure (.plain (.methodSignatureChanged (← need str c) (← need str n) (← need str d)
        (← optional positional str s)))
    | _ => none
  | "method_exceptions_changed" => do
    match (← fields ["class", "name", "descriptor", "exceptions"] j).2 with
    | [c, n, d, e] =>
      pure (.plain (.methodExceptionsChanged (← need str c) (← need str n) (← need str d)
        (← need (list str) e)))
    | _ => none
  | "method_annotation_default_changed" => do
    let (positional, v) ← fields ["class", "name", "descriptor", "value"] j
    match v with
    | [c, n, d, value] =>
      pure (.plain (.methodAnnotationDefaultChanged (← need str c) (← need str n) (← need str d)
        (← optional positional element value)))
    | _ => none
  | "method_maxs_changed" => do
    match (← fields ["class", "name", "descriptor", "max_stack", "max_locals"] j).2 with
    | [c, n, d, s, l] =>
      pure (.plain (.methodMaxsChanged (← need str c) (← need str n) (← need str d)
        (← need u16 s) (← need u16 l)))
    | _ => none
  | "method_instructions_changed" => do
    match (← fields ["class", "method"] j).2 with
    | [c, m] => pure (.methodInstructionsChanged (← need str c) (← need str m))
    | _ => none
  | _ => none

def resolve (hex : HexLibrary) (options : ReadOptions) : Record → Except PatchError Difference
  | .plain d => pure d
  | .classAdded payload => do
    let (cls, bytes) ← Payload.toClass hex options payload
    pure (.classAdded { cls, classFile := some bytes })
  | .methodAdded cls payload => do
    let m ← Payload.toMethod hex options payload
    pure (.methodAdded cls m)
  | .methodInstructionsChanged cls payload => do
    let m ← Payload.toMethod hex options payload
    pure (.methodInstructionsChanged cls m)

end Record

namespace Difference

def recordObject (kind : String) (members : List (String × Json)) : Json :=
  .obj (("kind", .str kind) :: members)

def flagText (names : FlagNames) (bits : UInt16) : Json := .str (names.render bits)

def fieldRecord (f : FieldModel) : Json :=
  .obj [("name", .str f.name), ("descriptor", .str f.descriptor),
    ("access_flags", flagText FlagNames.ofField f.access), ("signature", Json.opt .str f.signature),
    ("value", Json.opt Constant.toJson f.value)]

def toRecord (hex : HexLibrary) (d : Difference) : Except PatchError Json := do
  let kind := d.kindName
  match d with
  | .classAdded added =>
    let bytes ← Payload.ofAdded added
    pure (recordObject kind [("class", .str (Payload.ofBytes hex bytes))])
  | .classRemoved c => pure (recordObject kind [("class", .str c)])
  | .classAccessChanged c old new =>
    pure (recordObject kind [("class", .str c), ("old", flagText FlagNames.ofClass old),
      ("new", flagText FlagNames.ofClass new)])
  | .classMetadataChanged change =>
    match change.toJson with
    | .obj members => pure (recordObject kind members)
    | _ => pure (recordObject kind [])
  | .classVersionChanged c v =>
    pure (recordObject kind [("class", .str c), ("version",
      .obj [("major_version", .int v.major.toNat), ("minor_version", .int v.minor.toNat)])])
  | .fieldAdded c f => pure (recordObject kind [("class", .str c), ("field", fieldRecord f)])
  | .fieldRemoved c n => pure (recordObject kind [("class", .str c), ("name", .str n)])
  | .fieldAccessChanged c n old new =>
    pure (recordObject kind [("class", .str c), ("name", .str n),
      ("old", flagText FlagNames.ofField old), ("new", flagText FlagNames.ofField new)])
  | .fieldDescriptorChanged c n desc =>
    pure (recordObject kind [("class", .str c), ("name", .str n), ("descriptor", .str desc)])
  | .fieldSignatureChanged c n s =>
    pure (recordObject kind [("class", .str c), ("name", .str n), ("signature", Json.opt .str s)])
  | .fieldValueChanged c n v =>
    pure (recordObject kind [("class", .str c), ("name", .str n),
      ("value", Json.opt Constant.toJson v)])
  | .methodAdded c m => do
    let payload ← Payload.ofMethod hex m
    pure (recordObject kind [("class", .str c), ("method", .str payload)])
  | .methodRemoved c n desc =>
    pure (recordObject kind [("class", .str c), ("name", .str n), ("descriptor", .str desc)])
  | .methodAccessChanged c n desc old new =>
    pure (recordObject kind [("class", .str c), ("name", .str n), ("descriptor", .str desc),
      ("old", flagText FlagNames.ofMethod old), ("new", flagText FlagNames.ofMethod new)])
  | .methodSignatureChanged c n desc s =>
    pure (recordObject kind [("class", .str c), ("name", .str n), ("descriptor", .str desc),
      ("signature", Json.opt .str s)])
  | .methodExceptionsChanged c n desc e =>
    pure (recordObject kind [("class", .str c), ("name", .str n), ("descriptor", .str desc),
      ("exceptions", .arr (e.map .str))])
  | .methodAnnotationDefaultChanged c n desc v =>
    pure (recordObject kind [("class", .str c), ("name", .str n), ("descriptor", .str desc),
      ("value", Json.opt ElementValue.toJson v)])
  | .methodMaxsChanged c n desc s l =>
    pure (recordObject kind [("class", .str c), ("name", .str n), ("descriptor", .str desc),
      ("max_stack", .int s.toNat), ("max_locals", .int l.toNat)])
  | .methodInstructionsChanged c m => do
    let payload ← Payload.ofMethod hex m
    pure (recordObject kind [("class", .str c), ("method", .str payload)])

end Difference

end ClassPatch
