import ClassPatch.JsonForm.Class
import ClassPatch.Delta.Difference
import ClassPatch.Bytes.Hex

namespace ClassPatch

namespace Difference

def kindName : Difference → String
  | .classAdded _ => "class_added"
  | .classRemoved _ => "class_removed"
  | .classAccessChanged .. => "class_access_changed"
  | .classMetadataChanged _ => "class_metadata_changed"
  | .classVersionChanged .. => "class_version_changed"
  | .fieldAdded .. => "field_added"
  | .fieldRemoved .. => "field_removed"
  | .fieldAccessChanged .. => "field_access_changed"
  | .fieldDescriptorChanged .. => "field_descriptor_changed"
  | .fieldSignatureChanged .. => "field_signature_changed"
  | .fieldValueChanged .. => "field_value_changed"
  | .methodAdded .. => "method_added"
  | .methodRemoved .. => "method_removed"
  | .methodAccessChanged .. => "method_access_changed"
  | .methodSignatureChanged .. => "method_signature_changed"
  | .methodExceptionsChanged .. => "method_exceptions_changed"
  | .methodAnnotationDefaultChanged .. => "method_annotation_default_changed"
  | .methodMaxsChanged .. => "method_maxs_changed"
  | .methodInstructionsChanged .. => "method_instructions_changed"

end Difference

namespace MetadataChange

def toJson (c : MetadataChange) : Json :=
  .obj (("class", .str c.className) :: c.entries.filterMap fun (key, change) =>
    change.map fun value => (key, Json.opt .str value))

end MetadataChange

namespace Difference

def detailJson : Difference → List (String × Json)
  | .classAdded added =>
    [("class", added.cls.toJson), ("class_file", Json.opt (fun b => .str (Hex.encode b)) added.classFile)]
  | .classRemoved _ => []
  | .classAccessChanged _ old new => [("old", .int old.toNat), ("new", .int new.toNat)]
  | .classMetadataChanged change => [("change", change.toJson)]
  | .classVersionChanged _ v => [("version", v.toJson)]
  | .fieldAdded _ f => [("field", f.toJson)]
  | .fieldRemoved _ n => [("name", .str n)]
  | .fieldAccessChanged _ n old new => [("name", .str n), ("old", .int old.toNat), ("new", .int new.toNat)]
  | .fieldDescriptorChanged _ n d => [("name", .str n), ("descriptor", .str d)]
  | .fieldSignatureChanged _ n s => [("name", .str n), ("signature", Json.opt .str s)]
  | .fieldValueChanged _ n v => [("name", .str n), ("value", Json.opt Constant.toJson v)]
  | .methodAdded _ m => [("method", m.toJson)]
  | .methodRemoved _ n d => [("name", .str n), ("descriptor", .str d)]
  | .methodAccessChanged _ n d old new =>
    [("name", .str n), ("descriptor", .str d), ("old", .int old.toNat), ("new", .int new.toNat)]
  | .methodSignatureChanged _ n d s =>
    [("name", .str n), ("descriptor", .str d), ("signature", Json.opt .str s)]
  | .methodExceptionsChanged _ n d e =>
    [("name", .str n), ("descriptor", .str d), ("exceptions", Json.strings e)]
  | .methodAnnotationDefaultChanged _ n d v =>
    [("name", .str n), ("descriptor", .str d), ("value", Json.opt ElementValue.toJson v)]
  | .methodMaxsChanged _ n d s l =>
    [("name", .str n), ("descriptor", .str d), ("max_stack", .int s.toNat), ("max_locals", .int l.toNat)]
  | .methodInstructionsChanged _ m => [("method", m.toJson)]

def toJson (d : Difference) : Json :=
  .obj ([("kind", .str d.kindName), ("target", .str d.className),
    ("runtime_appliable", .bool d.isRuntimeAppliable), ("side_channel", .bool d.requiresSideChannel),
    ("display", .str d.display)] ++ d.detailJson)

end Difference

end ClassPatch
