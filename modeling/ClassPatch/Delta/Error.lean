import ClassPatch.ClassFile.Error
import ClassPatch.Bytes.Hex
import ClassPatch.Json.Scan

namespace ClassPatch

namespace HexError

def message : HexError → String
  | .oddLength => "Odd number of digits"
  | .invalidCharacter byte position =>
    s!"Invalid character {Quoted.char (Char.ofNat byte.toNat)} at position {position}"

end HexError

/-- The three kinds of patch errors. -/
inductive PatchErrorKind where
  /-- The input is not what it claims to be. -/
  | malformed
  /-- The input is well-formed but does not fit. -/
  | verification
  /-- A payload is not valid hexadecimal. -/
  | encoding
  deriving DecidableEq, Repr, Inhabited

/-- The name of a kind in answers. -/
def PatchErrorKind.name : PatchErrorKind → String
  | .malformed => "Malformed"
  | .verification => "Verification"
  | .encoding => "Encoding"

/-- Why a patch cannot be written, read or applied. -/
inductive PatchError where
  | badClass (e : FormatError)
  /-- The patch document cannot be read: its envelope is not gzip, its text is not JSON, the
  text ends too soon, or the JSON has the wrong shape. -/
  | document (fault : ScanFault)
  | hex (e : HexError)
  | missingClass (name : String)
  | missingMember (cls : String) (member : String)
  /-- A method payload whose container class does not hold exactly one method. -/
  | badMethodContainer (count : Nat)
  deriving DecidableEq, Repr, Inhabited

namespace PatchError

/-- The kind of the error: a document of the wrong shape, and a patch that does not fit, are
well-formed input that fails verification. -/
def kind : PatchError → PatchErrorKind
  | .badClass _ => .malformed
  | .document .data => .verification
  | .document _ => .malformed
  | .hex _ => .encoding
  | .missingClass _ | .missingMember .. | .badMethodContainer _ => .verification

def variant : PatchError → String
  | .badClass _ => "Class"
  | .document _ => "Document"
  | .hex _ => "Hex"
  | .missingClass _ => "MissingClass"
  | .missingMember .. => "MissingMember"
  | .badMethodContainer _ => "BadMethodContainer"

def message : PatchError → String
  | .badClass e => "bad class: " ++ e.message
  | .document f => "bad patch document: " ++ f.name
  | .hex e => "bad hex payload: " ++ e.message
  | .missingClass name => s!"class {name} does not exist"
  | .missingMember cls member => s!"{member} does not exist in class {cls}"
  | .badMethodContainer count =>
    s!"method payload should contain exactly one method, found {count}"

end PatchError

end ClassPatch
