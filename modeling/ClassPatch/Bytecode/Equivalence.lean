import ClassPatch.Bytecode.Instruction

namespace ClassPatch

def placeOf (insns : List (Instruction Label)) (l : Label) : Option Nat :=
  (insns.zipIdx.foldl (fun found (i, position) =>
    match i with
    | .label l' => if l' = l then some position else found
    | _ => found) none)

/-- Labels of two bodies with their positions looked up. -/
structure Correspondence where
  left : Label → Option Nat
  right : Label → Option Nat

namespace Correspondence

def sameTarget (c : Correspondence) (l r : Label) : Bool :=
  match c.left l, c.right r with
  | some x, some y => x == y
  | _, _ => false

def sameTargets (c : Correspondence) (ls rs : List Label) : Bool :=
  ls.length == rs.length && (ls.zip rs).all fun (l, r) => c.sameTarget l r

def sameInstruction (c : Correspondence) (l r : Instruction Label) : Bool :=
  l.opcode? == r.opcode? && l.kindIndex == r.kindIndex &&
  match l, r with
  | .simple _, .simple _ => true
  | .int _ a, .int _ b => a == b
  | .var _ a, .var _ b => a == b
  | .type _ a, .type _ b => a == b
  | .field _ a, .field _ b => a == b
  | .method _ a, .method _ b => a == b
  | .invokeDynamic n d h args, .invokeDynamic n' d' h' args' =>
    n == n' && d == d' && h == h' && args == args'
  | .jump _ a, .jump _ b => c.sameTarget a b
  | .tableSwitch lo hi d ts, .tableSwitch lo' hi' d' ts' =>
    lo == lo' && hi == hi' && c.sameTarget d d' && c.sameTargets ts ts'
  | .lookupSwitch d ks ts, .lookupSwitch d' ks' ts' =>
    ks == ks' && c.sameTarget d d' && c.sameTargets ts ts'
  | .iinc i n, .iinc i' n' => i == i' && n == n'
  | .multiANewArray d n, .multiANewArray d' n' => d == d' && n == n'
  | .ldc a, .ldc b => a == b
  | .label _, .label _ | .lineNumber .., .lineNumber .. | .frame _, .frame _ => true
  | _, _ => false

def sameHandler (c : Correspondence) (l r : Handler Label) : Bool :=
  l.catchType == r.catchType && c.sameTarget l.start r.start && c.sameTarget l.«end» r.«end» &&
    c.sameTarget l.handler r.handler

end Correspondence

/-- Whether two method bodies are equivalent. -/
def equivalentCode (leftInsns rightInsns : List (Instruction Label))
    (leftHandlers rightHandlers : List (Handler Label)) : Bool :=
  leftInsns.length == rightInsns.length && leftHandlers.length == rightHandlers.length &&
    let c : Correspondence := { left := placeOf leftInsns, right := placeOf rightInsns }
    (leftInsns.zip rightInsns).all (fun (l, r) => c.sameInstruction l r) &&
      (leftHandlers.zip rightHandlers).all fun (l, r) => c.sameHandler l r

end ClassPatch
