namespace ClassPatch

/-- The type of one local variable or stack slot. -/
inductive VerificationType (C U : Type) where
  | top
  | integer
  | float
  | double
  | long
  | null
  /-- The receiver of a constructor before the super constructor has run. -/
  | uninitializedThis
  | object (cls : C)
  /-- An object created by the `new` at `site` whose constructor has not run yet. -/
  | uninitialized (site : U)
  deriving DecidableEq, BEq, Repr, Inhabited

/-- The types at one point of a method, relative to the frame before. -/
inductive Frame (C U : Type) where
  | same
  | sameLocalsOneStack (stack : VerificationType C U)
  /-- The locals of the frame before, without the last `k`. -/
  | chop (k : UInt8)
  | append (locals : List (VerificationType C U))
  | full (locals : List (VerificationType C U)) (stack : List (VerificationType C U))
  deriving DecidableEq, BEq, Repr, Inhabited

namespace VerificationType

variable {C U C' U' : Type} {m : Type → Type} [Monad m]

/-- Renames classes and objects with effects. -/
def mapM (f : C → m C') (g : U → m U') : VerificationType C U → m (VerificationType C' U')
  | .top => pure .top
  | .integer => pure .integer
  | .float => pure .float
  | .double => pure .double
  | .long => pure .long
  | .null => pure .null
  | .uninitializedThis => pure .uninitializedThis
  | .object c => return .object (← f c)
  | .uninitialized u => return .uninitialized (← g u)

/-- Renames classes and objects. -/
def map (f : C → C') (g : U → U') : VerificationType C U → VerificationType C' U'
  | .top => .top
  | .integer => .integer
  | .float => .float
  | .double => .double
  | .long => .long
  | .null => .null
  | .uninitializedThis => .uninitializedThis
  | .object c => .object (f c)
  | .uninitialized u => .uninitialized (g u)

def sites : VerificationType C U → List U
  | .uninitialized u => [u]
  | _ => []

end VerificationType

namespace Frame

variable {C U C' U' : Type} {m : Type → Type} [Monad m]

/-- Renames classes and objects in every type of the frame with effects, in order: the stack
item, the appended locals, or the locals and then the stack. -/
def mapM (f : C → m C') (g : U → m U') : Frame C U → m (Frame C' U')
  | .same => pure .same
  | .sameLocalsOneStack t => return .sameLocalsOneStack (← t.mapM f g)
  | .chop k => pure (.chop k)
  | .append locals => return .append (← locals.mapM (VerificationType.mapM f g))
  | .full locals stack => do
    let l ← locals.mapM (VerificationType.mapM f g)
    let s ← stack.mapM (VerificationType.mapM f g)
    pure (.full l s)

/-- Renames classes and objects in every type of the frame. -/
def map (f : C → C') (g : U → U') : Frame C U → Frame C' U'
  | .same => .same
  | .sameLocalsOneStack t => .sameLocalsOneStack (t.map f g)
  | .chop k => .chop k
  | .append locals => .append (locals.map (VerificationType.map f g))
  | .full locals stack =>
    .full (locals.map (VerificationType.map f g)) (stack.map (VerificationType.map f g))

def sites : Frame C U → List U
  | .same => []
  | .sameLocalsOneStack t => t.sites
  | .chop _ => []
  | .append locals => locals.flatMap VerificationType.sites
  | .full locals stack => locals.flatMap VerificationType.sites ++ stack.flatMap VerificationType.sites

end Frame

end ClassPatch
