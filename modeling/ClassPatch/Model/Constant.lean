import ClassPatch.ClassFile.PoolEntry

namespace ClassPatch

/-- A method handle: what it does and the member it refers to. For the field kinds the
descriptor is a field descriptor and `isInterface` does not count. -/
structure MethodHandle where
  kind : HandleKind
  owner : String
  name : String
  descriptor : String
  isInterface : Bool
  deriving DecidableEq, Repr, Inhabited, Hashable

/-- A constant that `ldc` can load or a bootstrap method can take. -/
inductive Constant where
  | integer (value : Int32)
  | float (bits : UInt32)
  | long (value : Int64)
  | double (bits : UInt64)
  | string (text : JavaString)
  /-- A class by its internal name or array descriptor. -/
  | classRef (name : String)
  | methodType (descriptor : String)
  | methodHandle (handle : MethodHandle)
  /-- A constant computed by a bootstrap method from its arguments. -/
  | dynamic (name : String) (descriptor : String) (bootstrap : MethodHandle)
      (arguments : List Constant)
  deriving Repr, Inhabited

namespace Constant

mutual

def beq : Constant → Constant → Bool
  | .integer a, .integer b => a == b
  | .float a, .float b => a == b
  | .long a, .long b => a == b
  | .double a, .double b => a == b
  | .string a, .string b => a == b
  | .classRef a, .classRef b => a == b
  | .methodType a, .methodType b => a == b
  | .methodHandle a, .methodHandle b => a == b
  | .dynamic n d h as, .dynamic n' d' h' bs => n == n' && d == d' && h == h' && beqList as bs
  | _, _ => false

def beqList : List Constant → List Constant → Bool
  | [], [] => true
  | a :: as, b :: bs => beq a b && beqList as bs
  | _, _ => false

end

instance : BEq Constant := ⟨beq⟩

theorem beq_self : (c : Constant) → beq c c = true
  | .integer _ | .float _ | .long _ | .double _ | .string _ | .classRef _ | .methodType _
  | .methodHandle _ => by simp [beq]
  | .dynamic _ _ _ as => by simp [beq, beqList_self as]
where
  beqList_self : (cs : List Constant) → beqList cs cs = true
    | [] => rfl
    | c :: cs => by simp [beqList, beq_self c, beqList_self cs]

theorem eq_of_beq : {a b : Constant} → beq a b = true → a = b
  | .integer _, b, h | .float _, b, h | .long _, b, h | .double _, b, h | .string _, b, h
  | .classRef _, b, h | .methodType _, b, h | .methodHandle _, b, h => by
    cases b <;> simp_all [beq]
  | .dynamic _ _ _ as, b, h => by
    cases b with
    | dynamic _ _ _ bs =>
      simp only [beq, Bool.and_eq_true, beq_iff_eq] at h
      obtain ⟨⟨⟨rfl, rfl⟩, rfl⟩, h⟩ := h
      rw [eq_of_beqList h]
    | _ => simp [beq] at h
where
  eq_of_beqList : {as bs : List Constant} → beqList as bs = true → as = bs
    | [], [], _ => rfl
    | a :: as, b :: bs, h => by
      simp only [beqList, Bool.and_eq_true] at h
      rw [eq_of_beq h.1, eq_of_beqList h.2]
    | [], _ :: _, h | _ :: _, [], h => by simp [beqList] at h

instance : LawfulBEq Constant where
  rfl {c} := beq_self c
  eq_of_beq := eq_of_beq

def isWide : Constant → Bool
  | .long _ | .double _ => true
  | .dynamic _ descriptor _ _ => descriptor == "J" || descriptor == "D"
  | _ => false

end Constant

/-- The value of an annotation element. The kinds narrower than `int` keep the whole `int` of
the pool, so a value reads and writes back to the same bytes. -/
inductive ElementValue where
  | byte (value : Int32)
  | char (value : Int32)
  | short (value : Int32)
  | boolean (value : Int32)
  | int (value : Int32)
  | long (value : Int64)
  | float (bits : UInt32)
  | double (bits : UInt64)
  | string (text : JavaString)
  /-- An enum constant by the enum's descriptor and the constant's name. -/
  | enum (descriptor : String) (name : String)
  /-- A class literal by its return descriptor. -/
  | classLiteral (descriptor : String)
  /-- A nested annotation: its type and its elements in order. -/
  | annotationValue (descriptor : String) (elements : List (String × ElementValue))
  | array (values : List ElementValue)
  deriving Repr, Inhabited

namespace ElementValue

mutual

def beq : ElementValue → ElementValue → Bool
  | .byte a, .byte b | .char a, .char b | .short a, .short b | .boolean a, .boolean b
  | .int a, .int b => a == b
  | .long a, .long b => a == b
  | .float a, .float b => a == b
  | .double a, .double b => a == b
  | .string a, .string b => a == b
  | .enum d n, .enum d' n' => d == d' && n == n'
  | .classLiteral a, .classLiteral b => a == b
  | .annotationValue d es, .annotationValue d' es' => d == d' && beqPairs es es'
  | .array vs, .array vs' => beqList vs vs'
  | _, _ => false

def beqPairs : List (String × ElementValue) → List (String × ElementValue) → Bool
  | [], [] => true
  | (n, v) :: es, (n', v') :: es' => n == n' && beq v v' && beqPairs es es'
  | _, _ => false

def beqList : List ElementValue → List ElementValue → Bool
  | [], [] => true
  | v :: vs, v' :: vs' => beq v v' && beqList vs vs'
  | _, _ => false

end

instance : BEq ElementValue := ⟨beq⟩

theorem beq_self : (v : ElementValue) → beq v v = true
  | .byte _ | .char _ | .short _ | .boolean _ | .int _ | .long _ | .float _ | .double _
  | .string _ | .enum _ _ | .classLiteral _ => by simp [beq]
  | .annotationValue _ es => by simp [beq, beqPairs_self es]
  | .array vs => by simp [beq, beqList_self vs]
where
  beqPairs_self : (es : List (String × ElementValue)) → beqPairs es es = true
    | [] => rfl
    | (_, v) :: es => by simp [beqPairs, beq_self v, beqPairs_self es]
  beqList_self : (vs : List ElementValue) → beqList vs vs = true
    | [] => rfl
    | v :: vs => by simp [beqList, beq_self v, beqList_self vs]

theorem eq_of_beq : {a b : ElementValue} → beq a b = true → a = b
  | .byte _, b, h | .char _, b, h | .short _, b, h | .boolean _, b, h | .int _, b, h
  | .long _, b, h | .float _, b, h | .double _, b, h | .string _, b, h | .enum _ _, b, h
  | .classLiteral _, b, h => by
    cases b <;> simp_all [beq]
  | .annotationValue _ es, b, h => by
    cases b with
    | annotationValue _ es' =>
      simp only [beq, Bool.and_eq_true, beq_iff_eq] at h
      obtain ⟨rfl, h⟩ := h
      rw [eq_of_beqPairs h]
    | _ => simp [beq] at h
  | .array vs, b, h => by
    cases b with
    | array vs' =>
      simp only [beq] at h
      rw [eq_of_beqList h]
    | _ => simp [beq] at h
where
  eq_of_beqPairs : {es es' : List (String × ElementValue)} → beqPairs es es' = true → es = es'
    | [], [], _ => rfl
    | (_, v) :: es, (_, v') :: es', h => by
      simp only [beqPairs, Bool.and_eq_true, beq_iff_eq] at h
      obtain ⟨⟨rfl, hv⟩, h⟩ := h
      rw [eq_of_beq hv, eq_of_beqPairs h]
    | [], _ :: _, h | _ :: _, [], h => by simp [beqPairs] at h
  eq_of_beqList : {vs vs' : List ElementValue} → beqList vs vs' = true → vs = vs'
    | [], [], _ => rfl
    | v :: vs, v' :: vs', h => by
      simp only [beqList, Bool.and_eq_true] at h
      rw [eq_of_beq h.1, eq_of_beqList h.2]
    | [], _ :: _, h | _ :: _, [], h => by simp [beqList] at h

instance : LawfulBEq ElementValue where
  rfl {v} := beq_self v
  eq_of_beq := eq_of_beq

end ElementValue

end ClassPatch
