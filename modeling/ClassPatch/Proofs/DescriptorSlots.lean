import ClassPatch.Bytecode.Layout

/-!
The arguments of a method descriptor as a grammar. A field type is a base type, a class name
between `L` and `;`, or `[` before a field type; the arguments are field types one after the
other. The slots of `invokeinterface` are counted for exactly the descriptors that start with `(`
and whose text up to the first `)` is such a sequence: two slots for `long` and `double`, one for
every other type, arrays of them included, and one for the receiver, as long as the count fits a
byte. Every other descriptor is refused as a bad descriptor.
-/

namespace ClassPatch

namespace Descriptor

def baseTypes : List Char := ['B', 'C', 'D', 'F', 'I', 'J', 'S', 'Z']

def baseSlots (c : Char) : Nat := if c = 'J' ∨ c = 'D' then 2 else 1

/-- A field type, with the slots a value of it takes. -/
inductive FieldType : List Char → Nat → Prop
  | base {c : Char} : c ∈ baseTypes → FieldType [c] (baseSlots c)
  | object {name : List Char} : ';' ∉ name → FieldType ('L' :: name ++ [';']) 1
  | array {element : List Char} {s : Nat} : FieldType element s → FieldType ('[' :: element) 1

/-- Field types one after the other, with the slots they take together. -/
inductive FieldTypes : List Char → Nat → Prop
  | nil : FieldTypes [] 0
  | cons {t rest : List Char} {a s : Nat} : FieldType t a → FieldTypes rest s →
      FieldTypes (t ++ rest) (a + s)

/-- The descriptor starts with `(`, and its text up to the first `)` is field types that take
`s` slots. -/
def Arguments (d : String) (s : Nat) : Prop :=
  ∃ args rest, d.toList = '(' :: args ++ ')' :: rest ∧ ')' ∉ args ∧ FieldTypes args s

end Descriptor

namespace SlotScan

open Descriptor

def Accepts : SlotScan → List Char → Nat → Prop
  | .start, cs, s => FieldTypes cs s
  | .object, cs, s => ∃ name rest, cs = name ++ ';' :: rest ∧ ';' ∉ name ∧ FieldTypes rest s
  | .array, cs, s =>
    ∃ element rest a, cs = element ++ rest ∧ FieldType element a ∧ FieldTypes rest s

theorem accepts_of_count {q : SlotScan} {n m : Nat} {cs : List Char} (h : count q n cs = some m) :
    ∃ s, q.Accepts cs s ∧ m = n + s := by
  fun_induction count q n cs with
  | case1 n => exact ⟨0, .nil, (Option.some.inj h).symm⟩
  | case2 n c rest hc ih =>
    obtain ⟨s, hs, rfl⟩ := ih h
    have hslots : baseSlots c = 2 := if_pos hc
    refine ⟨2 + s, ?_, by omega⟩
    exact hslots ▸ FieldTypes.cons (t := [c]) (.base (by rcases hc with rfl | rfl <;> decide)) hs
  | case3 n c rest hwide hc ih =>
    obtain ⟨s, hs, rfl⟩ := ih h
    have hslots : baseSlots c = 1 := if_neg hwide
    refine ⟨1 + s, ?_, by omega⟩
    refine hslots ▸ FieldTypes.cons (t := [c]) (.base ?_) hs
    simp only [List.mem_cons, List.not_mem_nil, or_false] at hc
    rcases hc with rfl | rfl | rfl | rfl | rfl | rfl <;> decide
  | case4 n rest _ _ ih =>
    obtain ⟨s, ⟨name, rest', rfl, hname, hs⟩, rfl⟩ := ih h
    refine ⟨1 + s, ?_, by omega⟩
    have hcs : 'L' :: (name ++ ';' :: rest') = ('L' :: name ++ [';']) ++ rest' := by simp
    exact hcs ▸ FieldTypes.cons (.object hname) hs
  | case5 n rest _ _ _ ih =>
    obtain ⟨s, ⟨element, rest', a, rfl, he, hs⟩, rfl⟩ := ih h
    exact ⟨1 + s, FieldTypes.cons (t := '[' :: element) (.array he) hs, by omega⟩
  | case6 | case7 | case10 | case14 => cases h
  | case8 n rest ih =>
    obtain ⟨s, hs, rfl⟩ := ih h
    exact ⟨s, ⟨[], rest, rfl, List.not_mem_nil, hs⟩, rfl⟩
  | case9 n c rest hc ih =>
    obtain ⟨s, ⟨name, rest', rfl, hname, hs⟩, rfl⟩ := ih h
    refine ⟨s, ⟨c :: name, rest', rfl, ?_, hs⟩, rfl⟩
    simpa [eq_comm] using And.intro hc hname
  | case11 n rest ih =>
    obtain ⟨s, ⟨element, rest', a, rfl, he, hs⟩, rfl⟩ := ih h
    exact ⟨s, ⟨'[' :: element, rest', 1, rfl, .array he, hs⟩, rfl⟩
  | case12 n rest _ ih =>
    obtain ⟨s, ⟨name, rest', rfl, hname, hs⟩, rfl⟩ := ih h
    exact ⟨s, ⟨'L' :: name ++ [';'], rest', 1, by simp, .object hname, hs⟩, rfl⟩
  | case13 n c rest _ _ hc ih =>
    obtain ⟨s, hs, rfl⟩ := ih h
    exact ⟨s, ⟨[c], rest, baseSlots c, rfl, .base hc, hs⟩, rfl⟩

theorem count_object_append {name : List Char} (hname : ';' ∉ name) (n : Nat) (rest : List Char) :
    count .object n (name ++ ';' :: rest) = count .start n rest := by
  induction name with
  | nil => simp [count]
  | cons c name ih =>
    have hc : c ≠ ';' := fun hc => hname (hc ▸ List.mem_cons_self)
    simp only [List.cons_append, count, if_neg hc]
    exact ih fun h => hname (List.mem_cons_of_mem c h)

theorem count_array_append {element : List Char} {a : Nat} (he : FieldType element a) (n : Nat)
    (rest : List Char) : count .array n (element ++ rest) = count .start n rest := by
  induction he with
  | @base c hc =>
    have hne : c ≠ '[' ∧ c ≠ 'L' := by
      simp only [baseTypes, List.mem_cons, List.not_mem_nil, or_false] at hc
      rcases hc with rfl | rfl | rfl | rfl | rfl | rfl | rfl | rfl <;> decide
    simp only [List.cons_append, List.nil_append, count, if_neg hne.1, if_neg hne.2]
    exact if_pos hc
  | object hname =>
    simp only [List.cons_append, List.append_assoc, count]
    exact count_object_append hname n rest
  | array _ ih =>
    simp only [List.cons_append, count, if_pos]
    exact ih

theorem count_fieldType {t : List Char} {a : Nat} (ht : FieldType t a) (n : Nat) (rest : List Char) :
    count .start n (t ++ rest) = count .start (n + a) rest := by
  cases ht with
  | @base c hc =>
    simp only [baseTypes, List.mem_cons, List.not_mem_nil, or_false] at hc
    rcases hc with rfl | rfl | rfl | rfl | rfl | rfl | rfl | rfl <;> simp [count, baseSlots]
  | object hname =>
    simp only [List.cons_append, List.append_assoc, count]
    exact count_object_append hname (n + 1) rest
  | array he =>
    simp only [List.cons_append, count]
    exact count_array_append he (n + 1) rest

theorem count_of_fieldTypes {cs : List Char} {s : Nat} (h : FieldTypes cs s) (n : Nat) :
    count .start n cs = some (n + s) := by
  induction h generalizing n with
  | nil => rfl
  | cons ht _ ih => rw [count_fieldType ht, ih, Nat.add_assoc]

theorem count_of_accepts {q : SlotScan} {cs : List Char} {s : Nat} (h : q.Accepts cs s) (n : Nat) :
    count q n cs = some (n + s) := by
  cases q with
  | start => exact count_of_fieldTypes h n
  | object =>
    obtain ⟨name, rest, rfl, hname, hs⟩ := h
    rw [count_object_append hname]
    exact count_of_fieldTypes hs n
  | array =>
    obtain ⟨element, rest, a, rfl, he, hs⟩ := h
    rw [count_array_append he]
    exact count_of_fieldTypes hs n

theorem count_eq_some_iff {q : SlotScan} {n m : Nat} {cs : List Char} :
    count q n cs = some m ↔ ∃ s, q.Accepts cs s ∧ m = n + s :=
  ⟨accepts_of_count, fun ⟨_, hs, hm⟩ => hm ▸ count_of_accepts hs n⟩

end SlotScan

section FirstParenthesis

variable {args rest cs : List Char}

theorem takeWhile_first (h : ')' ∉ args) : (args ++ ')' :: rest).takeWhile (· ≠ ')') = args := by
  have hall : ∀ c ∈ args, decide (c ≠ ')') = true := fun c hc => by
    have : c ≠ ')' := fun he => h (he ▸ hc)
    simpa using this
  rw [List.takeWhile_append_of_pos hall]
  simp

theorem exists_first_of_mem (h : ')' ∈ cs) : ∃ args rest, cs = args ++ ')' :: rest ∧ ')' ∉ args := by
  induction cs with
  | nil => cases h
  | cons c cs ih =>
    by_cases hc : c = ')'
    · exact ⟨[], cs, by rw [hc]; rfl, List.not_mem_nil⟩
    · obtain ⟨args, rest, rfl, hargs⟩ := ih ((List.mem_cons.mp h).resolve_left (Ne.symm hc))
      exact ⟨c :: args, rest, rfl, by simpa [eq_comm] using And.intro hc hargs⟩

end FirstParenthesis

open Descriptor in
theorem argumentSlots_eq_ok_iff {d : String} {k : UInt8} :
    argumentSlots d = .ok k ↔ ∃ s, Arguments d s ∧ 1 + s ≤ 255 ∧ k.toNat = 1 + s := by
  constructor
  · intro h
    unfold argumentSlots at h
    split at h
    next rest hd =>
      by_cases hmem : ')' ∈ rest
      · obtain ⟨args, tail, rfl, hargs⟩ := exists_first_of_mem hmem
        simp only [hmem, if_true, takeWhile_first hargs] at h
        cases hn : SlotScan.count .start 1 args with
        | none => simp [hn] at h
        | some n =>
          obtain ⟨s, hs, rfl⟩ := SlotScan.count_eq_some_iff.mp hn
          by_cases hlt : 1 + s < 256
          · simp only [hn, hlt, if_true, Except.ok.injEq] at h
            subst h
            refine ⟨s, ⟨args, tail, hd, hargs, hs⟩, by omega, ?_⟩
            simp only [Nat.toUInt8_eq, UInt8.toNat_ofNat', Nat.reducePow]
            omega
          · simp [hn, hlt] at h
      · simp [hmem] at h
    next => simp at h
  · rintro ⟨s, ⟨args, tail, hd, hargs, hs⟩, hle, hk⟩
    have hcount : SlotScan.count .start 1 args = some (1 + s) :=
      SlotScan.count_eq_some_iff.mpr ⟨s, hs, rfl⟩
    have hmem : ')' ∈ args ++ ')' :: tail := List.mem_append_right args List.mem_cons_self
    have hlt : 1 + s < 256 := by omega
    have hkeq : (1 + s).toUInt8 = k := UInt8.toNat_inj.mp (by simp [hk]; omega)
    unfold argumentSlots
    split
    next rest hrest =>
      obtain rfl := (List.cons.inj (hd.symm.trans hrest)).2
      simp only [List.append_eq, hmem, if_true, takeWhile_first hargs, hcount, hlt, hkeq]
    next hnot => exact absurd hd (hnot _)

theorem argumentSlots_error {d : String} {e : FormatError} (h : argumentSlots d = .error e) :
    e = .badDescriptor d := by
  unfold argumentSlots at h
  split at h
  next rest _ =>
    by_cases hmem : ')' ∈ rest
    · simp only [hmem, if_true] at h
      split at h
      · split at h
        · cases h
        · simp at h
          exact h.symm
      · simp at h
        exact h.symm
    · simp [hmem] at h
      exact h.symm
  next =>
    simp at h
    exact h.symm

open Descriptor in
/-- The slot count of `invokeinterface` is defined for exactly the descriptors whose arguments
are field types, with one slot for the receiver and two for each `long` and `double`, as long as
the count fits a byte; every other descriptor is refused, named in the error. -/
theorem argumentSlots_iff_field_types (d : String) :
    (∀ k : UInt8, argumentSlots d = .ok k ↔ ∃ s, Arguments d s ∧ 1 + s ≤ 255 ∧ k.toNat = 1 + s) ∧
    ((¬ ∃ s, Arguments d s ∧ 1 + s ≤ 255) → argumentSlots d = .error (.badDescriptor d)) := by
  refine ⟨fun k => argumentSlots_eq_ok_iff, fun hnone => ?_⟩
  cases h : argumentSlots d with
  | ok k =>
    obtain ⟨s, hs, hle, -⟩ := argumentSlots_eq_ok_iff.mp h
    exact absurd ⟨s, hs, hle⟩ hnone
  | error e => rw [argumentSlots_error h]

theorem argumentSlots_interface_samples :
    (∃ s, Descriptor.Arguments "(IJLjava/lang/String;[[D)V" s ∧ 1 + s ≤ 255 ∧
      (6 : UInt8).toNat = 1 + s) ∧
    argumentSlots "(Ljava/lang/String" = .error (.badDescriptor "(Ljava/lang/String") := by
  refine ⟨((argumentSlots_iff_field_types _).1 6).1 rfl,
    (argumentSlots_iff_field_types _).2 ?_⟩
  rintro ⟨s, ⟨args, rest, hd, -⟩, -⟩
  have hclose : ')' ∈ "(Ljava/lang/String".toList := by
    rw [hd]
    simp
  revert hclose
  decide

end ClassPatch
