import ClassPatch.Proofs.Interning
import ClassPatch.Model.Read

namespace ClassPatch

open Reader

theorem Int.bmod_eq_self_of_fits {x : Int} {m : Nat} (hm : 0 < m) (h₁ : -((m / 2 : Nat) : Int) ≤ x)
    (h₂ : x < ((m + 1) / 2 : Nat)) : x.bmod m = x :=
  (Int.bmod_eq_iff hm).mpr ⟨by exact_mod_cast h₁, by exact_mod_cast h₂, by simp⟩

theorem fitsSigned_iff (bits : Nat) (v : Int) :
    fitsSigned bits v = true ↔ -(Nat.pow 2 (bits - 1) : Int) ≤ v ∧ v < Nat.pow 2 (bits - 1) := by
  simp [fitsSigned]

section Branches

set_option maxRecDepth 8192

/-! Which test of the decoder a family of opcodes passes first: each lemma lists the tests before
its own, all failing. -/

theorem Opcode.variable_tests (c : UInt8) (h : Opcode.isVariable c = true) :
    Opcode.isSimple c = false ∧ (c == 16) = false ∧ (c == 17) = false ∧ (c == 188) = false ∧
      (c == 18) = false ∧ (c == 19 || c == 20) = false := by
  revert c
  decide

theorem Opcode.variable_ne_iinc (c : UInt8) (h : Opcode.isVariable c = true) : (c == 132) = false := by
  revert c
  decide

theorem Opcode.shortLoad_tests (c : UInt8) (h : (26 ≤ c && c ≤ 45) = true) :
    Opcode.isSimple c = false ∧ (c == 16) = false ∧ (c == 17) = false ∧ (c == 188) = false ∧
      (c == 18) = false ∧ (c == 19 || c == 20) = false ∧ Opcode.isVariable c = false := by
  revert c
  decide

theorem Opcode.shortStore_tests (c : UInt8) (h : (59 ≤ c && c ≤ 78) = true) :
    Opcode.isSimple c = false ∧ (c == 16) = false ∧ (c == 17) = false ∧ (c == 188) = false ∧
      (c == 18) = false ∧ (c == 19 || c == 20) = false ∧ Opcode.isVariable c = false ∧
      (26 ≤ c && c ≤ 45) = false := by
  revert c
  decide

theorem Opcode.shortJump_tests (c : UInt8) (h : Opcode.isShortJump c = true) :
    Opcode.isSimple c = false ∧ (c == 16) = false ∧ (c == 17) = false ∧ (c == 188) = false ∧
      (c == 18) = false ∧ (c == 19 || c == 20) = false ∧ Opcode.isVariable c = false ∧
      (26 ≤ c && c ≤ 45) = false ∧ (59 ≤ c && c ≤ 78) = false ∧ (c == 132) = false := by
  revert c
  decide

theorem Opcode.field_tests (c : UInt8) (h : (178 ≤ c && c ≤ 181) = true) :
    Opcode.isSimple c = false ∧ (c == 16) = false ∧ (c == 17) = false ∧ (c == 188) = false ∧
      (c == 18) = false ∧ (c == 19 || c == 20) = false ∧ Opcode.isVariable c = false ∧
      (26 ≤ c && c ≤ 45) = false ∧ (59 ≤ c && c ≤ 78) = false ∧ (c == 132) = false ∧
      Opcode.isShortJump c = false ∧ (c == 200) = false ∧ (c == 201) = false ∧
      (c == 170) = false ∧ (c == 171) = false := by
  revert c
  decide

theorem Opcode.method_tests (c : UInt8) (h : (182 ≤ c && c ≤ 184) = true) :
    Opcode.isSimple c = false ∧ (c == 16) = false ∧ (c == 17) = false ∧ (c == 188) = false ∧
      (c == 18) = false ∧ (c == 19 || c == 20) = false ∧ Opcode.isVariable c = false ∧
      (26 ≤ c && c ≤ 45) = false ∧ (59 ≤ c && c ≤ 78) = false ∧ (c == 132) = false ∧
      Opcode.isShortJump c = false ∧ (c == 200) = false ∧ (c == 201) = false ∧
      (c == 170) = false ∧ (c == 171) = false ∧ (178 ≤ c && c ≤ 181) = false := by
  revert c
  decide

theorem Opcode.type_tests (c : UInt8) (h : (c == 187 || c == 189 || c == 192 || c == 193) = true) :
    Opcode.isSimple c = false ∧ (c == 16) = false ∧ (c == 17) = false ∧ (c == 188) = false ∧
      (c == 18) = false ∧ (c == 19 || c == 20) = false ∧ Opcode.isVariable c = false ∧
      (26 ≤ c && c ≤ 45) = false ∧ (59 ≤ c && c ≤ 78) = false ∧ (c == 132) = false ∧
      Opcode.isShortJump c = false ∧ (c == 200) = false ∧ (c == 201) = false ∧
      (c == 170) = false ∧ (c == 171) = false ∧ (178 ≤ c && c ≤ 181) = false ∧
      (182 ≤ c && c ≤ 184) = false ∧ (c == 185) = false ∧ (c == 186) = false := by
  revert c
  decide

end Branches

theorem Int32.toInt_ofInt_of_fits {v : Int} (h : fitsSigned 32 v = true) : (Int32.ofInt v).toInt = v := by
  simp only [fitsSigned_iff, Nat.pow_eq, Nat.reduceSub, Nat.reducePow, Nat.cast_ofNat] at h
  rw [Int32.toInt_ofInt, Int.bmod_eq_self_of_fits (by decide)] <;> simp only [Int32.size] <;> omega

namespace Reader

theorem reads_relativeOffsets (base : Nat) {ds : List Int} (hds : ∀ d ∈ ds, fitsSigned 32 d = true) :
    Reads (relativeOffsets base ds.length) (ds.flatMap (BigEndian.int 4)) (ds.map ((base : Int) + ·)) := by
  have ht : Reads (times (do let d ← i32; pure ((base : Int) + d.toInt)) ds.length)
      (ds.flatMap (BigEndian.int 4)) (ds.map ((base : Int) + ·)) :=
    reads_times_map fun d hd => (reads_i32 d).bind_pure.of_eq
      (by rw [Int32.toInt_ofInt_of_fits (hds d hd)])
  intro rest
  have hlen : ¬ (ds.flatMap (BigEndian.int 4) ++ rest).length < 4 * ds.length := by
    simp [List.length_flatMap]
    omega
  simp only [relativeOffsets, Reader.run, StateT.run, hlen, ↓reduceIte]
  exact ht rest

theorem reads_keyedOffsets (base : Nat) {keys : List Int32} {ds : List Int}
    (hlen : keys.length = ds.length) (hds : ∀ d ∈ ds, fitsSigned 32 d = true) :
    Reads (keyedOffsets base keys.length)
      ((keys.zip ds).flatMap fun p => BigEndian.int 4 p.1.toInt ++ BigEndian.int 4 p.2)
      ((keys.zip ds).map fun p => (p.1, (base : Int) + p.2)) := by
  have hzip : (keys.zip ds).length = keys.length := by simp [hlen]
  have ht : Reads (times (do let k ← i32; let d ← i32; pure (k, (base : Int) + d.toInt)) (keys.zip ds).length)
      ((keys.zip ds).flatMap fun p => BigEndian.int 4 p.1.toInt ++ BigEndian.int 4 p.2)
      ((keys.zip ds).map fun p => (p.1, (base : Int) + p.2)) :=
    reads_times_map fun p hp => ((reads_i32 p.1.toInt).bind (reads_i32 p.2).bind_pure).of_eq
      (by rw [Int32.ofInt_toInt, Int32.toInt_ofInt_of_fits (hds p.2 (List.of_mem_zip hp).2)])
  rw [hzip] at ht
  intro rest
  have hbytes : ¬ ((keys.zip ds).flatMap (fun p => BigEndian.int 4 p.1.toInt ++ BigEndian.int 4 p.2) ++
      rest).length < 8 * keys.length := by
    simp [List.length_flatMap, hzip]
    omega
  simp only [keyedOffsets, Reader.run, StateT.run, hbytes, ↓reduceIte]
  exact ht rest

end Reader

namespace Resolver

variable (r : Resolver) (o : Nat)

theorem reads_simple {op : Opcode} (h : Opcode.isSimple op.code = true) :
    Reads (r.instructionAt o) [op.code] (.simple op) := by
  unfold instructionAt
  refine Reads.u8_bind ?_
  simp only [h, ↓reduceIte]
  exact Reads.pure _

theorem reads_bipush {v : Int32} (hv : fitsSigned 8 v.toInt = true) :
    Reads (r.instructionAt o) [0x10, (BigEndian.int 1 v.toInt).headD 0] (.int ⟨0x10⟩ v) := by
  simp only [fitsSigned_iff, Nat.pow_eq, Nat.reduceSub, Nat.reducePow, Nat.cast_ofNat] at hv
  unfold instructionAt
  refine Reads.u8_bind ?_
  simp +decide only [↓reduceIte]
  rw [← BigEndian.int_one]
  refine (reads_i8 v.toInt).bind_pure.of_eq ?_
  congr 1
  apply Int32.toInt_inj.mp
  rw [Int8.toInt_toInt32, Int8.toInt_ofInt, Int.bmod_eq_self_of_fits (by decide)] <;>
    simp only [Int8.size] <;> omega

theorem reads_sipush {v : Int32} (hv : fitsSigned 16 v.toInt = true) :
    Reads (r.instructionAt o) (0x11 :: BigEndian.int 2 v.toInt) (.int ⟨0x11⟩ v) := by
  simp only [fitsSigned_iff, Nat.pow_eq, Nat.reduceSub, Nat.reducePow, Nat.cast_ofNat] at hv
  unfold instructionAt
  refine Reads.u8_bind ?_
  simp +decide only [↓reduceIte]
  refine (reads_i16 v.toInt).bind_pure.of_eq ?_
  congr 1
  apply Int32.toInt_inj.mp
  rw [Int16.toInt_toInt32, Int16.toInt_ofInt, Int.bmod_eq_self_of_fits (by decide)] <;>
    simp only [Int16.size] <;> omega

theorem reads_newarray {v : Int32} (h₀ : 0 ≤ v.toInt) (h₁ : v.toInt < 256) :
    Reads (r.instructionAt o) [0xBC, v.toInt.toNat.toUInt8] (.int ⟨0xBC⟩ v) := by
  unfold instructionAt
  refine Reads.u8_bind ?_
  simp +decide only [↓reduceIte]
  refine (reads_u8 _).bind_pure.of_eq ?_
  congr 1
  apply Int32.toInt_inj.mp
  have hbyte : v.toInt.toNat.toUInt8.toNat = v.toInt.toNat := by
    rw [Nat.toUInt8_eq, UInt8.toNat_ofNat']
    omega
  rw [hbyte, Int32.toInt_ofNat_of_lt (by omega)]
  omega

theorem reads_ldc {index : UInt16} {c : Constant} (hindex : index < 256) (hc : r.loadable index = .ok c) :
    Reads (r.instructionAt o) [0x12, index.toUInt8] (.ldc c) := by
  have hback : index.toUInt8.toUInt16 = index := by
    apply UInt16.toNat_inj.mp
    rw [UInt8.toNat_toUInt16, UInt16.toNat_toUInt8]
    exact Nat.mod_eq_of_lt (UInt16.lt_iff_toNat_lt.mp hindex)
  unfold instructionAt
  refine Reads.u8_bind ?_
  simp +decide only [↓reduceIte]
  refine (reads_u8 _).bind ?_
  rw [hback]
  exact (Reads.lift hc).bind_pure

theorem reads_ldcWide {code : UInt8} {index : UInt16} {c : Constant} (hcode : code = 0x13 ∨ code = 0x14)
    (hc : r.loadable index = .ok c) :
    Reads (r.instructionAt o) (code :: BigEndian.u16 index) (.ldc c) := by
  unfold instructionAt
  refine Reads.u8_bind ?_
  rcases hcode with rfl | rfl <;> simp +decide only [↓reduceIte] <;>
    exact (reads_u16 index).bind (Reads.lift hc).bind_pure

theorem reads_var {op : Opcode} {index : UInt16} (hop : Opcode.isVariable op.code = true)
    (hindex : index < 256) :
    Reads (r.instructionAt o) [op.code, index.toUInt8] (.var op index) := by
  have hback : index.toUInt8.toUInt16 = index := by
    apply UInt16.toNat_inj.mp
    rw [UInt8.toNat_toUInt16, UInt16.toNat_toUInt8]
    exact Nat.mod_eq_of_lt (UInt16.lt_iff_toNat_lt.mp hindex)
  obtain ⟨h₁, h₂, h₃, h₄, h₅, h₆⟩ := Opcode.variable_tests op.code hop
  unfold instructionAt
  refine Reads.u8_bind ?_
  simp only [h₁, h₂, h₃, h₄, h₅, h₆, hop, ↓reduceIte, Bool.false_eq_true]
  exact ((reads_u8 _).bind_pure (g := fun b => Instruction.var op b.toUInt16)).of_eq (by rw [hback])

-- a short form packs the opcode's offset from its family's base and an index below 4
theorem shortForm_arith (base shortBase : UInt8) {c : UInt8} {j : UInt16} (hbase : base.toNat + 4 < 256)
    (hshort : shortBase.toNat + 20 < 256) (h₁ : base ≤ c) (h₂ : c ≤ base + 4) (hj : j ≤ 3) :
    (shortBase ≤ shortBase + (c - base) * 4 + j.toUInt8 &&
        shortBase + (c - base) * 4 + j.toUInt8 ≤ shortBase + 19) = true ∧
      base + (shortBase + (c - base) * 4 + j.toUInt8 - shortBase) / 4 = c ∧
      ((shortBase + (c - base) * 4 + j.toUInt8 - shortBase) % 4).toUInt16 = j := by
  simp only [UInt8.le_iff_toNat_le, UInt16.le_iff_toNat_le, UInt8.toNat_add, UInt16.reduceToNat,
    UInt8.reduceToNat, Nat.reducePow] at h₁ h₂ hj
  simp only [Bool.and_eq_true, decide_eq_true_eq, UInt8.le_iff_toNat_le, ← UInt8.toNat_inj,
    ← UInt16.toNat_inj, UInt8.toNat_add, UInt8.toNat_sub, UInt8.toNat_mul, UInt8.toNat_div,
    UInt8.toNat_mod, UInt16.toNat_toUInt8, UInt8.toNat_toUInt16, UInt8.reduceToNat, Nat.reducePow]
  omega

theorem reads_shortLoad {op : Opcode} {index : UInt16} (h₁ : 0x15 ≤ op.code) (h₂ : op.code ≤ 0x19)
    (hindex : index ≤ 3) :
    Reads (r.instructionAt o) [0x1A + (op.code - 0x15) * 4 + index.toUInt8] (.var op index) := by
  obtain ⟨hrange, hop, hidx⟩ := shortForm_arith 0x15 0x1A (by decide)
    (by decide) h₁ h₂ hindex
  simp only [UInt8.reduceAdd] at hrange
  obtain ⟨t₁, t₂, t₃, t₄, t₅, t₆, t₇⟩ := Opcode.shortLoad_tests _ hrange
  unfold instructionAt
  refine Reads.u8_bind ?_
  simp only [t₁, t₂, t₃, t₄, t₅, t₆, t₇, hrange, ↓reduceIte, Bool.false_eq_true]
  refine (Reads.pure _).of_eq ?_
  simp only [Opcode.iload, hop, hidx]

theorem reads_shortStore {op : Opcode} {index : UInt16} (h₁ : 0x36 ≤ op.code) (h₂ : op.code ≤ 0x3A)
    (hindex : index ≤ 3) :
    Reads (r.instructionAt o) [0x3B + (op.code - 0x36) * 4 + index.toUInt8] (.var op index) := by
  obtain ⟨hrange, hop, hidx⟩ := shortForm_arith 0x36 0x3B (by decide)
    (by decide) h₁ h₂ hindex
  simp only [UInt8.reduceAdd] at hrange
  obtain ⟨t₁, t₂, t₃, t₄, t₅, t₆, t₇, t₈⟩ := Opcode.shortStore_tests _ hrange
  unfold instructionAt
  refine Reads.u8_bind ?_
  simp only [t₁, t₂, t₃, t₄, t₅, t₆, t₇, t₈, hrange, ↓reduceIte, Bool.false_eq_true]
  refine (Reads.pure _).of_eq ?_
  simp only [Opcode.istore, hop, hidx]

theorem reads_wideVar {op : Opcode} {index : UInt16} (hop : Opcode.isVariable op.code = true) :
    Reads (r.instructionAt o) (0xC4 :: op.code :: BigEndian.u16 index) (.var op index) := by
  unfold instructionAt
  refine Reads.u8_bind ?_
  simp +decide only [↓reduceIte]
  refine Reads.u8_bind ?_
  simp only [Opcode.variable_ne_iinc _ hop, hop, ↓reduceIte, Bool.false_eq_true]
  exact (reads_u16 index).bind_pure

theorem reads_iinc {index : UInt16} {increment : Int16} (hindex : index < 256)
    (hinc : fitsSigned 8 increment.toInt = true) :
    Reads (r.instructionAt o) [0x84, index.toUInt8, (BigEndian.int 1 increment.toInt).headD 0]
      (.iinc index increment) := by
  simp only [fitsSigned_iff, Nat.pow_eq, Nat.reduceSub, Nat.reducePow, Nat.cast_ofNat] at hinc
  have hback : index.toUInt8.toUInt16 = index := by
    apply UInt16.toNat_inj.mp
    rw [UInt8.toNat_toUInt16, UInt16.toNat_toUInt8]
    exact Nat.mod_eq_of_lt (UInt16.lt_iff_toNat_lt.mp hindex)
  have hincrement : (Int8.ofInt increment.toInt).toInt16 = increment := by
    apply Int16.toInt_inj.mp
    rw [Int8.toInt_toInt16, Int8.toInt_ofInt, Int.bmod_eq_self_of_fits (by decide)] <;>
      simp only [Int8.size] <;> omega
  unfold instructionAt
  refine Reads.u8_bind ?_
  simp +decide only [↓reduceIte]
  refine (reads_u8 _).bind ?_
  rw [← BigEndian.int_one]
  refine (reads_i8 increment.toInt).bind_pure.of_eq ?_
  rw [hback, hincrement]

theorem reads_wideIinc {index : UInt16} {increment : Int16} :
    Reads (r.instructionAt o) (0xC4 :: 0x84 :: BigEndian.u16 index ++ BigEndian.int 2 increment.toInt)
      (.iinc index increment) := by
  unfold instructionAt
  refine Reads.u8_bind ?_
  simp +decide only [↓reduceIte]
  refine Reads.u8_bind ?_
  simp +decide only [↓reduceIte]
  refine ((reads_u16 index).bind (reads_i16 increment.toInt).bind_pure).of_eq ?_
  rw [Int16.ofInt_toInt]

theorem reads_jump {op : Opcode} {delta : Int} (hop : Opcode.isShortJump op.code = true)
    (hdelta : fitsSigned 16 delta = true) :
    Reads (r.instructionAt o) (op.code :: BigEndian.int 2 delta) (.jump op (o + delta)) := by
  simp only [fitsSigned_iff, Nat.pow_eq, Nat.reduceSub, Nat.reducePow, Nat.cast_ofNat] at hdelta
  obtain ⟨t₁, t₂, t₃, t₄, t₅, t₆, t₇, t₈, t₉, t₁₀⟩ := Opcode.shortJump_tests _ hop
  unfold instructionAt
  refine Reads.u8_bind ?_
  simp only [t₁, t₂, t₃, t₄, t₅, t₆, t₇, t₈, t₉, t₁₀, hop, ↓reduceIte, Bool.false_eq_true]
  refine (reads_i16 delta).bind_pure.of_eq ?_
  rw [Int16.toInt_ofInt, Int.bmod_eq_self_of_fits (by decide)] <;> simp only [Int16.size] <;> omega

theorem reads_wideJump {code : UInt8} {op : Opcode} {delta : Int}
    (hcode : (code, op) = (0xC8, Opcode.goto) ∨ (code, op) = (0xC9, Opcode.jsr))
    (hdelta : fitsSigned 32 delta = true) :
    Reads (r.instructionAt o) (code :: BigEndian.int 4 delta) (.jump op (o + delta)) := by
  simp only [fitsSigned_iff, Nat.pow_eq, Nat.reduceSub, Nat.reducePow, Nat.cast_ofNat] at hdelta
  have hread : (Int32.ofInt delta).toInt = delta := by
    rw [Int32.toInt_ofInt, Int.bmod_eq_self_of_fits (by decide)] <;> simp only [Int32.size] <;> omega
  unfold instructionAt
  refine Reads.u8_bind ?_
  rcases hcode with h | h <;> obtain ⟨rfl, rfl⟩ := Prod.mk.inj h <;> simp +decide only [↓reduceIte] <;>
    exact (reads_i32 delta).bind_pure.of_eq (by rw [hread])

theorem reads_field {op : Opcode} {index : UInt16} {ref : FieldRef}
    (hop : (178 ≤ op.code && op.code ≤ 181) = true) (hf : r.fieldRef index = .ok ref) :
    Reads (r.instructionAt o) (op.code :: BigEndian.u16 index) (.field op ref) := by
  obtain ⟨t₁, t₂, t₃, t₄, t₅, t₆, t₇, t₈, t₉, t₁₀, t₁₁, t₁₂, t₁₃, t₁₄, t₁₅⟩ := Opcode.field_tests _ hop
  unfold instructionAt
  refine Reads.u8_bind ?_
  simp only [t₁, t₂, t₃, t₄, t₅, t₆, t₇, t₈, t₉, t₁₀, t₁₁, t₁₂, t₁₃, t₁₄, t₁₅, hop, ↓reduceIte,
    Bool.false_eq_true]
  exact (reads_u16 index).bind (Reads.lift hf).bind_pure

theorem reads_method {op : Opcode} {index : UInt16} {ref : MethodRef}
    (hop : (182 ≤ op.code && op.code ≤ 184) = true) (hm : r.methodRef index = .ok ref) :
    Reads (r.instructionAt o) (op.code :: BigEndian.u16 index) (.method op ref) := by
  obtain ⟨t₁, t₂, t₃, t₄, t₅, t₆, t₇, t₈, t₉, t₁₀, t₁₁, t₁₂, t₁₃, t₁₄, t₁₅, t₁₆⟩ :=
    Opcode.method_tests _ hop
  unfold instructionAt
  refine Reads.u8_bind ?_
  simp only [t₁, t₂, t₃, t₄, t₅, t₆, t₇, t₈, t₉, t₁₀, t₁₁, t₁₂, t₁₃, t₁₄, t₁₅, t₁₆, hop, ↓reduceIte,
    Bool.false_eq_true]
  exact (reads_u16 index).bind (Reads.lift hm).bind_pure

theorem reads_invokeinterface {index : UInt16} {ref : MethodRef} {slots : UInt8}
    (hm : r.methodRef index = .ok ref) :
    Reads (r.instructionAt o) (0xB9 :: BigEndian.u16 index ++ [slots, 0]) (.method ⟨0xB9⟩ ref) := by
  unfold instructionAt
  refine Reads.u8_bind ?_
  simp +decide only [↓reduceIte]
  exact (reads_u16 index).bind ((reads_u8 slots).bind ((reads_u8 0).bind (Reads.lift hm).bind_pure))

theorem reads_invokeDynamic {index : UInt16} {name descriptor : String} {bootstrap : MethodHandle}
    {arguments : List Constant} (hd : r.invokeDynamic index = .ok (name, descriptor, bootstrap, arguments)) :
    Reads (r.instructionAt o) (0xBA :: BigEndian.u16 index ++ [0, 0])
      (.invokeDynamic name descriptor bootstrap arguments) := by
  unfold instructionAt
  refine Reads.u8_bind ?_
  simp +decide only [↓reduceIte]
  exact (reads_u16 index).bind ((reads_u16 0).bind (Reads.lift hd).bind_pure)

theorem reads_type {op : Opcode} {index : UInt16} {name : String}
    (hop : (op.code == 187 || op.code == 189 || op.code == 192 || op.code == 193) = true)
    (hc : r.pool.className index = .ok name) :
    Reads (r.instructionAt o) (op.code :: BigEndian.u16 index) (.type op name) := by
  obtain ⟨t₁, t₂, t₃, t₄, t₅, t₆, t₇, t₈, t₉, t₁₀, t₁₁, t₁₂, t₁₃, t₁₄, t₁₅, t₁₆, t₁₇, t₁₈, t₁₉⟩ :=
    Opcode.type_tests _ hop
  unfold instructionAt
  refine Reads.u8_bind ?_
  simp only [t₁, t₂, t₃, t₄, t₅, t₆, t₇, t₈, t₉, t₁₀, t₁₁, t₁₂, t₁₃, t₁₄, t₁₅, t₁₆, t₁₇, t₁₈, t₁₉, hop,
    ↓reduceIte, Bool.false_eq_true]
  exact (reads_u16 index).bind (Reads.lift hc).bind_pure

theorem reads_multiANewArray {index : UInt16} {descriptor : String} {dimensions : UInt8}
    (hc : r.pool.className index = .ok descriptor) :
    Reads (r.instructionAt o) (0xC5 :: BigEndian.u16 index ++ [dimensions])
      (.multiANewArray descriptor dimensions) := by
  unfold instructionAt
  refine Reads.u8_bind ?_
  simp +decide only [↓reduceIte]
  exact (reads_u16 index).bind ((Reads.lift hc).bind (reads_u8 dimensions).bind_pure)

theorem reads_tableSwitch {low high : Int32} {d : Int} {ds : List Int} (hle : low ≤ high)
    (hcount : high.toInt - low.toInt + 1 = ds.length) (hd : fitsSigned 32 d = true)
    (hds : ∀ x ∈ ds, fitsSigned 32 x = true) :
    Reads (r.instructionAt o)
      (0xAA :: List.replicate (switchPadding o) 0 ++ BigEndian.int 4 d ++ BigEndian.int 4 low.toInt ++
        BigEndian.int 4 high.toInt ++ ds.flatMap (BigEndian.int 4))
      (.tableSwitch low high (o + d) (ds.map ((o : Int) + ·))) := by
  have hpad : Reads (bytes (switchPadding o)) (List.replicate (switchPadding o) 0)
      (List.replicate (switchPadding o) 0) := by
    have h := reads_bytes (List.replicate (switchPadding o) (0 : UInt8))
    rwa [List.length_replicate] at h
  have hn : (high.toInt - low.toInt + 1).toNat = ds.length := by omega
  have hnot : ¬ high < low := Int32.not_lt.mpr hle
  unfold instructionAt
  refine Reads.u8_bind ?_
  simp +decide only [↓reduceIte]
  simp only [List.append_eq, List.append_assoc]
  refine hpad.bind ((reads_i32 d).bind ?_)
  rw [Int32.toInt_ofInt_of_fits hd]
  refine ((reads_i32 low.toInt).bind ((reads_i32 high.toInt).bind ?_)).of_bytes rfl
  simp only [Int32.ofInt_toInt, hnot, ↓reduceIte, hn]
  exact (Reader.reads_relativeOffsets o hds).bind_pure

theorem reads_lookupSwitch {keys : List Int32} {d : Int} {ds : List Int}
    (hlen : keys.length = ds.length) (hcount : keys.length < Nat.pow 2 31)
    (hd : fitsSigned 32 d = true) (hds : ∀ x ∈ ds, fitsSigned 32 x = true) :
    Reads (r.instructionAt o)
      (0xAB :: List.replicate (switchPadding o) 0 ++ BigEndian.int 4 d ++ BigEndian.int 4 keys.length ++
        (keys.zip ds).flatMap fun p => BigEndian.int 4 p.1.toInt ++ BigEndian.int 4 p.2)
      (.lookupSwitch (o + d) keys (ds.map ((o : Int) + ·))) := by
  have hpad : Reads (bytes (switchPadding o)) (List.replicate (switchPadding o) 0)
      (List.replicate (switchPadding o) 0) := by
    have h := reads_bytes (List.replicate (switchPadding o) (0 : UInt8))
    rwa [List.length_replicate] at h
  have hfits : fitsSigned 32 (keys.length : Int) = true := by
    simp only [fitsSigned_iff, Nat.pow_eq, Nat.reduceSub, Nat.reducePow, Nat.cast_ofNat]
    simp only [Nat.pow_eq, Nat.reducePow] at hcount
    constructor <;> omega
  have hpairs := Int32.toInt_ofInt_of_fits hfits
  have hnot : ¬ Int32.ofInt keys.length < 0 := by
    rw [Int32.lt_iff_toInt_lt, hpairs]
    simp
  unfold instructionAt
  refine Reads.u8_bind ?_
  simp +decide only [↓reduceIte]
  simp only [List.append_eq, List.append_assoc]
  refine hpad.bind ((reads_i32 d).bind ((reads_i32 _).bind ?_))
  simp only [Int32.toInt_ofInt_of_fits hd, hnot, ↓reduceIte, hpairs, Int.toNat_natCast]
  refine (Reader.reads_keyedOffsets o hlen hds).bind_pure.of_eq ?_
  have hkeys : ((keys.zip ds).map fun p => (p.1, (o : Int) + p.2)).map (·.1) = keys := by
    rw [List.map_map]
    exact List.map_fst_zip (by omega)
  have htargets : ((keys.zip ds).map fun p => (p.1, (o : Int) + p.2)).map (·.2) =
      ds.map ((o : Int) + ·) := by
    rw [List.map_map, show ((fun p : Int32 × Int => p.2) ∘ fun p => (p.1, (o : Int) + p.2)) =
      ((o : Int) + ·) ∘ Prod.snd from rfl, ← List.map_map, List.map_snd_zip (by omega)]
  rw [hkeys, htargets]

end Resolver


namespace Instruction

def Decodable {L : Type} : Instruction L → Prop
  | .simple op => Opcode.isSimple op.code = true
  | .int op _ => op = ⟨0x10⟩ ∨ op = ⟨0x11⟩ ∨ op = ⟨0xBC⟩
  | .var op _ => Opcode.isVariable op.code = true
  | .type op _ => (op.code == 187 || op.code == 189 || op.code == 192 || op.code == 193) = true
  | .field op _ => (178 ≤ op.code && op.code ≤ 181) = true
  | .method op _ => (182 ≤ op.code && op.code ≤ 185) = true
  | .invokeDynamic _ _ bootstrap arguments =>
    bootstrap.Readable ∧ Constant.ResolvableList Resolver.maxDynamicDepth arguments
  | .jump op _ => Opcode.isShortJump op.code = true
  | .tableSwitch low high _ _ => low ≤ high
  | .lookupSwitch _ keys _ => keys.length < Nat.pow 2 31
  | .ldc c => c.Resolvable Resolver.maxDynamicDepth
  | _ => True

end Instruction

section JumpForms

set_option maxRecDepth 8192

theorem Opcode.shortJump_not_wide (c : UInt8) (h : Opcode.isShortJump c = true) :
    (⟨c⟩ : Opcode).isWideJump = false := by
  revert c
  decide

-- the short branches that cannot be inverted are goto and jsr
theorem Opcode.uninvertible (c : UInt8) (h : Opcode.isShortJump c = true)
    (hinv : (⟨c⟩ : Opcode).invertedBranch? = none) : c = 0xA7 ∨ c = 0xA8 := by
  revert c
  decide

end JumpForms

namespace Build

open PoolBuilder

theorem pure_eq_ok {α : Type} {a b : α} {S S' : PoolBuilder} (h : (pure a : Build α) S = .ok (b, S')) :
    b = a ∧ S' = S := by
  obtain ⟨h₁, h₂⟩ := Prod.mk.inj (Except.ok.inj h)
  exact ⟨h₁.symm, h₂.symm⟩

theorem fail_ne_ok {α : Type} {e : FormatError} {S : PoolBuilder} {p : α × PoolBuilder} :
    (fail e : Build α) S ≠ .ok p :=
  nofun

variable {o : Nat} {w : Bool} {lo : Label → Except FormatError Nat} {pos : Label → Nat}
  {S S' : PoolBuilder} {bs : List UInt8}

theorem instruction_spec {i : Instruction Label} (hi : i.Decodable) (hmarker : i.isMarker = false)
    (hw : w = true → ∀ op t, i = .jump op t → op.invertedBranch? = none)
    (hlo : ∀ t ∈ i.targets, lo t = .ok (pos t)) (ho : o < 65536)
    (hpos : ∀ t ∈ i.targets, pos t < 65536) (hS : S.Laid 0)
    (h : instruction i o w lo S = .ok (bs, S')) :
    Spec 0 (instruction i o w lo) S bs S' ∧
      S'.Resolves (fun r => Reads (r.instructionAt o) bs (i.mapLabels fun l => (pos l : Int))) := by
  cases i with
  | simple op =>
    unfold instruction at h ⊢
    simp only at h ⊢
    obtain ⟨rfl, rfl⟩ := pure_eq_ok h
    exact ⟨Spec.pure hS _, fun _ _ _ => Resolver.reads_simple _ _ hi⟩
  | int op v =>
    unfold instruction at h ⊢
    simp only at h ⊢
    -- the opcode picks the operand's width, and the value must fit it
    rcases hi with rfl | rfl | rfl
    · by_cases hv : fitsSigned 8 v.toInt = true
      · simp +decide only [hv, ↓reduceIte] at h ⊢
        obtain ⟨rfl, rfl⟩ := pure_eq_ok h
        exact ⟨Spec.pure hS _, fun _ _ _ => Resolver.reads_bipush _ _ hv⟩
      · simp +decide only [hv, ↓reduceIte, Bool.false_eq_true] at h
        exact absurd h fail_ne_ok
    · by_cases hv : fitsSigned 16 v.toInt = true
      · simp +decide only [hv, ↓reduceIte] at h ⊢
        obtain ⟨rfl, rfl⟩ := pure_eq_ok h
        exact ⟨Spec.pure hS _, fun _ _ _ => Resolver.reads_sipush _ _ hv⟩
      · simp +decide only [hv, ↓reduceIte, Bool.false_eq_true] at h
        exact absurd h fail_ne_ok
    · by_cases hv : 0 ≤ v.toInt ∧ v.toInt < 256
      · simp +decide only [hv, decide_true, Bool.and_self, ↓reduceIte] at h ⊢
        obtain ⟨rfl, rfl⟩ := pure_eq_ok h
        exact ⟨Spec.pure hS _, fun _ _ _ => Resolver.reads_newarray _ _ hv.1 hv.2⟩
      · have hv' : (decide (0 ≤ v.toInt) && decide (v.toInt < 256)) = false := by
          simpa [Bool.and_eq_false_iff] using hv
        simp +decide only [hv', ↓reduceIte, Bool.false_eq_true] at h
        exact absurd h fail_ne_ok
  | var op index =>
    unfold instruction at h ⊢
    simp only at h ⊢
    -- the long and the wide forms read back for every variable opcode
    have hlong : index < 256 → ∀ r : Resolver,
        Reads (r.instructionAt o) [op.code, index.toUInt8] (.var op index) :=
      fun hindex r => r.reads_var o hi hindex
    have hwide : ∀ r : Resolver,
        Reads (r.instructionAt o) (Opcode.wide.code :: op.code :: BigEndian.u16 index) (.var op index) :=
      fun r => r.reads_wideVar o hi
    by_cases hload : (21 ≤ op.code && op.code ≤ 25) = true
    · simp only [hload, ↓reduceIte] at h ⊢
      have hrange := hload
      simp only [Bool.and_eq_true, decide_eq_true_eq] at hrange
      by_cases h₃ : index ≤ 3
      · simp only [h₃, ↓reduceIte] at h ⊢
        obtain ⟨rfl, rfl⟩ := pure_eq_ok h
        exact ⟨Spec.pure hS _, fun _ _ _ => Resolver.reads_shortLoad _ _ hrange.1 hrange.2 h₃⟩
      · by_cases h₂ : index < 256
        · simp only [h₃, h₂, ↓reduceIte] at h ⊢
          obtain ⟨rfl, rfl⟩ := pure_eq_ok h
          exact ⟨Spec.pure hS _, fun _ _ _ => hlong h₂ _⟩
        · simp only [h₃, h₂, ↓reduceIte] at h ⊢
          obtain ⟨rfl, rfl⟩ := pure_eq_ok h
          exact ⟨Spec.pure hS _, fun _ _ _ => hwide _⟩
    · by_cases hstore : (54 ≤ op.code && op.code ≤ 58) = true
      · simp only [hload, hstore, ↓reduceIte, Bool.false_eq_true] at h ⊢
        have hrange := hstore
        simp only [Bool.and_eq_true, decide_eq_true_eq] at hrange
        by_cases h₃ : index ≤ 3
        · simp only [h₃, ↓reduceIte] at h ⊢
          obtain ⟨rfl, rfl⟩ := pure_eq_ok h
          exact ⟨Spec.pure hS _, fun _ _ _ => Resolver.reads_shortStore _ _ hrange.1 hrange.2 h₃⟩
        · by_cases h₂ : index < 256
          · simp only [h₃, h₂, ↓reduceIte] at h ⊢
            obtain ⟨rfl, rfl⟩ := pure_eq_ok h
            exact ⟨Spec.pure hS _, fun _ _ _ => hlong h₂ _⟩
          · simp only [h₃, h₂, ↓reduceIte] at h ⊢
            obtain ⟨rfl, rfl⟩ := pure_eq_ok h
            exact ⟨Spec.pure hS _, fun _ _ _ => hwide _⟩
      · simp only [hload, hstore, ↓reduceIte, Bool.false_eq_true] at h ⊢
        by_cases h₂ : index < 256
        · simp only [h₂, ↓reduceIte] at h ⊢
          obtain ⟨rfl, rfl⟩ := pure_eq_ok h
          exact ⟨Spec.pure hS _, fun _ _ _ => hlong h₂ _⟩
        · simp only [h₂, ↓reduceIte] at h ⊢
          obtain ⟨rfl, rfl⟩ := pure_eq_ok h
          exact ⟨Spec.pure hS _, fun _ _ _ => hwide _⟩
  | type op name =>
    unfold instruction at h ⊢
    simp only at h ⊢
    obtain ⟨index, S₁, h₁, h₂⟩ := bind_eq_ok h
    obtain ⟨rfl, rfl⟩ := pure_eq_ok h₂
    obtain ⟨hspec, hres, -, -⟩ := classRef_spec hS h₁
    exact ⟨hspec.bind (Spec.pure hspec.laid _),
      fun T hT hlaid => Resolver.reads_type _ _ hi (hres T hT hlaid)⟩
  | field op ref =>
    unfold instruction at h ⊢
    simp only at h ⊢
    obtain ⟨index, S₁, h₁, h₂⟩ := bind_eq_ok h
    obtain ⟨rfl, rfl⟩ := pure_eq_ok h₂
    obtain ⟨hspec, hres, -⟩ := fieldRef_spec hS h₁
    exact ⟨hspec.bind (Spec.pure hspec.laid _),
      fun T hT hlaid => Resolver.reads_field _ _ hi (hres T hT hlaid)⟩
  | method op ref =>
    unfold instruction at h ⊢
    simp only at h ⊢
    obtain ⟨index, S₁, h₁, h₂⟩ := bind_eq_ok h
    obtain ⟨hspec, hres, -⟩ := methodRef_spec hS h₁
    -- invokeinterface carries the argument slots and a zero after the index
    by_cases hinterface : (op == Opcode.invokeinterface) = true
    · have hop : op = ⟨0xB9⟩ := eq_of_beq hinterface
      subst hop
      simp only [hinterface, ↓reduceIte] at h₂ ⊢
      obtain ⟨slots, S₂, h₃, h₄⟩ := bind_eq_ok h₂
      obtain ⟨hslots, rfl⟩ := lift_eq_ok h₃
      obtain ⟨rfl, rfl⟩ := pure_eq_ok h₄
      refine ⟨hspec.bind ((Spec.lift hspec.laid hslots).bind (Spec.pure hspec.laid _)),
        fun T hT hlaid => Resolver.reads_invokeinterface _ _ (hres T hT hlaid)⟩
    · simp only [hinterface, ↓reduceIte, Bool.false_eq_true] at h₂ ⊢
      obtain ⟨rfl, rfl⟩ := pure_eq_ok h₂
      have hop : (182 ≤ op.code && op.code ≤ 184) = true := by
        have hne : op.code ≠ 185 := fun h => hinterface (by
          rw [show op = ⟨185⟩ from congrArg Opcode.mk h]; decide)
        simp only [Instruction.Decodable, Bool.and_eq_true, decide_eq_true_eq] at hi ⊢
        refine ⟨hi.1, ?_⟩
        have := UInt8.le_iff_toNat_le.mp hi.2
        rw [UInt8.le_iff_toNat_le]
        have hne' : op.code.toNat ≠ 185 := fun h => hne (UInt8.toNat_inj.mp h)
        simp only [UInt8.reduceToNat] at this hne' ⊢
        omega
      exact ⟨hspec.bind (Spec.pure hspec.laid _),
        fun T hT hlaid => Resolver.reads_method _ _ hop (hres T hT hlaid)⟩
  | multiANewArray descriptor dimensions =>
    unfold instruction at h ⊢
    simp only at h ⊢
    obtain ⟨index, S₁, h₁, h₂⟩ := bind_eq_ok h
    obtain ⟨rfl, rfl⟩ := pure_eq_ok h₂
    obtain ⟨hspec, hres, -, -⟩ := classRef_spec hS h₁
    exact ⟨hspec.bind (Spec.pure hspec.laid _),
      fun T hT hlaid => Resolver.reads_multiANewArray _ _ (hres T hT hlaid)⟩
  | ldc c =>
    unfold instruction at h ⊢
    simp only at h ⊢
    obtain ⟨index, S₁, h₁, h₂⟩ := bind_eq_ok h
    obtain ⟨hspec, hres⟩ := constant_spec c _ hi hS h₁
    -- ldc2_w for a wide constant, else ldc while the index fits a byte
    by_cases hwide : c.isWide = true
    · simp only [hwide, ↓reduceIte] at h₂ ⊢
      obtain ⟨rfl, rfl⟩ := pure_eq_ok h₂
      exact ⟨hspec.bind (Spec.pure hspec.laid _),
        fun T hT hlaid => Resolver.reads_ldcWide _ _ (Or.inr rfl) (hres T hT hlaid)⟩
    · by_cases hbyte : index < 256
      · simp only [hwide, hbyte, ↓reduceIte, Bool.false_eq_true] at h₂ ⊢
        obtain ⟨rfl, rfl⟩ := pure_eq_ok h₂
        exact ⟨hspec.bind (by rw [if_pos hbyte]; exact Spec.pure hspec.laid _),
          fun T hT hlaid => Resolver.reads_ldc _ _ hbyte (hres T hT hlaid)⟩
      · simp only [hwide, hbyte, ↓reduceIte, Bool.false_eq_true] at h₂ ⊢
        obtain ⟨rfl, rfl⟩ := pure_eq_ok h₂
        exact ⟨hspec.bind (by rw [if_neg hbyte]; exact Spec.pure hspec.laid _),
          fun T hT hlaid => Resolver.reads_ldcWide _ _ (Or.inl rfl) (hres T hT hlaid)⟩
  | iinc index increment =>
    unfold instruction at h ⊢
    simp only at h ⊢
    by_cases hshort : (decide (index < 256) && fitsSigned 8 increment.toInt) = true
    · simp only [hshort, ↓reduceIte] at h ⊢
      obtain ⟨rfl, rfl⟩ := pure_eq_ok h
      simp only [Bool.and_eq_true, decide_eq_true_eq] at hshort
      exact ⟨Spec.pure hS _, fun _ _ _ => Resolver.reads_iinc _ _ hshort.1 hshort.2⟩
    · simp only [hshort, ↓reduceIte, Bool.false_eq_true] at h ⊢
      obtain ⟨rfl, rfl⟩ := pure_eq_ok h
      exact ⟨Spec.pure hS _, fun _ _ _ => Resolver.reads_wideIinc _ _⟩
  | invokeDynamic name descriptor bootstrap arguments =>
    obtain ⟨hboot, hargs⟩ := hi
    unfold instruction at h ⊢
    simp only [bootstrapMethod] at h ⊢
    obtain ⟨b, S₁, h₁, h'⟩ := bind_eq_ok h
    obtain ⟨nat, S₂, h₂, h''⟩ := bind_eq_ok h'
    obtain ⟨index, S₃, h₃, h₄⟩ := bind_eq_ok h''
    obtain ⟨rfl, rfl⟩ := pure_eq_ok h₄
    obtain ⟨hh, T₁, g₁, g'⟩ := bind_eq_ok h₁
    obtain ⟨is, T₂, g₂, g₃⟩ := bind_eq_ok g'
    -- the steps of interning a dynamic constant, with an invokedynamic entry last
    obtain ⟨hspec₁, hhandle, -⟩ := handle_spec hboot hS g₁
    obtain ⟨hspec₂, hres₂⟩ := constants_spec arguments _ hargs hspec₁.laid g₂
    obtain ⟨⟨k, hspec₃, hspec₄⟩, hspec₅, hhas, hhasm, hnat⟩ :=
      bootstrapped_spec (f := PoolEntry.invokeDynamic) (fun _ _ => rfl) hspec₂.laid g₃ h₂ h₃
    have hgrows : T₂.Extends S' := hspec₃.grows.trans (hspec₄.grows.trans hspec₅.grows)
    refine ⟨(hspec₁.bind (hspec₂.bind hspec₃)).bind (hspec₄.bind (hspec₅.bind
      (Spec.pure hspec₅.laid _))), fun T hT hlaid => Resolver.reads_invokeDynamic _ _ ?_⟩
    have hh := hhandle T ((hspec₂.grows.trans hgrows).trans hT) hlaid
    have hr := hres₂ T (hgrows.trans hT) hlaid
    have he := hhasm.resolves T hT hlaid
    have hn := hnat T hT hlaid
    simp only at hh hr he hn
    simp [Resolver.invokeDynamic, Pool.entry, hlaid.get? (hhas.mono hT), hn, he, hh, hr]
  | label _ => simp [Instruction.isMarker, Instruction.opcode?] at hmarker
  | lineNumber _ _ => simp [Instruction.isMarker, Instruction.opcode?] at hmarker
  | frame _ => simp [Instruction.isMarker, Instruction.opcode?] at hmarker
  | jump op l =>
    have hl : lo l = .ok (pos l) := hlo l (by simp [Instruction.targets])
    have hp : pos l < 65536 := hpos l (by simp [Instruction.targets])
    have hshort : Opcode.isShortJump op.code = true := hi
    -- both ends lie in the code, so the distance fits the four bytes of a wide branch
    have hfar : fitsSigned 32 ((pos l : Int) - o) = true := by
      simp only [fitsSigned_iff, Nat.pow_eq, Nat.reduceSub, Nat.reducePow, Nat.cast_ofNat]
      omega
    have hat : (o : Int) + ((pos l : Int) - o) = pos l := by omega
    -- a wide form is asked for only of a branch that cannot be inverted: `goto` or `jsr`
    by_cases hwide : w = true
    · have hinv := hw hwide op l rfl
      unfold instruction at h ⊢
      simp only [hl, lift_ok_bind] at h ⊢
      obtain ⟨hc, hjump⟩ | ⟨hc, hjump⟩ : (op.code = 0xA7 ∧ op = Opcode.goto) ∨
          (op.code = 0xA8 ∧ op = Opcode.jsr) := by
        rcases Opcode.uninvertible op.code hshort hinv with hc | hc
        · exact .inl ⟨hc, by rw [Opcode.goto, ← hc]⟩
        · exact .inr ⟨hc, by rw [Opcode.jsr, ← hc]⟩
      all_goals
        subst hwide hjump
        simp +decide only [hinv, ↓reduceIte] at h ⊢
        obtain ⟨rfl, rfl⟩ := pure_eq_ok h
      · exact ⟨Spec.pure hS _, fun _ _ _ => (Resolver.reads_wideJump _ o (.inl rfl) hfar).of_eq
          (by rw [hat]; rfl)⟩
      · exact ⟨Spec.pure hS _, fun _ _ _ => (Resolver.reads_wideJump _ o (.inr rfl) hfar).of_eq
          (by rw [hat]; rfl)⟩
    · have hw' : w = false := by simpa using hwide
      subst hw'
      have hnarrow : op.isWideJump = false := Opcode.shortJump_not_wide op.code hshort
      -- the short form, which must reach the target
      have hform : instruction (.jump op l) o false lo =
          if fitsSigned 16 ((pos l : Int) - o) then pure (op.code :: BigEndian.int 2 ((pos l : Int) - o))
          else fail (.jumpOverflow op o (pos l)) := by
        unfold instruction
        simp [hl, hnarrow]
      rw [hform] at h ⊢
      by_cases hfit : fitsSigned 16 ((pos l : Int) - o) = true
      · simp only [hfit, ↓reduceIte] at h ⊢
        obtain ⟨rfl, rfl⟩ := pure_eq_ok h
        exact ⟨Spec.pure hS _, fun _ _ _ => (Resolver.reads_jump _ o hshort hfit).of_eq
          (by rw [hat]; rfl)⟩
      · simp only [hfit, Bool.false_eq_true, ↓reduceIte] at h
        exact absurd h fail_ne_ok
  | tableSwitch low high d ts =>
    have hrel : ∀ t ∈ d :: ts, (do let target ← lift (lo t); pure ((target : Int) - o) : Build Int) =
        pure ((pos t : Int) - o) := fun t ht => by rw [hlo t ht]; rfl
    have hd := hpos d List.mem_cons_self
    unfold instruction at h ⊢
    simp only at h ⊢
    by_cases hcount : high.toInt - low.toInt + 1 = ts.length
    swap
    · simp only [ne_eq, hcount, not_false_eq_true, ↓reduceIte] at h
      exact absurd h fail_ne_ok
    simp only [hcount, ne_eq, not_true_eq_false, ↓reduceIte, hrel d List.mem_cons_self,
      mapM_eq_pure_map fun t ht => hrel t (List.mem_cons_of_mem d ht)] at h ⊢
    obtain ⟨rfl, rfl⟩ := pure_eq_ok h
    refine ⟨Spec.pure hS _, fun _ _ _ => ?_⟩
    have hfits : ∀ t ∈ d :: ts, fitsSigned 32 ((pos t : Int) - o) = true := fun t ht => by
      have := hpos t ht
      simp only [fitsSigned_iff, Nat.pow_eq, Nat.reduceSub, Nat.reducePow, Nat.cast_ofNat]
      omega
    refine (Resolver.reads_tableSwitch _ o hi (by simpa using hcount) (hfits d List.mem_cons_self)
      (by simpa using fun t ht => hfits t (List.mem_cons_of_mem d ht))).of_eq ?_
    simp [Instruction.mapLabels, Function.comp_def]
  | lookupSwitch d keys ts =>
    have hrel : ∀ t ∈ d :: ts, (do let target ← lift (lo t); pure ((target : Int) - o) : Build Int) =
        pure ((pos t : Int) - o) := fun t ht => by rw [hlo t ht]; rfl
    unfold instruction at h ⊢
    simp only at h ⊢
    by_cases hlen : keys.length = ts.length
    swap
    · simp only [ne_eq, hlen, not_false_eq_true, ↓reduceIte] at h
      exact absurd h fail_ne_ok
    simp only [hlen, ne_eq, not_true_eq_false, ↓reduceIte, hrel d List.mem_cons_self,
      mapM_eq_pure_map fun t ht => hrel t (List.mem_cons_of_mem d ht)] at h ⊢
    obtain ⟨rfl, rfl⟩ := pure_eq_ok h
    refine ⟨Spec.pure hS _, fun _ _ _ => ?_⟩
    have hfits : ∀ t ∈ d :: ts, fitsSigned 32 ((pos t : Int) - o) = true := fun t ht => by
      have := hpos t ht
      simp only [fitsSigned_iff, Nat.pow_eq, Nat.reduceSub, Nat.reducePow, Nat.cast_ofNat]
      omega
    have hds : ∀ x ∈ ts.map (fun t => (pos t : Int) - o), fitsSigned 32 x = true := by
      simpa using fun t ht => hfits t (List.mem_cons_of_mem d ht)
    have hlen' : keys.length = (ts.map (fun t => (pos t : Int) - o)).length := by simpa using hlen
    refine ((Resolver.reads_lookupSwitch _ o hlen' hi (hfits d List.mem_cons_self) hds).of_bytes
      ?_).of_eq ?_
    · rw [hlen]
      rfl
    · simp [Instruction.mapLabels, Function.comp_def]

end Build

end ClassPatch
