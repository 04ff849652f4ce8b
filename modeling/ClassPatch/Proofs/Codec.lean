import Mathlib.Tactic.Ring
import ClassPatch.ClassFile.Reader

namespace ClassPatch

namespace BigEndian

theorem bytes_succ (n v : Nat) :
    bytes (n + 1) v = (v / Nat.pow 256 n % 256).toUInt8 :: bytes n v := by
  simp [bytes, List.range_succ]

@[simp] theorem length_bytes (n v : Nat) : (bytes n v).length = n := by
  simp [bytes]

@[simp] theorem length_u16 (v : UInt16) : (u16 v).length = 2 := length_bytes 2 _

@[simp] theorem length_u32 (v : UInt32) : (u32 v).length = 4 := length_bytes 4 _

@[simp] theorem length_u64 (v : UInt64) : (u64 v).length = 8 := length_bytes 8 _

@[simp] theorem length_int (n : Nat) (v : Int) : (int n v).length = n := length_bytes n _

theorem foldl_value (acc : Nat) (bs : List UInt8) :
    bs.foldl (fun acc b => acc * 256 + b.toNat) acc = acc * Nat.pow 256 bs.length + value bs := by
  -- the fold scales what it has read by 256 for each later byte
  induction bs generalizing acc with
  | nil => simp [value]
  | cons b bs ih =>
    rw [List.foldl_cons, ih]
    conv_rhs => rw [value, List.foldl_cons, ih]
    simp only [List.length_cons, Nat.zero_mul, Nat.zero_add]
    rw [show Nat.pow 256 (bs.length + 1) = Nat.pow 256 bs.length * 256 from rfl]
    ring

theorem value_cons (b : UInt8) (bs : List UInt8) :
    value (b :: bs) = b.toNat * Nat.pow 256 bs.length + value bs := by
  simp only [value, List.foldl_cons, Nat.zero_mul, Nat.zero_add]
  exact foldl_value b.toNat bs

theorem value_bytes (n v : Nat) : value (bytes n v) = v % Nat.pow 256 n := by
  induction n with
  | zero => simp [bytes, value, Nat.mod_one]
  | succ n ih =>
    have hdigit : (v / Nat.pow 256 n % 256).toUInt8.toNat = v / Nat.pow 256 n % 256 := by
      simp only [Nat.toUInt8_eq]
      exact Nat.mod_eq_of_lt (Nat.lt_of_lt_of_le (Nat.mod_lt _ (by omega)) (by decide))
    rw [bytes_succ, value_cons, length_bytes, ih, hdigit]
    change _ = v % 256 ^ (n + 1)
    rw [Nat.mod_pow_succ]
    change _ = v % Nat.pow 256 n + Nat.pow 256 n * (v / Nat.pow 256 n % 256)
    ring

theorem value_int (n : Nat) (v : Int) : value (int n v) = (v % (Nat.pow 256 n : Nat)).toNat := by
  rw [int, value_bytes]
  apply Nat.mod_eq_of_lt
  have hpos : (0 : Int) < (Nat.pow 256 n : Nat) := by
    exact_mod_cast Nat.pow_pos (n := n) (by decide : 0 < 256)
  have hlt := Int.emod_lt_of_pos v hpos
  have hnn := Int.emod_nonneg v (Int.ne_of_gt hpos)
  omega

theorem int_one (v : Int) : int 1 v = [(int 1 v).headD 0] := by
  simp [int, bytes]

end BigEndian

namespace Reader

variable {α β : Type}

def Reads (r : Reader α) (bs : List UInt8) (a : α) : Prop :=
  ∀ rest, r.run (bs ++ rest) = .ok (a, rest)

namespace Reads

variable {r : Reader α} {f : α → Reader β} {bs bs' : List UInt8} {a : α} {b : β}

theorem pure (a : α) : Reads (Pure.pure a) [] a := fun _ => rfl

theorem bind (hr : Reads r bs a) (hf : Reads (f a) bs' b) : Reads (r >>= f) (bs ++ bs') b := by
  intro rest
  have h₁ := hr (bs' ++ rest)
  have h₂ := hf rest
  simp only [Reader.run, StateT.run_bind] at h₁ h₂ ⊢
  rw [List.append_assoc, h₁]
  exact h₂

theorem map {g : α → β} (hr : Reads r bs a) : Reads (g <$> r) bs (g a) := by
  intro rest
  have h := hr rest
  simp only [Reader.run, StateT.run_map] at h ⊢
  rw [h]
  rfl

theorem run_eq (hr : Reads r bs a) : r.run bs = .ok (a, []) := by
  simpa using hr []

theorem of_eq {a' : α} (hr : Reads r bs a) (h : a = a') : Reads r bs a' := h ▸ hr

theorem of_bytes {bs'' : List UInt8} (hr : Reads r bs a) (h : bs = bs'') : Reads r bs'' a :=
  h ▸ hr

theorem lift {e : Except FormatError α} (h : e = .ok a) : Reads (liftM e) [] a := by
  intro rest
  subst h
  rfl

theorem bind_pure {g : α → β} (hr : Reads r bs a) :
    Reads (r >>= fun x => Pure.pure (g x)) bs (g a) :=
  (hr.bind (f := fun x => Pure.pure (g x)) (Reads.pure _)).of_bytes (List.append_nil bs)

end Reads

theorem reads_u8 (b : UInt8) : Reads u8 [b] b := fun _ => rfl

theorem reads_bytes (bs : List UInt8) : Reads (bytes bs.length) bs bs := by
  intro rest
  simp [Reader.run, bytes, StateT.run]

theorem reads_u16 (v : UInt16) : Reads u16 (BigEndian.u16 v) v := by
  have h := (reads_bytes (BigEndian.u16 v)).map (g := fun bs => (BigEndian.value bs).toUInt16)
  refine h.of_eq ?_
  simp only [BigEndian.u16, BigEndian.value_bytes]
  have hv : v.toNat % Nat.pow 256 2 = v.toNat := Nat.mod_eq_of_lt v.toNat_lt
  rw [hv]
  exact UInt16.ofNat_toNat

theorem reads_u32 (v : UInt32) : Reads u32 (BigEndian.u32 v) v := by
  have h := (reads_bytes (BigEndian.u32 v)).map (g := fun bs => (BigEndian.value bs).toUInt32)
  refine h.of_eq ?_
  simp only [BigEndian.u32, BigEndian.value_bytes]
  have hv : v.toNat % Nat.pow 256 4 = v.toNat := Nat.mod_eq_of_lt v.toNat_lt
  rw [hv]
  exact UInt32.ofNat_toNat

theorem reads_u64 (v : UInt64) : Reads u64 (BigEndian.u64 v) v := by
  have h := (reads_bytes (BigEndian.u64 v)).map (g := fun bs => (BigEndian.value bs).toUInt64)
  refine h.of_eq ?_
  simp only [BigEndian.u64, BigEndian.value_bytes]
  have hv : v.toNat % Nat.pow 256 8 = v.toNat := Nat.mod_eq_of_lt v.toNat_lt
  rw [hv]
  exact UInt64.ofNat_toNat

theorem reads_times_map {r : Reader α} {enc : β → List UInt8} {g : β → α} :
    ∀ {xs : List β}, (∀ x ∈ xs, Reads r (enc x) (g x)) →
      Reads (times r xs.length) (xs.flatMap enc) (xs.map g)
  | [], _ => Reads.pure []
  | x :: xs, h => by
    have hx := h x List.mem_cons_self
    have hrest := reads_times_map fun y hy => h y (List.mem_cons_of_mem x hy)
    exact (hx.bind (hrest.bind_pure (g := (g x :: ·)))).of_bytes (by simp)

theorem reads_times {r : Reader α} {enc : α → List UInt8} {xs : List α}
    (h : ∀ x ∈ xs, Reads r (enc x) x) : Reads (times r xs.length) (xs.flatMap enc) xs := by
  simpa using reads_times_map (g := id) h

theorem reads_list_of_times {r : Reader α} {xs : List α} {bs : List UInt8}
    (hlen : xs.length < 65536) (h : Reads (times r xs.length) bs xs) :
    Reads (list r) (BigEndian.u16 xs.length.toUInt16 ++ bs) xs := by
  have hcount : xs.length.toUInt16.toNat = xs.length := by
    simp only [Nat.toUInt16_eq]
    exact Nat.mod_eq_of_lt hlen
  rw [← hcount] at h
  exact (reads_u16 _).bind h

theorem reads_list {r : Reader α} {enc : α → List UInt8} {xs : List α}
    (hlen : xs.length < 65536) (h : ∀ x ∈ xs, Reads r (enc x) x) :
    Reads (list r) (Writer.list enc xs) xs :=
  reads_list_of_times hlen (reads_times h)

theorem reads_i8 (v : Int) : Reads i8 (BigEndian.int 1 v) (Int8.ofInt v) := by
  rw [BigEndian.int_one]
  refine ((reads_u8 _).map (g := UInt8.toInt8)).of_eq ?_
  apply Int8.toBitVec_inj.mp
  apply BitVec.eq_of_toNat_eq
  change (((BigEndian.int 1 v).headD 0).toNat) = _
  simp only [Int8.toBitVec_ofInt, BitVec.toNat_ofInt]
  simp [BigEndian.int, BigEndian.bytes]
  omega

theorem reads_i16 (v : Int) : Reads i16 (BigEndian.int 2 v) (Int16.ofInt v) := by
  have h := (reads_bytes (BigEndian.int 2 v)).map
    (g := fun bs => (BigEndian.value bs).toUInt16.toInt16)
  refine h.of_eq ?_
  apply Int16.toBitVec_inj.mp
  apply BitVec.eq_of_toNat_eq
  change ((BigEndian.value (BigEndian.int 2 v)).toUInt16).toNat = _
  simp only [BigEndian.value_int, Int16.toBitVec_ofInt, BitVec.toNat_ofInt, Nat.toUInt16_eq]
  change (v % 65536).toNat % 65536 = (v % 65536).toNat
  omega

theorem reads_i32 (v : Int) : Reads i32 (BigEndian.int 4 v) (Int32.ofInt v) := by
  have h := (reads_bytes (BigEndian.int 4 v)).map
    (g := fun bs => (BigEndian.value bs).toUInt32.toInt32)
  refine h.of_eq ?_
  apply Int32.toBitVec_inj.mp
  apply BitVec.eq_of_toNat_eq
  change ((BigEndian.value (BigEndian.int 4 v)).toUInt32).toNat = _
  simp only [BigEndian.value_int, Int32.toBitVec_ofInt, BitVec.toNat_ofInt, Nat.toUInt32_eq]
  change (v % 4294967296).toNat % 4294967296 = (v % 4294967296).toNat
  omega

theorem reads_i32_of_u32 (v : Int32) : Reads i32 (BigEndian.u32 v.toUInt32) v :=
  ((reads_u32 _).map (g := UInt32.toInt32)).of_eq (Int32.toInt32_toUInt32 v)

theorem reads_i64_of_u64 (v : Int64) : Reads i64 (BigEndian.u64 v.toUInt64) v :=
  ((reads_u64 _).map (g := UInt64.toInt64)).of_eq (Int64.toInt64_toUInt64 v)

end Reader

end ClassPatch
