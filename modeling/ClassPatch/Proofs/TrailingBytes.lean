import ClassPatch.Model.Read

/-!
Bytes after a class file. Every reader of the stored structure takes bytes from the front of its
input and decides from what it has taken, never from how much is left; only running out of input
depends on where the input ends. So bytes appended to the input change no run that did not run
out, and are left over after it. A class file is read as a whole before anything is resolved,
and what is resolved reads only the structure, so a class file with bytes after it reads as the
file alone, unless the file alone is truncated.
-/

namespace ClassPatch

namespace Reader

variable {α β : Type}

def Prefixed (r : Reader α) : Prop :=
  ∀ input rest, r.run input ≠ .error .truncated →
    r.run (input ++ rest) = (r.run input).map fun p => (p.1, p.2 ++ rest)

namespace Prefixed

variable {r : Reader α} {f : α → Reader β}

theorem pure (a : α) : Prefixed (Pure.pure a : Reader α) := fun _ _ _ => rfl

theorem fail (e : FormatError) : Prefixed (Reader.fail e : Reader α) := fun _ _ _ => rfl

theorem bind (hr : Prefixed r) (hf : ∀ a, Prefixed (f a)) : Prefixed (r >>= f) := by
  intro input rest h
  have hr' := hr input rest
  simp only [Reader.run, StateT.run_bind] at h hr' ⊢
  cases hrun : StateT.run r input with
  | error e =>
    -- the first reader failed on bytes it had taken, and fails alike
    have he : e ≠ .truncated := fun he => h (by rw [hrun, he]; rfl)
    rw [hr' (by rw [hrun]; exact fun h' => he (Except.error.inj h')), hrun]
    rfl
  | ok p =>
    rw [hrun] at h
    rw [hr' (by rw [hrun]; exact fun h' => by cases h'), hrun]
    exact hf p.1 p.2 rest h

theorem bind_pure {g : α → β} (hr : Prefixed r) : Prefixed (r >>= fun a => Pure.pure (g a)) :=
  hr.bind fun _ => pure _

end Prefixed

theorem prefixed_bytes (n : Nat) : Prefixed (bytes n) := by
  intro input rest h
  simp only [Reader.run, StateT.run, bytes] at h ⊢
  by_cases hn : n ≤ input.length
  · have hn' : n ≤ (input ++ rest).length := by simp; omega
    simp only [hn, hn', if_true, List.take_append_of_le_length hn,
      List.drop_append_of_le_length hn]
    rfl
  · simp [hn] at h

theorem prefixed_u8 : Prefixed u8 := by
  intro input rest h
  cases input with
  | nil => exact absurd rfl h
  | cons b more => rfl

theorem prefixed_u16 : Prefixed u16 := (prefixed_bytes 2).bind_pure

theorem prefixed_u32 : Prefixed u32 := (prefixed_bytes 4).bind_pure

theorem prefixed_u64 : Prefixed u64 := (prefixed_bytes 8).bind_pure

theorem prefixed_i32 : Prefixed i32 := prefixed_u32.bind_pure

theorem prefixed_i64 : Prefixed i64 := prefixed_u64.bind_pure

theorem Prefixed.times {r : Reader α} (hr : Prefixed r) (n : Nat) : Prefixed (times r n) := by
  induction n with
  | zero => exact .pure _
  | succ n ih => exact hr.bind fun _ => ih.bind_pure

theorem Prefixed.list {r : Reader α} (hr : Prefixed r) : Prefixed (list r) :=
  prefixed_u16.bind fun n => hr.times n.toNat

end Reader

open Reader

namespace PoolEntry

theorem prefixed_read : Prefixed read := by
  refine prefixed_u8.bind fun tag => ?_
  -- one case per tag, in the order of the tags
  split
  case h_1 =>
    -- a text is decoded from the bytes its length takes
    refine prefixed_u16.bind fun len => (prefixed_bytes _).bind fun bytes => ?_
    split
    · exact .pure _
    · exact .fail _
  case h_2 => exact prefixed_i32.bind_pure
  case h_3 => exact prefixed_u32.bind_pure
  case h_4 => exact prefixed_i64.bind_pure
  case h_5 => exact prefixed_u64.bind_pure
  case h_6 | h_7 | h_13 | h_16 | h_17 => exact prefixed_u16.bind_pure
  case h_8 | h_9 | h_10 | h_11 | h_14 | h_15 =>
    exact prefixed_u16.bind fun _ => prefixed_u16.bind_pure
  case h_12 =>
    refine prefixed_u8.bind fun code => ?_
    split
    · exact prefixed_u16.bind_pure
    · exact .fail _
  case h_18 => exact .fail _

end PoolEntry

namespace Pool

theorem prefixed_readEntries (count fuel index : Nat) : Prefixed (readEntries count fuel index) := by
  induction fuel generalizing index with
  | zero => exact .pure _
  | succ fuel ih =>
    unfold readEntries
    split
    · exact PoolEntry.prefixed_read.bind fun e => (ih _).bind_pure
    · exact .pure _

theorem prefixed_read : Prefixed read :=
  prefixed_u16.bind fun _ => (prefixed_readEntries _ _ _).bind_pure

end Pool

theorem RawAttribute.prefixed_read : Prefixed RawAttribute.read :=
  prefixed_u16.bind fun _ => prefixed_u32.bind fun _ => (prefixed_bytes _).bind_pure

theorem RawMember.prefixed_read : Prefixed RawMember.read :=
  prefixed_u16.bind fun _ => prefixed_u16.bind fun _ => prefixed_u16.bind fun _ =>
    RawAttribute.prefixed_read.list.bind_pure

theorem RawClass.prefixed_read : Prefixed RawClass.read := by
  refine prefixed_u32.bind fun m => ?_
  -- a bad magic number is refused from the four bytes read
  split
  · exact .fail _
  · exact prefixed_u16.bind fun _ => prefixed_u16.bind fun _ => Pool.prefixed_read.bind fun _ =>
      prefixed_u16.bind fun _ => prefixed_u16.bind fun _ => prefixed_u16.bind fun _ =>
      prefixed_u16.list.bind fun _ => RawMember.prefixed_read.list.bind fun _ =>
      RawMember.prefixed_read.list.bind fun _ => RawAttribute.prefixed_read.list.bind_pure

/-- Bytes after a class file change nothing in reading it, unless the file alone is truncated:
it reads to the same class, or fails with the same error. -/
theorem ClassModel.parse_append_of_ne_truncated (bytes rest : List UInt8) (options : ReadOptions)
    (h : parse bytes options ≠ .error .truncated) : parse (bytes ++ rest) options = parse bytes options := by
  unfold parse at h ⊢
  cases hraw : RawClass.read.run bytes with
  | error e =>
    have he : e ≠ .truncated := fun he => h (by rw [hraw, he]; rfl)
    rw [RawClass.prefixed_read bytes rest (by rw [hraw]; exact fun h' => he (Except.error.inj h')),
      hraw]
    rfl
  | ok p =>
    obtain ⟨raw, left⟩ := p
    rw [RawClass.prefixed_read bytes rest (by rw [hraw]; exact fun h' => by cases h'), hraw]
    rfl

def ClassModel.sampleEmpty : List UInt8 :=
  [0xCA, 0xFE, 0xBA, 0xBE, 0, 0, 0, 0x34, 0, 3, 1, 0, 1, 0x43, 7, 0, 1,
    0, 0x21, 0, 2, 0, 0, 0, 0, 0, 0, 0, 0, 0, 0]

theorem ClassModel.parse_sampleEmpty_trailing :
    ∃ c, parse sampleEmpty {} = .ok c ∧ parse (sampleEmpty ++ [0xCA, 0xFE, 0xBA, 0xBE]) {} = .ok c := by
  have h : parse sampleEmpty {} = .ok _ := rfl
  exact ⟨_, h, (parse_append_of_ne_truncated _ _ _ (by rw [h]; exact fun h' => by cases h')).trans h⟩

end ClassPatch
