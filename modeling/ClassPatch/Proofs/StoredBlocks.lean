import Mathlib.Tactic.Ring
import ClassPatch.Compress.Inflate
import ClassPatch.Compress.Stored
import ClassPatch.Compress.Deflate
import ClassPatch.Compress.Gzip

namespace ClassPatch

def BytesAt (input : Array UInt8) (k : Nat) (l : List UInt8) : Prop := l <+: input.toList.drop k

section BytesAt

variable {input : Array UInt8} {k : Nat} {l l₁ l₂ : List UInt8} {byte : UInt8}

theorem BytesAt.left (h : BytesAt input k (l₁ ++ l₂)) : BytesAt input k l₁ :=
  (List.prefix_append l₁ l₂).trans h

theorem BytesAt.right (h : BytesAt input k (l₁ ++ l₂)) : BytesAt input (k + l₁.length) l₂ := by
  obtain ⟨t, ht⟩ := h
  refine ⟨t, ?_⟩
  rw [← List.drop_drop, ← ht, List.append_assoc, List.drop_left]

theorem BytesAt.head (h : BytesAt input k (byte :: l)) : input[k]? = some byte := by
  obtain ⟨t, ht⟩ := h
  have := congrArg (·[0]?) ht
  simpa using this.symm

theorem BytesAt.tail (h : BytesAt input k (byte :: l)) : BytesAt input (k + 1) l :=
  BytesAt.right (show BytesAt input k ([byte] ++ l) from h)

theorem bytesAt_self (l : List UInt8) : BytesAt l.toArray 0 l := by
  simp [BytesAt]

theorem bytesAt_append (pre l post : List UInt8) : BytesAt (pre ++ l ++ post).toArray pre.length l := by
  have := (bytesAt_self (pre ++ (l ++ post))).right
  rw [Nat.zero_add, ← List.append_assoc] at this
  exact this.left

theorem BytesAt.getD (h : BytesAt input k l) {i : Nat} (hi : i < l.length) :
    input.getD (k + i) 0 = l[i] := by
  obtain ⟨t, ht⟩ := h
  have := congrArg (·[i]?) ht
  simp only [List.getElem?_append_left hi, List.getElem?_drop, List.getElem?_eq_getElem hi,
    Array.getElem?_toList] at this
  simp [Array.getD_eq_getD_getElem?, ← this]

theorem BytesAt.extract (h : BytesAt input k l) : (input.extract k (k + l.length)).toList = l := by
  obtain ⟨t, ht⟩ := h
  rw [Array.toList_extract, List.extract_eq_take_drop, ← ht, Nat.add_sub_cancel_left,
    List.take_left' rfl]

theorem BytesAt.le_size (h : BytesAt input k l) (hl : 0 < l.length) : k + l.length ≤ input.size := by
  have := h.length_le
  simp only [List.length_drop, Array.length_toList] at this
  omega

end BytesAt

namespace Inflate

def Runs {α : Type} (x : InflateM α) (s : Inflater) (a : α) (s' : Inflater) : Prop :=
  x.run.run s = (.ok a, s')

section Runs

variable {α β : Type} {x : InflateM α} {f : α → InflateM β} {s s₁ s₂ : Inflater} {a : α}
  {b : β}

theorem Runs.bind (hx : Runs x s a s₁) (hf : Runs (f a) s₁ b s₂) : Runs (x >>= f) s b s₂ := by
  unfold Runs at *
  rw [ExceptT.run_bind, StateT.run_bind, hx]
  exact hf

theorem runs_pure : Runs (pure a : InflateM α) s a s := rfl

theorem runs_pure_of_eq {a' : α} {s' : Inflater} (ha : a = a') (hs : s = s') :
    Runs (pure a : InflateM α) s a' s' := by
  subst ha hs
  rfl

theorem runs_get : Runs (get : InflateM Inflater) s s s := rfl

theorem runs_set (t : Inflater) : Runs (set t : InflateM PUnit) s ⟨⟩ t := rfl

theorem runs_modify (g : Inflater → Inflater) : Runs (modify g : InflateM PUnit) s ⟨⟩ (g s) := rfl

theorem runs_emit (byte : UInt8) :
    Runs (emit byte) s () { s with output := s.output.push byte } := rfl

end Runs

theorem runs_bit {s : Inflater} {byte : UInt8} (h : s.input[s.position / 8]? = some byte) :
    Runs bit s ((byte.toNat >>> (s.position % 8)) % 2) { s with position := s.position + 1 } := by
  unfold bit
  refine runs_get.bind ?_
  simp only [h]
  exact (runs_set _).bind runs_pure

theorem bits_add (m n : Nat) :
    bits (m + n) = (do let lo ← bits m; let hi ← bits n; pure (lo + 2 ^ m * hi)) := by
  induction m with
  | zero => simp only [Nat.zero_add, bits, pure_bind, Nat.pow_zero, Nat.one_mul, bind_pure]
  | succ m ih =>
    rw [Nat.add_right_comm, bits, ih, bits]
    simp only [bind_assoc, pure_bind]
    congr 1
    funext low
    congr 1
    funext lo
    congr 1
    funext hi
    congr 1
    ring

theorem runs_bits_within {byte : UInt8} {k : Nat} :
    ∀ {n j : Nat} {s : Inflater}, s.input[k]? = some byte → s.position = 8 * k + j →
      j + n ≤ 8 →
      Runs (bits n) s (byte.toNat / 2 ^ j % 2 ^ n) { s with position := 8 * k + j + n }
  | 0, j, s, _, hpos, _ => by
    rw [bits, Nat.pow_zero, Nat.mod_one, Nat.add_zero, ← hpos]
    exact runs_pure
  | n + 1, j, s, hbyte, hpos, hj => by
    have hk : s.position / 8 = k := by omega
    have hbit : s.position % 8 = j := by omega
    rw [bits]
    refine (runs_bit (hk ▸ hbyte)).bind ?_
    refine (runs_bits_within (n := n) (j := j + 1) (s := { s with position := s.position + 1 })
      hbyte (by show s.position + 1 = _; omega) (by omega)).bind ?_
    refine runs_pure_of_eq ?_ (by simp only [Inflater.mk.injEq, true_and, and_true]; omega)
    -- the low bit and the `n` bits above it are the `n + 1` bits from bit `j`
    rw [hbit, Nat.shiftRight_eq_div_pow, Nat.pow_succ, Nat.pow_succ, ← Nat.div_div_eq_div_mul,
      Nat.mul_comm (2 ^ n) 2, Nat.mod_mul]

theorem runs_bits_byte {s : Inflater} {byte : UInt8} {k : Nat} (hbyte : s.input[k]? = some byte)
    (hpos : s.position = 8 * k) :
    Runs (bits 8) s byte.toNat { s with position := 8 * (k + 1) } := by
  have h := runs_bits_within (n := 8) (j := 0) hbyte (by omega) (by omega)
  rw [Nat.pow_zero, Nat.div_one, Nat.mod_eq_of_lt byte.toNat_lt,
    show 8 * k + 0 + 8 = 8 * (k + 1) by omega] at h
  exact h

theorem runs_bits_le16 {s : Inflater} {k : Nat} {lo hi : UInt8} (hat : BytesAt s.input k [lo, hi])
    (hpos : s.position = 8 * k) :
    Runs (bits 16) s (lo.toNat + 256 * hi.toNat) { s with position := 8 * (k + 2) } := by
  rw [show 16 = 8 + 8 from rfl, bits_add]
  refine (runs_bits_byte hat.head hpos).bind ?_
  refine (runs_bits_byte (s := { s with position := 8 * (k + 1) }) hat.tail.head rfl).bind ?_
  exact runs_pure

theorem runs_storedBytes :
    ∀ {d : List UInt8} {s : Inflater} {k : Nat}, BytesAt s.input k d → s.position = 8 * k →
      Runs (storedBytes d.length) s ()
        { s with position := 8 * (k + d.length), output := s.output ++ d.toArray }
  | [], s, k, _, hpos => by
    rw [List.length_nil, storedBytes, Nat.add_zero, ← hpos]
    exact runs_pure_of_eq rfl (by cases s; simp)
  | byte :: d, s, k, hat, hpos => by
    rw [List.length_cons, storedBytes]
    refine (runs_bits_byte hat.head hpos).bind ?_
    rw [Nat.toUInt8_eq, UInt8.ofNat_toNat]
    refine (runs_emit byte).bind ?_
    have hrest := runs_storedBytes
      (s := { s with position := 8 * (k + 1), output := s.output.push byte }) hat.tail rfl
    have hout : s.output.push byte ++ d.toArray = s.output ++ (byte :: d).toArray := by
      rw [← Array.toList_inj]
      simp
    rw [hout, show k + 1 + d.length = k + (d.length + 1) by omega] at hrest
    exact hrest

theorem runs_bits_storedLength {s : Inflater} {k n : Nat} (hn : n ≤ 0xFFFF)
    (hat : BytesAt s.input k (Stored.le16 n)) (hpos : s.position = 8 * k) :
    Runs (bits 16) s n { s with position := 8 * (k + 2) } := by
  have h := runs_bits_le16 hat hpos
  have hvalue : (n % 256).toUInt8.toNat + 256 * (n / 256 % 256).toUInt8.toNat = n := by
    simp only [Nat.toUInt8_eq, UInt8.toNat_ofNat', Nat.reducePow]
    omega
  rwa [hvalue] at h

theorem runs_stored {s : Inflater} {k : Nat} {d : List UInt8} (hd : d.length ≤ 0xFFFF)
    (hat : BytesAt s.input (k + 1) (Stored.le16 d.length ++ Stored.le16 (0xFFFF - d.length) ++ d))
    (hpos : s.position = 8 * k + 3) :
    Runs stored s ()
      { s with position := 8 * (k + 5 + d.length), output := s.output ++ d.toArray } := by
  unfold stored
  refine (runs_modify _).bind ?_
  have haligned : (s.position + 7) / 8 * 8 = 8 * (k + 1) := by omega
  refine (runs_bits_storedLength (s := { s with position := (s.position + 7) / 8 * 8 }) hd
    hat.left.left haligned).bind ?_
  refine (runs_bits_storedLength (s := { s with position := 8 * (k + 1 + 2) }) (by omega)
    hat.left.right rfl).bind ?_
  have hcheck : (d.length + (0xFFFF - d.length) != 0xFFFF) = false := by
    simp only [bne_eq_false_iff_eq]
    omega
  rw [hcheck]
  refine runs_pure.bind ?_
  have hbytes := runs_storedBytes (s := { s with position := 8 * (k + 1 + 2 + 2) })
    (k := k + 1 + 2 + 2) hat.right rfl
  rwa [show k + 1 + 2 + 2 + d.length = k + 5 + d.length by omega] at hbytes

theorem runs_blocks_step {fuel left k : Nat} {final : Bool} {d : List UInt8} {s s' : Inflater}
    (hd : d.length ≤ 0xFFFF) (hat : BytesAt s.input k (Stored.block final d)) (hpos : s.position = 8 * k)
    (hnext : Runs (if final then pure () else blocks fuel left)
      { s with position := 8 * (k + 5 + d.length), output := s.output ++ d.toArray } () s') :
    Runs (blocks fuel (left + 1)) s () s' := by
  have hheader := hat.head
  have hbody := hat.tail
  rw [blocks]
  -- the final bit, then the block type zero of a stored block
  refine (runs_bits_within (n := 1) (j := 0) hheader (by omega) (by omega)).bind ?_
  refine (runs_bits_within (n := 2) (j := 1) (s := { s with position := 8 * k + 0 + 1 }) hheader
    rfl (by omega)).bind ?_
  have hkind : ((if final then 1 else 0 : UInt8).toNat / 2 ^ 1 % 2 ^ 2 == 0) = true := by
    cases final <;> rfl
  rw [hkind, if_pos rfl]
  refine (runs_stored (s := { s with position := 8 * k + 1 + 2 }) hd hbody rfl).bind ?_
  have hfinal : ((if final then 1 else 0 : UInt8).toNat / 2 ^ 0 % 2 ^ 1 == 1) = final := by
    cases final <;> rfl
  rw [hfinal]
  exact hnext

theorem length_block (final : Bool) (d : List UInt8) :
    (Stored.block final d).length = 5 + d.length := by
  simp only [Stored.block, Stored.le16, List.length_cons, List.length_append, List.length_nil]

theorem le_length_blocks : ∀ (f : Nat) (d : List UInt8), d.length + 5 ≤ (Stored.blocks f d).length
  | 0, d => by rw [Stored.blocks, length_block]; omega
  | f + 1, d => by
    rw [Stored.blocks]
    split
    · rw [length_block]
      omega
    · have := le_length_blocks f (d.drop Stored.blockLimit)
      rw [List.length_append, length_block, List.length_take, List.length_drop] at *
      omega

theorem runs_blocks (fuel : Nat) : ∀ {f : Nat} (left : Nat) {d : List UInt8} {s : Inflater} {k : Nat},
    d.length < Stored.blockLimit * f → f ≤ left → BytesAt s.input k (Stored.blocks f d) →
    s.position = 8 * k →
    Runs (blocks fuel left) s ()
      { s with position := 8 * (k + (Stored.blocks f d).length), output := s.output ++ d.toArray }
  | 0, _, _, _, _, hd, _, _, _ => absurd hd (Nat.not_lt_zero _)
  | f + 1, left, d, s, k, hd, hleft, hat, hpos => by
    obtain ⟨left, rfl⟩ : ∃ l, left = l + 1 := ⟨left - 1, by omega⟩
    rw [Stored.blocks] at hat ⊢
    split
    case isTrue hsmall =>
      -- the last block, which ends the stream
      rw [if_pos hsmall] at hat
      refine runs_blocks_step hsmall hat hpos ?_
      rw [length_block, ← Nat.add_assoc]
      exact runs_pure
    case isFalse hlarge =>
      -- a full block, then the blocks of the rest
      rw [if_neg hlarge] at hat
      have htake : (d.take Stored.blockLimit).length = Stored.blockLimit := by
        simp only [List.length_take]
        omega
      refine runs_blocks_step (by rw [htake]; rfl) hat.left hpos ?_
      have hrest := runs_blocks fuel left (f := f)
        (d := d.drop Stored.blockLimit) (k := k + 5 + (d.take Stored.blockLimit).length)
        (s := { s with position := 8 * (k + 5 + (d.take Stored.blockLimit).length),
                       output := s.output ++ (d.take Stored.blockLimit).toArray })
        (by simp only [List.length_drop]; unfold Stored.blockLimit at *; omega) (by omega)
        (by have h := hat.right; rwa [length_block, ← Nat.add_assoc] at h) rfl
      have hout : s.output ++ d.toArray = s.output ++ (d.take Stored.blockLimit).toArray ++
          (d.drop Stored.blockLimit).toArray := by
        rw [← Array.toList_inj]
        simp
      rw [hout, List.length_append, length_block,
        show ∀ a b : Nat, k + (5 + a + b) = k + 5 + a + b by intros; omega]
      exact hrest

end Inflate

theorem inflate_stored {input : Array UInt8} {k : Nat} {data : List UInt8}
    (hat : BytesAt input k (Stored.deflate data)) :
    inflate input k = (data.toArray, .done (k + (Stored.deflate data).length)) := by
  have hlength := Inflate.le_length_blocks (data.length / Stored.blockLimit + 1) data
  have hsize := hat.le_size (by unfold Stored.deflate; omega)
  have hrun := Inflate.runs_blocks (8 * input.size + 8) (8 * input.size + 8)
    (f := data.length / Stored.blockLimit + 1) (s := { input, position := 8 * k }) (k := k)
    (by unfold Stored.blockLimit; omega)
    (by unfold Stored.deflate at hsize; unfold Stored.blockLimit at *; omega) hat rfl
  have hall : Inflate.Runs (do
      Inflate.blocks (8 * input.size + 8) (8 * input.size + 8)
      let s ← get
      pure ((s.position + 7) / 8))
      { input, position := 8 * k } (k + (Stored.deflate data).length) _ :=
    hrun.bind (Inflate.runs_get.bind (Inflate.runs_pure_of_eq (by dsimp only [Stored.deflate]; omega) rfl))
  unfold inflate
  dsimp only
  unfold Inflate.Runs at hall
  rw [hall]
  dsimp only
  rw [Array.empty_append]

namespace Gzip

theorem headerLength_encode (bytes : List UInt8) : headerLength (encode bytes) = some 10 := by
  simp [headerLength, encode, optionalField, reservedFlags, headerCheckFlag]

theorem le32_le32Bytes (n : Nat) : le32 (le32Bytes n) = n % 4294967296 := by
  simp only [le32, le32Bytes, Stored.le16, List.cons_append, List.nil_append, List.foldr_cons,
    List.foldr_nil, Nat.toUInt8_eq, UInt8.toNat_ofNat']
  omega

@[simp] theorem length_le32Bytes (n : Nat) : (le32Bytes n).length = 4 := rfl

theorem bytesAt_encode (bytes : List UInt8) :
    BytesAt (encode bytes).toArray 10 (Stored.deflate bytes) := by
  simpa [encode, List.append_assoc] using bytesAt_append [0x1f, 0x8b, 0x08, 0, 0, 0, 0, 0, 0, 0xff]
    (Stored.deflate bytes) (le32Bytes (Crc32.checksum bytes).toNat ++
      le32Bytes (bytes.length % Nat.pow 2 32))

theorem drop_encode (bytes : List UInt8) :
    (encode bytes).drop (10 + (Stored.deflate bytes).length) =
      le32Bytes (Crc32.checksum bytes).toNat ++ le32Bytes (bytes.length % Nat.pow 2 32) := by
  rw [encode, List.append_assoc _ (le32Bytes _), List.drop_left' (by simp; omega)]

/-- The trailer `encode` writes holds the checksum and the length of the bytes. -/
theorem trailerMatches_encode (bytes : List UInt8) :
    trailerMatches bytes.toArray
      (le32Bytes (Crc32.checksum bytes).toNat ++ le32Bytes (bytes.length % Nat.pow 2 32)) = true := by
  have hcrc : Crc32.checksumArray bytes.toArray = Crc32.checksum bytes := by
    simp [Crc32.checksumArray, Crc32.checksum]
  have hc := (Crc32.checksum bytes).toNat_lt
  simp only [trailerMatches, List.length_append, length_le32Bytes,
    List.take_left' (length_le32Bytes _), List.drop_left' (length_le32Bytes _),
    List.take_of_length_le (Nat.le_of_eq (length_le32Bytes _)), le32_le32Bytes, hcrc,
    List.size_toArray, Nat.pow_eq]
  simp only [Nat.reducePow] at hc ⊢
  simp [Nat.mod_eq_of_lt hc]

theorem library_lossless : library.Lossless := by
  intro bytes
  change decode (encode bytes) = (bytes, false)
  unfold decode
  rw [headerLength_encode]
  dsimp only
  rw [inflate_stored (bytesAt_encode bytes)]
  dsimp only
  rw [drop_encode, trailerMatches_encode]
  simp

end Gzip

theorem DeflateLibrary.stored_inverts : DeflateLibrary.stored.Inverts := by
  intro data
  unfold DeflateLibrary.stored
  dsimp only
  rw [inflate_stored (bytesAt_self _)]

end ClassPatch
