import Mathlib.Data.FinEnum
import ClassPatch.Text.ModifiedUtf8

/-!
Texts read back from their bytes. Modified UTF-8 writes each code unit on its own in one, two
or three bytes, and reading takes those forms apart again, so every sequence of units, unpaired
surrogates and NUL included, comes back. UTF-16 splits a character above `U+FFFF` into a pair of
surrogates, so an ordinary string comes back from its units and well-formed units from their
characters. A Java string holds well-formed units as an ordinary string, so it is the Java string
of its units, and two Java strings are equal exactly when their units are.
-/

namespace ClassPatch

namespace Utf16

theorem toNat_ofNat {n : Nat} (h : n.isValidChar) : (Char.ofNat n).toNat = n := by
  rw [Char.ofNat, dif_pos h]
  rfl

theorem isValidChar_of_lt {n : Nat} (h : n < 0xD800 ∨ 0xDFFF < n ∧ n < 0x110000) :
    n.isValidChar := by
  simp only [Nat.isValidChar]
  omega

-- The code point of a pair lies above `U+FFFF`, and splitting it again gives the two surrogates.
theorem ofChar_pairChar {high low : UInt16} (hh : isHigh high = true) (hl : isLow low = true) :
    ofChar (pairChar high low) = [high, low] := by
  simp only [isHigh, isLow, Bool.and_eq_true, decide_eq_true_eq, UInt16.le_iff_toNat_le,
    UInt16.lt_iff_toNat_lt] at hh hl
  change 55296 ≤ high.toNat ∧ high.toNat < 56320 at hh
  change 56320 ≤ low.toNat ∧ low.toNat < 57344 at hl
  have hc : (pairChar high low).toNat =
      0x10000 + (high.toNat - 0xD800) * 0x400 + (low.toNat - 0xDC00) :=
    toNat_ofNat (isValidChar_of_lt (by omega))
  have hhi : (0xD800 + ((pairChar high low).toNat - 0x10000) / 0x400).toUInt16 = high := by
    apply UInt16.toNat_inj.1
    rw [Nat.toUInt16_eq, UInt16.toNat_ofNat_of_lt' (by change _ < 65536; omega), hc]
    omega
  have hlo : (0xDC00 + ((pairChar high low).toNat - 0x10000) % 0x400).toUInt16 = low := by
    apply UInt16.toNat_inj.1
    rw [Nat.toUInt16_eq, UInt16.toNat_ofNat_of_lt' (by change _ < 65536; omega), hc]
    omega
  simp only [ofChar, hhi, hlo, if_neg (show ¬ (pairChar high low).toNat < 0x10000 by omega)]

theorem ofChar_unit {unit : UInt16} (hh : isHigh unit = false) (hl : isLow unit = false) :
    ofChar (Char.ofNat unit.toNat) = [unit] := by
  simp only [isHigh, isLow, Bool.and_eq_false_iff, decide_eq_false_iff_not,
    UInt16.le_iff_toNat_le, UInt16.lt_iff_toNat_lt] at hh hl
  change ¬ 55296 ≤ unit.toNat ∨ ¬ unit.toNat < 56320 at hh
  change ¬ 56320 ≤ unit.toNat ∨ ¬ unit.toNat < 57344 at hl
  have hlt := unit.toNat_lt
  have hc : (Char.ofNat unit.toNat).toNat = unit.toNat :=
    toNat_ofNat (isValidChar_of_lt (by change _ < 65536 at hlt; omega))
  simp [ofChar, hc, hlt]

theorem encode_of_decode? {us : List UInt16} {cs : List Char} (h : decode? us = some cs) :
    encode cs = us := by
  fun_induction decode? us generalizing cs with
  | case1 => simp_all [encode]
  | case2 unit hhigh low rest hlow ih =>
    obtain ⟨cs', hcs', rfl⟩ := Option.map_eq_some_iff.1 h
    rw [encode, List.flatMap_cons, ofChar_pairChar hhigh hlow, ← encode, ih hcs']
    rfl
  | case3 => simp at h
  | case4 => simp at h
  | case5 => simp at h
  | case6 unit rest hhigh hlow ih =>
    obtain ⟨cs', hcs', rfl⟩ := Option.map_eq_some_iff.1 h
    rw [encode, List.flatMap_cons, ofChar_unit (by simpa using hhigh) (by simpa using hlow),
      ← encode, ih hcs']
    rfl

-- A character is one unit outside the surrogates, or a high and a low surrogate above U+FFFF.
theorem decode_ofChar_append (c : Char) (rest : List UInt16) :
    decode? (ofChar c ++ rest) = (decode? rest).map (c :: ·) := by
  have hvalid := c.valid
  have hc : c.toNat = c.val.toNat := rfl
  simp only [UInt32.isValidChar, Nat.isValidChar] at hvalid
  rw [← hc] at hvalid
  have hmax : c.toNat < 1114112 := by omega
  unfold ofChar
  by_cases hsmall : c.toNat < 0x10000
  · -- one unit, which is no surrogate
    have hu : c.toNat.toUInt16.toNat = c.toNat := by
      rw [Nat.toUInt16_eq, UInt16.toNat_ofNat_of_lt' hsmall]
    have hnh : isHigh c.toNat.toUInt16 = false := by
      simp only [isHigh, Bool.and_eq_false_iff, decide_eq_false_iff_not, UInt16.le_iff_toNat_le,
        UInt16.lt_iff_toNat_lt, hu]
      change ¬ 55296 ≤ c.toNat ∨ ¬ c.toNat < 56320
      omega
    have hnl : isLow c.toNat.toUInt16 = false := by
      simp only [isLow, Bool.and_eq_false_iff, decide_eq_false_iff_not, UInt16.le_iff_toNat_le,
        UInt16.lt_iff_toNat_lt, hu]
      change ¬ 56320 ≤ c.toNat ∨ ¬ c.toNat < 57344
      omega
    rw [if_pos hsmall, List.cons_append, List.nil_append, decode?.eq_def]
    simp only [hnh, hnl, Bool.false_eq_true, if_false, hu, Char.ofNat_toNat]
  · -- a high surrogate for the upper ten bits, a low one for the lower ten
    have hh : (0xD800 + (c.toNat - 0x10000) / 0x400).toUInt16.toNat =
        0xD800 + (c.toNat - 0x10000) / 0x400 := by
      rw [Nat.toUInt16_eq, UInt16.toNat_ofNat_of_lt' (by change _ < 65536; omega)]
    have hl : (0xDC00 + (c.toNat - 0x10000) % 0x400).toUInt16.toNat =
        0xDC00 + (c.toNat - 0x10000) % 0x400 := by
      rw [Nat.toUInt16_eq, UInt16.toNat_ofNat_of_lt' (by change _ < 65536; omega)]
    have hhigh : isHigh (0xD800 + (c.toNat - 0x10000) / 0x400).toUInt16 = true := by
      simp only [isHigh, Bool.and_eq_true, decide_eq_true_eq, UInt16.le_iff_toNat_le,
        UInt16.lt_iff_toNat_lt, hh]
      change 55296 ≤ _ ∧ _ < 56320
      omega
    have hlow : isLow (0xDC00 + (c.toNat - 0x10000) % 0x400).toUInt16 = true := by
      simp only [isLow, Bool.and_eq_true, decide_eq_true_eq, UInt16.le_iff_toNat_le,
        UInt16.lt_iff_toNat_lt, hl]
      change 56320 ≤ _ ∧ _ < 57344
      omega
    have hpair : pairChar (0xD800 + (c.toNat - 0x10000) / 0x400).toUInt16
        (0xDC00 + (c.toNat - 0x10000) % 0x400).toUInt16 = c := by
      rw [pairChar, hh, hl]
      have : 0x10000 + (0xD800 + (c.toNat - 0x10000) / 0x400 - 0xD800) * 0x400 +
          (0xDC00 + (c.toNat - 0x10000) % 0x400 - 0xDC00) = c.toNat := by
        omega
      rw [this, Char.ofNat_toNat]
    rw [if_neg hsmall, List.cons_append, List.cons_append, List.nil_append, decode?.eq_def]
    simp only [hhigh, hlow, if_true, hpair]

theorem decode_encode (cs : List Char) : decode? (encode cs) = some cs := by
  induction cs with
  | nil => rfl
  | cons c cs ih =>
    rw [encode, List.flatMap_cons, decode_ofChar_append, ← encode, ih]
    rfl

theorem decode?_eq_some_iff {us : List UInt16} {cs : List Char} :
    decode? us = some cs ↔ encode cs = us :=
  ⟨encode_of_decode?, fun h => h ▸ decode_encode cs⟩

end Utf16

namespace JavaString

theorem decode?_units (s : JavaString) :
    Utf16.decode? s.units = s.toString?.map String.toList := by
  obtain ⟨form, hcanonical⟩ := s
  cases form with
  | text text => exact Utf16.decode_encode text.toList
  | units units => exact hcanonical

theorem toString?_eq_decode? (s : JavaString) :
    s.toString? = (Utf16.decode? s.units).map String.ofList := by
  rw [decode?_units, Option.map_map]
  cases s.toString? <;> simp

theorem units_injective : Function.Injective units := by
  rintro ⟨form₁, hcanonical₁⟩ ⟨form₂, hcanonical₂⟩ hunits
  have hdecode := congrArg Utf16.decode? hunits
  rw [decode?_units, decode?_units] at hdecode
  cases form₁ with
  | text text₁ =>
    cases form₂ with
    | text text₂ => simpa [toString?, String.toList_inj] using hdecode
    | units _ => simp [toString?] at hdecode
  | units units₁ =>
    cases form₂ with
    | text _ => simp [toString?] at hdecode
    | units units₂ => simpa [JavaString.units] using hunits

@[simp] theorem units_ofUtf16 (units : List UInt16) : (ofUtf16 units).units = units := by
  unfold ofUtf16
  split
  · next chars h => simp [JavaString.units, Utf16.encode_of_decode? h]
  · rfl

@[simp] theorem ofUtf16_units (s : JavaString) : ofUtf16 s.units = s :=
  units_injective (units_ofUtf16 s.units)

@[simp] theorem toString?_ofString (s : String) : (ofString s).toString? = some s := rfl

theorem ofString_of_toString? {s : JavaString} {text : String} (h : s.toString? = some text) :
    ofString text = s := by
  apply units_injective
  have hdecode : Utf16.decode? s.units = some text.toList := by
    rw [decode?_units, h]
    rfl
  exact Utf16.encode_of_decode? hdecode

end JavaString

namespace ModifiedUtf8

section Bytes

set_option maxRecDepth 8192

-- What the lead and continuation bytes of a form are, one byte value at a time.
private theorem or_192 : ∀ b : UInt8, b.toNat < 32 → ((0xC0 : UInt8) ||| b).toNat = 192 + b.toNat := by
  decide

private theorem or_224 : ∀ b : UInt8, b.toNat < 16 → ((0xE0 : UInt8) ||| b).toNat = 224 + b.toNat := by
  decide

private theorem or_128 : ∀ b : UInt8, b.toNat < 64 → ((0x80 : UInt8) ||| b).toNat = 128 + b.toNat := by
  decide

private theorem shift_five : ∀ b : UInt8, (b >>> 5 == 0x6) = (b.toNat / 32 == 6) := by
  decide

private theorem shift_four : ∀ b : UInt8, (b >>> 4 == 0xE) = (b.toNat / 16 == 14) := by
  decide

private theorem continuation : ∀ b : UInt8, isContinuation b = (b.toNat / 64 == 2) := by
  decide

private theorem and_31 : ∀ b : UInt8, (b &&& 0x1F).toNat = b.toNat % 32 := by
  decide

private theorem and_15 : ∀ b : UInt8, (b &&& 0x0F).toNat = b.toNat % 16 := by
  decide

private theorem payload_toNat : ∀ b : UInt8, (payload b).toNat = b.toNat % 64 := by
  decide

end Bytes

section Units

variable (u : UInt16)

-- The bits of a unit that each byte of its form carries.
private theorem low_bits (k : Nat) (m : UInt16) (hm : m.toNat = Nat.pow 2 k - 1) (s : UInt16)
    (hs : s.toNat < 16) :
    ((u >>> s) &&& m).toUInt8.toNat = u.toNat / Nat.pow 2 s.toNat % Nat.pow 2 k % 256 := by
  simp only [UInt16.toNat_toUInt8, UInt16.toNat_and, UInt16.toNat_shiftRight, Nat.mod_eq_of_lt hs,
    Nat.shiftRight_eq_div_pow, hm]
  rw [show Nat.pow 2 k - 1 = 2 ^ k - 1 from rfl, Nat.and_two_pow_sub_one_eq_mod]
  rfl

private theorem toUInt8_toNat_of_lt (h : u.toNat < 128) : u.toUInt8.toNat = u.toNat := by
  rw [UInt16.toNat_toUInt8]
  exact Nat.mod_eq_of_lt (by omega)

-- Joining the payloads of a form's bytes as the reader does: shifted bits and low bits add up.
private theorem shiftLeft_toNat (a k : UInt16) (hk : k.toNat < 16)
    (ha : a.toNat * Nat.pow 2 k.toNat < 65536) : (a <<< k).toNat = a.toNat * Nat.pow 2 k.toNat := by
  rw [UInt16.toNat_shiftLeft, Nat.mod_eq_of_lt hk, Nat.shiftLeft_eq]
  exact Nat.mod_eq_of_lt ha

private theorem or_toNat (x c : UInt16) (k : Nat) (hc : c.toNat < Nat.pow 2 k)
    (hx : x.toNat % Nat.pow 2 k = 0) : (x ||| c).toNat = x.toNat + c.toNat := by
  have hsplit : x.toNat = x.toNat / Nat.pow 2 k * Nat.pow 2 k := by
    have := Nat.div_add_mod x.toNat (Nat.pow 2 k)
    rw [hx, Nat.add_zero] at this
    rw [Nat.mul_comm]
    exact this.symm
  rw [UInt16.toNat_or, hsplit]
  change x.toNat / 2 ^ k * 2 ^ k ||| c.toNat = x.toNat / 2 ^ k * 2 ^ k + c.toNat
  rw [← Nat.shiftLeft_eq, Nat.shiftLeft_add_eq_or_of_lt hc]

private theorem mask_toNat (k : Nat) (m : UInt16) (hm : m.toNat = Nat.pow 2 k - 1) :
    (u &&& m).toUInt8.toNat = u.toNat % Nat.pow 2 k % 256 := by
  simp only [UInt16.toNat_toUInt8, UInt16.toNat_and, hm]
  rw [show Nat.pow 2 k - 1 = 2 ^ k - 1 from rfl, Nat.and_two_pow_sub_one_eq_mod]
  rfl

theorem decodeUnits_encodeUnit (rest : List UInt8) :
    decodeUnits? (encodeUnit u ++ rest) = (decodeUnits? rest).map (u :: ·) := by
  have hu : u.toNat < 65536 := u.toNat_lt
  unfold encodeUnit
  by_cases h₁ : (0x0001 ≤ u && u ≤ 0x007F) = true
  · -- one byte below 0x80
    have hr : 1 ≤ u.toNat ∧ u.toNat ≤ 127 := by
      simpa [UInt16.le_iff_toNat_le] using h₁
    have hb := toUInt8_toNat_of_lt u (by omega)
    have hlt : u.toUInt8 < 0x80 := by
      rw [UInt8.lt_iff_toNat_lt, hb]
      change u.toNat < 128
      omega
    have hback : u.toUInt8.toUInt16 = u := by
      apply UInt16.toNat_inj.mp
      rw [UInt8.toNat_toUInt16, hb]
    rw [if_pos h₁, List.cons_append, List.nil_append, decodeUnits?.eq_def]
    simp only [if_pos hlt, hback]
  · rw [if_neg h₁]
    have hx : ((u >>> 6) &&& 0x1F).toUInt8.toNat = u.toNat / 64 % 32 := by
      rw [low_bits u 5 0x1F rfl 6 (by decide)]
      change u.toNat / 64 % 32 % 256 = _
      omega
    have hy : (u &&& 0x3F).toUInt8.toNat = u.toNat % 64 := by
      rw [mask_toNat u 6 0x3F rfl]
      change u.toNat % 64 % 256 = _
      omega
    have hb₂ := or_128 _ (by rw [hy]; omega)
    have hcont₂ : isContinuation ((0x80 : UInt8) ||| (u &&& 0x3F).toUInt8) = true := by
      rw [continuation, hb₂, hy]
      simp only [beq_iff_eq]
      omega
    by_cases h₂ : u ≤ 0x07FF
    · -- two bytes: five bits after 110, then six after 10
      have hu₂ : u.toNat < 2048 := by
        rw [UInt16.le_iff_toNat_le] at h₂
        change u.toNat ≤ 2047 at h₂
        omega
      have hb₁ := or_192 _ (by rw [hx]; omega)
      have hnot : ¬ ((0xC0 : UInt8) ||| ((u >>> 6) &&& 0x1F).toUInt8) < 0x80 := by
        rw [UInt8.lt_iff_toNat_lt, hb₁]
        change ¬ 192 + _ < 128
        omega
      have hlead : ((((0xC0 : UInt8) ||| ((u >>> 6) &&& 0x1F).toUInt8) >>> 5) == 0x6) = true := by
        rw [shift_five, hb₁, hx]
        simp only [beq_iff_eq]
        omega
      have hunit : ((((0xC0 : UInt8) ||| ((u >>> 6) &&& 0x1F).toUInt8) &&& 0x1F).toUInt16 <<< 6 |||
          payload ((0x80 : UInt8) ||| (u &&& 0x3F).toUInt8)) = u := by
        have hhigh : (((0xC0 : UInt8) ||| ((u >>> 6) &&& 0x1F).toUInt8) &&& 0x1F).toUInt16.toNat =
            u.toNat / 64 := by
          rw [UInt8.toNat_toUInt16, and_31, hb₁, hx]
          omega
        have hlow : (payload ((0x80 : UInt8) ||| (u &&& 0x3F).toUInt8)).toNat = u.toNat % 64 := by
          rw [payload_toNat, hb₂, hy]
          omega
        have hshift := shiftLeft_toNat
          ((((0xC0 : UInt8) ||| ((u >>> 6) &&& 0x1F).toUInt8) &&& 0x1F).toUInt16) 6 (by decide)
          (by rw [hhigh]; change u.toNat / 64 * 64 < 65536; omega)
        apply UInt16.toNat_inj.mp
        rw [or_toNat _ _ 6 (by rw [hlow]; change u.toNat % 64 < 64; omega)
          (by rw [hshift, hhigh]; change u.toNat / 64 * 64 % 64 = 0; omega), hshift, hhigh, hlow]
        change u.toNat / 64 * 64 + u.toNat % 64 = u.toNat
        omega
      rw [if_pos h₂, List.cons_append, List.cons_append, List.nil_append, decodeUnits?.eq_def]
      simp only [if_neg hnot, if_pos hlead, hcont₂, if_true, hunit]
    · -- three bytes: four bits after 1110, then six and six after 10
      have hz : ((u >>> 12) &&& 0x0F).toUInt8.toNat = u.toNat / 4096 % 16 := by
        rw [low_bits u 4 0x0F rfl 12 (by decide)]
        change u.toNat / 4096 % 16 % 256 = _
        omega
      have hw : ((u >>> 6) &&& 0x3F).toUInt8.toNat = u.toNat / 64 % 64 := by
        rw [low_bits u 6 0x3F rfl 6 (by decide)]
        change u.toNat / 64 % 64 % 256 = _
        omega
      have hb₁ := or_224 _ (by rw [hz]; omega)
      have hb₂' := or_128 _ (by rw [hw]; omega)
      have hnot : ¬ ((0xE0 : UInt8) ||| ((u >>> 12) &&& 0x0F).toUInt8) < 0x80 := by
        rw [UInt8.lt_iff_toNat_lt, hb₁]
        change ¬ 224 + _ < 128
        omega
      have hnot₂ : ((((0xE0 : UInt8) ||| ((u >>> 12) &&& 0x0F).toUInt8) >>> 5) == 0x6) = false := by
        rw [shift_five, hb₁, hz]
        simp only [beq_eq_false_iff_ne, ne_eq]
        omega
      have hlead : ((((0xE0 : UInt8) ||| ((u >>> 12) &&& 0x0F).toUInt8) >>> 4) == 0xE) = true := by
        rw [shift_four, hb₁, hz]
        simp only [beq_iff_eq]
        omega
      have hcont : isContinuation ((0x80 : UInt8) ||| ((u >>> 6) &&& 0x3F).toUInt8) = true := by
        rw [continuation, hb₂', hw]
        simp only [beq_iff_eq]
        omega
      have htop : (((0xE0 : UInt8) ||| ((u >>> 12) &&& 0x0F).toUInt8) &&& 0x0F).toUInt16.toNat =
          u.toNat / 4096 := by
        rw [UInt8.toNat_toUInt16, and_15, hb₁, hz]
        omega
      have hmid : (payload ((0x80 : UInt8) ||| ((u >>> 6) &&& 0x3F).toUInt8)).toNat =
          u.toNat / 64 % 64 := by
        rw [payload_toNat, hb₂', hw]
        omega
      have hlow : (payload ((0x80 : UInt8) ||| (u &&& 0x3F).toUInt8)).toNat = u.toNat % 64 := by
        rw [payload_toNat, hb₂, hy]
        omega
      have hs₁ := shiftLeft_toNat
        ((((0xE0 : UInt8) ||| ((u >>> 12) &&& 0x0F).toUInt8) &&& 0x0F).toUInt16) 12 (by decide)
        (by rw [htop]; change u.toNat / 4096 * 4096 < 65536; omega)
      have hs₂ := shiftLeft_toNat (payload ((0x80 : UInt8) ||| ((u >>> 6) &&& 0x3F).toUInt8)) 6
        (by decide) (by rw [hmid]; change u.toNat / 64 % 64 * 64 < 65536; omega)
      have hunit : ((((0xE0 : UInt8) ||| ((u >>> 12) &&& 0x0F).toUInt8) &&& 0x0F).toUInt16 <<< 12 |||
          payload ((0x80 : UInt8) ||| ((u >>> 6) &&& 0x3F).toUInt8) <<< 6 |||
          payload ((0x80 : UInt8) ||| (u &&& 0x3F).toUInt8)) = u := by
        apply UInt16.toNat_inj.mp
        have hinner := or_toNat _ _ 12 (by rw [hs₂, hmid]; change u.toNat / 64 % 64 * 64 < 4096; omega)
          (by rw [hs₁, htop]; change u.toNat / 4096 * 4096 % 4096 = 0; omega)
        rw [or_toNat _ _ 6 (by rw [hlow]; change u.toNat % 64 < 64; omega)
          (by rw [hinner, hs₁, hs₂, htop, hmid]; change (u.toNat / 4096 * 4096 + u.toNat / 64 % 64 * 64) % 64 = 0; omega),
          hinner, hs₁, hs₂, htop, hmid, hlow]
        change u.toNat / 4096 * 4096 + u.toNat / 64 % 64 * 64 + u.toNat % 64 = u.toNat
        omega
      rw [if_neg h₂, List.cons_append, List.cons_append, List.cons_append, List.nil_append,
        decodeUnits?.eq_def]
      simp only [if_neg hnot, hnot₂, Bool.false_eq_true, if_false, if_pos hlead, hcont, hcont₂,
        Bool.and_self, if_true, hunit]

theorem encodeUnit_byte_range {b : UInt8} (hb : b ∈ encodeUnit u) : 0 < b.toNat ∧ b.toNat < 0xF0 := by
  have hy : (u &&& 0x3F).toUInt8.toNat < 64 := by
    rw [mask_toNat u 6 0x3F rfl]
    change u.toNat % 64 % 256 < 64
    omega
  have hlast := or_128 _ hy
  unfold encodeUnit at hb
  split_ifs at hb with h₁ h₂
  · -- one byte, the unit itself, from 01 to 7F
    have hr : 1 ≤ u.toNat ∧ u.toNat ≤ 127 := by
      simpa [UInt16.le_iff_toNat_le] using h₁
    rw [List.mem_singleton.mp hb, toUInt8_toNat_of_lt u (by omega)]
    omega
  · -- two bytes, NUL among them: 110xxxxx then 10xxxxxx
    have hx : ((u >>> 6) &&& 0x1F).toUInt8.toNat < 32 := by
      rw [low_bits u 5 0x1F rfl 6 (by decide)]
      change u.toNat / 64 % 32 % 256 < 32
      omega
    simp only [List.mem_cons, List.not_mem_nil, or_false] at hb
    rcases hb with rfl | rfl
    · rw [or_192 _ hx]
      omega
    · omega
  · -- three bytes: 1110xxxx then 10xxxxxx twice
    have hz : ((u >>> 12) &&& 0x0F).toUInt8.toNat < 16 := by
      rw [low_bits u 4 0x0F rfl 12 (by decide)]
      change u.toNat / 4096 % 16 % 256 < 16
      omega
    have hw : ((u >>> 6) &&& 0x3F).toUInt8.toNat < 64 := by
      rw [low_bits u 6 0x3F rfl 6 (by decide)]
      change u.toNat / 64 % 64 % 256 < 64
      omega
    simp only [List.mem_cons, List.not_mem_nil, or_false] at hb
    rcases hb with rfl | rfl | rfl
    · rw [or_224 _ hz]
      omega
    · rw [or_128 _ hw]
      omega
    · omega

end Units

theorem decodeUnits_encodeUnits (us : List UInt16) : decodeUnits? (encodeUnits us) = some us := by
  induction us with
  | nil => simp [encodeUnits, decodeUnits?]
  | cons u us ih =>
    rw [encodeUnits, List.flatMap_cons, decodeUnits_encodeUnit, ← encodeUnits, ih]
    rfl

@[simp] theorem decode_encode (s : JavaString) : decode? (encode s) = some s := by
  simp [decode?, encode, decodeUnits_encodeUnits]

/-- Every Java string, unpaired surrogates and NUL included, reads back from its modified UTF-8
bytes, and those bytes hold no zero and no byte from `F0` up: NUL takes two bytes, and a
character above `U+FFFF` the three bytes of each of its surrogates. -/
theorem decode_encode_bytes_bounded (s : JavaString) :
    decode? (encode s) = some s ∧ ∀ b ∈ encode s, b ≠ 0 ∧ b < 0xF0 := by
  refine ⟨decode_encode s, fun b hb => ?_⟩
  obtain ⟨u, -, hu⟩ := List.mem_flatMap.mp hb
  obtain ⟨hpos, hlt⟩ := encodeUnit_byte_range u hu
  refine ⟨fun h => ?_, UInt8.lt_iff_toNat_lt.mpr hlt⟩
  rw [h] at hpos
  exact absurd hpos (by decide)

end ModifiedUtf8


end ClassPatch
