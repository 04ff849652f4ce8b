import Mathlib.Data.FinEnum
import ClassPatch.Text.Utf8
import ClassPatch.Proofs.JsonText

namespace ClassPatch

namespace Utf8

open Json

section Bytes

set_option maxRecDepth 8192

-- The lead bytes of two-, three- and four-byte forms, one byte value at a time.
theorem lead?_two : ∀ b : UInt8, 0xC2 ≤ b.toNat → b.toNat ≤ 0xDF → lead? b = some (1, 0x80, 0xBF) := by
  decide

theorem lead?_three : ∀ b : UInt8, 0xE0 ≤ b.toNat → b.toNat ≤ 0xEF →
    lead? b = some (2, if b.toNat = 0xE0 then 0xA0 else 0x80, if b.toNat = 0xED then 0x9F else 0xBF) := by
  decide

theorem lead?_four : ∀ b : UInt8, 0xF0 ≤ b.toNat → b.toNat ≤ 0xF4 →
    lead? b = some (3, if b.toNat = 0xF0 then 0x90 else 0x80, if b.toNat = 0xF4 then 0x8F else 0xBF) := by
  decide

theorem isContinuation_iff : ∀ b : UInt8, isContinuation b = (0x80 ≤ b.toNat && b.toNat ≤ 0xBF) := by
  decide

end Bytes

theorem toNat_ofNat_of_lt {n : Nat} (h : n < 256) : (UInt8.ofNat n).toNat = n := by
  rw [UInt8.toNat_ofNat', Nat.mod_eq_of_lt h]

theorem decodeWith_ascii {fuel : Nat} {b : UInt8} (hb : b.toNat < 0x80) (rest : List UInt8) :
    decodeWith (fuel + 1) (b :: rest) = Char.ofNat b.toNat :: decodeWith fuel rest := by
  rw [decodeWith.eq_3, if_pos (UInt8.lt_iff_toNat_lt.mpr hb)]

theorem decodeWith_form {fuel count : Nat} {b second : UInt8} {lo hi : UInt8} {more : List UInt8}
    (hb : 0x80 ≤ b.toNat) (hlead : lead? b = some (count, lo, hi)) (hcount : more.length + 1 = count)
    (hsecond : lo ≤ second ∧ second ≤ hi) (hmore : ∀ x ∈ more, isContinuation x = true)
    (rest : List UInt8) :
    decodeWith (fuel + 1) ((b :: second :: more) ++ rest) =
      Char.ofNat (codePoint b (second :: more)) :: decodeWith fuel rest := by
  rw [List.cons_append, List.cons_append]
  have hnot : ¬ b < 0x80 := fun h => absurd (UInt8.lt_iff_toNat_lt.mp h) (by simp; omega)
  subst hcount
  -- the continuation bytes after the second are exactly the form's
  have hgood : ((more ++ rest).take (more.length + 1 - 1)).takeWhile isContinuation = more := by
    rw [Nat.add_sub_cancel, List.take_left' rfl, List.takeWhile_eq_self_iff.mpr hmore]
  rw [decodeWith.eq_3, if_neg hnot, hlead]
  simp only [hsecond.1, hsecond.2, decide_true, Bool.and_self, ↓reduceIte, hgood,
    Nat.add_comm 1 more.length, beq_self_eq_true, List.take_succ_cons, List.take_left' rfl,
    List.drop_succ_cons, List.drop_zero, List.drop_left' rfl]

theorem decodeWith_utf8EncodeChar (c : Char) (fuel : Nat) (rest : List UInt8) :
    decodeWith (fuel + 1) (String.utf8EncodeChar c ++ rest) = c :: decodeWith fuel rest := by
  have hvalid : c.toNat < 0xD800 ∨ (0xDFFF < c.toNat ∧ c.toNat < 0x110000) := c.valid
  have hc : ∀ v, v = c.toNat → Char.ofNat v = c := fun v hv => hv ▸ Char.ofNat_toNat c
  have hbyte : ∀ n, n < 256 → (UInt8.ofNat n).toNat = n := fun n => toNat_ofNat_of_lt
  have hcont : ∀ n, n < 64 → isContinuation (UInt8.ofNat (n + 0x80)) = true := by
    intro n hn
    rw [isContinuation_iff, hbyte _ (by omega)]
    simp only [Bool.and_eq_true, decide_eq_true_eq]
    omega
  have hle : ∀ lo x : UInt8, lo ≤ x ↔ lo.toNat ≤ x.toNat := fun _ _ => UInt8.le_iff_toNat_le
  unfold String.utf8EncodeChar
  simp only [show c.val.toNat = c.toNat from rfl]
  split_ifs with h1 h2 h3
  · -- one byte
    rw [List.singleton_append, decodeWith_ascii (by rw [hbyte _ (by omega)]; omega),
      hbyte _ (by omega), hc _ rfl]
  · -- two bytes: a lead from `0xC2` and one continuation byte
    refine (decodeWith_form ?_ (lead?_two _ ?_ ?_) rfl ?_ ?_ rest).trans ?_
    · rw [hbyte _ (by omega)]; omega
    · rw [hbyte _ (by omega)]; omega
    · rw [hbyte _ (by omega)]; omega
    · rw [hle, hle, hbyte _ (by omega)]; simp; omega
    · simp
    · rw [hc]
      simp only [codePoint, List.length_cons, List.length_nil, List.foldl_cons, List.foldl_nil,
        hbyte _ (show c.toNat / 64 % 32 + 0xC0 < 256 by omega), hbyte _ (show c.toNat % 64 + 0x80 < 256 by omega)]
      omega
  · -- three bytes: no overlong form after `0xE0`, no surrogate after `0xED`
    refine (decodeWith_form ?_ (lead?_three _ ?_ ?_) rfl ?_ ?_ rest).trans ?_
    · rw [hbyte _ (by omega)]; omega
    · rw [hbyte _ (by omega)]; omega
    · rw [hbyte _ (by omega)]; omega
    · rw [hle, hle, hbyte _ (show c.toNat / 4096 % 16 + 0xE0 < 256 by omega),
        hbyte _ (show c.toNat / 64 % 64 + 0x80 < 256 by omega)]
      split_ifs <;> simp <;> omega
    · simp only [List.mem_singleton, forall_eq]
      exact hcont _ (by omega)
    · rw [hc]
      simp only [codePoint, List.length_cons, List.length_nil, List.foldl_cons, List.foldl_nil,
        hbyte _ (show c.toNat / 4096 % 16 + 0xE0 < 256 by omega),
        hbyte _ (show c.toNat / 64 % 64 + 0x80 < 256 by omega),
        hbyte _ (show c.toNat % 64 + 0x80 < 256 by omega)]
      omega
  · -- four bytes: nothing below `U+10000` after `0xF0`, nothing past `U+10FFFF` after `0xF4`
    refine (decodeWith_form ?_ (lead?_four _ ?_ ?_) rfl ?_ ?_ rest).trans ?_
    · rw [hbyte _ (by omega)]; omega
    · rw [hbyte _ (by omega)]; omega
    · rw [hbyte _ (by omega)]; omega
    · rw [hle, hle, hbyte _ (show c.toNat / 262144 % 8 + 0xF0 < 256 by omega),
        hbyte _ (show c.toNat / 4096 % 64 + 0x80 < 256 by omega)]
      split_ifs <;> simp <;> omega
    · simp only [List.mem_cons, forall_eq_or_imp, forall_eq, List.not_mem_nil, or_false]
      exact ⟨hcont _ (by omega), hcont _ (by omega)⟩
    · rw [hc]
      simp only [codePoint, List.length_cons, List.length_nil, List.foldl_cons, List.foldl_nil,
        hbyte _ (show c.toNat / 262144 % 8 + 0xF0 < 256 by omega),
        hbyte _ (show c.toNat / 4096 % 64 + 0x80 < 256 by omega),
        hbyte _ (show c.toNat / 64 % 64 + 0x80 < 256 by omega),
        hbyte _ (show c.toNat % 64 + 0x80 < 256 by omega)]
      omega

theorem length_le_utf8 : ∀ cs : List Char, cs.length ≤ (utf8 cs).length
  | [] => Nat.le_refl _
  | c :: cs => by
    have := length_le_utf8 cs
    have := Char.utf8Size_pos c
    simp only [utf8_cons, List.length_append, String.length_utf8EncodeChar, List.length_cons]
    omega

theorem decodeWith_utf8 : ∀ (cs : List Char) (fuel : Nat), cs.length ≤ fuel →
    decodeWith fuel (utf8 cs) = cs
  | [], 0, _ => rfl
  | [], _ + 1, _ => rfl
  | _ :: _, 0, h => absurd h (by simp)
  | c :: cs, fuel + 1, h => by
    rw [utf8_cons, decodeWith_utf8EncodeChar,
      decodeWith_utf8 cs fuel (by simp only [List.length_cons] at h; omega)]

theorem toUTF8_toList (s : String) : s.toUTF8.toList = utf8 s.toList := by
  have h : s.toUTF8 = s.toList.utf8Encode := by
    rw [String.toUTF8_eq_toByteArray, ← String.toByteArray_ofList, String.ofList_toList]
  rw [h]
  simp [ByteArray.toList_eq, List.utf8Encode, utf8]

theorem decodeLossy_toUTF8 (s : String) : decodeLossy s.toUTF8.toList = s := by
  rw [decodeLossy, toUTF8_toList, decodeWith_utf8 _ _ (length_le_utf8 _), String.ofList_toList]

end Utf8

end ClassPatch
