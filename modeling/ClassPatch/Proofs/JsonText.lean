import Mathlib
import ClassPatch.Json.Cursor

namespace ClassPatch

theorem ByteArray.toList_eq (bs : ByteArray) : bs.toList = bs.data.toList := by
  have loop : ∀ i r, ByteArray.toList.loop bs i r = r.reverse ++ bs.data.toList.drop i := by
    intro i r
    fun_induction ByteArray.toList.loop bs i r with
    | case1 i r h ih =>
      have hlen : i < bs.data.toList.length := by simpa using h
      rw [ih, List.drop_eq_getElem_cons hlen]
      simp [ByteArray.get!, getElem!_pos, h]
    | case2 i r h =>
      rw [List.drop_eq_nil_of_le (by simpa using Nat.le_of_not_lt h)]
      simp
  simpa [ByteArray.toList] using loop 0 []

namespace Json

/-! ### The bytes of a text -/

def utf8 (cs : List Char) : List UInt8 := cs.flatMap String.utf8EncodeChar

@[simp] theorem utf8_nil : utf8 [] = [] := rfl

@[simp] theorem utf8_cons (c : Char) (cs : List Char) :
    utf8 (c :: cs) = String.utf8EncodeChar c ++ utf8 cs := rfl

@[simp] theorem utf8_append (cs ds : List Char) : utf8 (cs ++ ds) = utf8 cs ++ utf8 ds :=
  List.flatMap_append

theorem compact_toUTF8 (j : Json) : j.compact.toUTF8.toList = utf8 j.render := by
  simp [compact, ByteArray.toList_eq, List.utf8Encode, utf8]

theorem utf8EncodeChar_of_lt {c : Char} (h : c.toNat < 128) :
    String.utf8EncodeChar c = [c.toNat.toUInt8] := by
  have h' : c.val.toNat ≤ 127 := by simp only [Char.toNat] at h; omega
  unfold String.utf8EncodeChar
  rw [if_pos h']
  rfl

theorem le_of_mem_utf8EncodeChar {c : Char} (h : 128 ≤ c.toNat) :
    ∀ b ∈ String.utf8EncodeChar c, 0x80 ≤ b := by
  have h' : ¬ c.val.toNat ≤ 127 := by simp only [Char.toNat] at h; omega
  have hv : c.val.toNat < 1114112 := by
    have := c.valid
    simp only [UInt32.isValidChar, Nat.isValidChar] at this
    omega
  intro b hb
  simp only [String.utf8EncodeChar, h', if_false] at hb
  rw [UInt8.le_iff_toNat_le]
  split at hb
  · simp at hb
    rcases hb with rfl | rfl <;> simp [UInt8.toNat_ofNat] <;> omega
  · split at hb
    · simp at hb
      rcases hb with rfl | rfl | rfl <;> simp [UInt8.toNat_ofNat] <;> omega
    · simp at hb
      rcases hb with rfl | rfl | rfl | rfl <;> simp [UInt8.toNat_ofNat] <;> omega

end Json

namespace Scan

open Json

/-! ### Strings -/

theorem stringBytes_plain {b : UInt8} (hlo : 0x20 ≤ b) (hq : b ≠ 0x22) (hs : b ≠ 0x5C)
    (broken : Bool) (acc rest : List UInt8) :
    stringBytes broken acc (b :: rest) = stringBytes broken (b :: acc) rest := by
  rw [stringBytes]
  split
  · rw [UInt8.le_iff_toNat_le] at hlo
    rw [UInt8.lt_iff_toNat_lt] at *
    simp at *
    omega
  · rfl
  all_goals simp_all

theorem stringBytes_plains (broken : Bool) :
    ∀ (bs acc rest : List UInt8), (∀ b ∈ bs, 0x20 ≤ b ∧ b ≠ 0x22 ∧ b ≠ 0x5C) →
      stringBytes broken acc (bs ++ rest) = stringBytes broken (bs.reverse ++ acc) rest
  | [], _, _, _ => rfl
  | b :: bs, acc, rest, h => by
    obtain ⟨hlo, hq, hs⟩ := h b List.mem_cons_self
    rw [List.cons_append, stringBytes_plain hlo hq hs,
      stringBytes_plains broken bs _ rest fun b' hb' => h b' (List.mem_cons_of_mem b hb')]
    simp

-- A control character below U+0020 is written as a `\u` escape of four hexadecimal digits.
private theorem hex4_control : ∀ n : Fin 32,
    hex4 0x30 0x30 (Nat.digitChar (n.val / 16)).toNat.toUInt8
      (Nat.digitChar (n.val % 16)).toNat.toUInt8 = some n.val := by
  decide

theorem utf8Bytes_toNat (c : Char) : utf8Bytes c.toNat = String.utf8EncodeChar c := by
  simp [utf8Bytes, String.toByteArray_singleton, List.utf8Encode_singleton, ByteArray.toList_eq]

theorem stringBytes_escapeChar (broken : Bool) (c : Char) (acc rest : List UInt8) :
    stringBytes broken acc (utf8 (escapeChar c) ++ rest) =
      stringBytes broken ((String.utf8EncodeChar c).reverse ++ acc) rest := by
  unfold escapeChar
  split_ifs with h1 h2 h3 h4 h5 h6 h7 h8
  · subst h1; rfl
  · subst h2; rfl
  · subst h3; rfl
  · subst h4; rfl
  · subst h5; rfl
  · subst h6; rfl
  · subst h7; rfl
  · have hlt : ∀ d : Fin 16, (Nat.digitChar d.val).toNat < 128 := by decide
    have hd1 := utf8EncodeChar_of_lt (hlt ⟨c.toNat / 16, by omega⟩)
    have hd2 := utf8EncodeChar_of_lt (hlt ⟨c.toNat % 16, by omega⟩)
    simp only [utf8_cons, hd1, hd2, utf8_nil, show String.utf8EncodeChar '\\' = [0x5C] from rfl,
      show String.utf8EncodeChar 'u' = [0x75] from rfl,
      show String.utf8EncodeChar '0' = [0x30] from rfl, List.cons_append, List.nil_append]
    have hlow : isLowSurrogate c.toNat = false := by simp [isLowSurrogate]; omega
    have hhigh : isHighSurrogate c.toNat = false := by simp [isHighSurrogate]; omega
    rw [stringBytes, hex4_control ⟨_, h8⟩]
    simp [hlow, hhigh, utf8Bytes_toNat]
  · -- any other character stands for itself, and none of its bytes is special
    rw [show utf8 [c] = String.utf8EncodeChar c by simp]
    apply stringBytes_plains
    intro b hb
    simp only [UInt8.le_iff_toNat_le, ne_eq, UInt8.ext_iff]
    by_cases hc : c.toNat < 128
    · rw [utf8EncodeChar_of_lt hc, List.mem_singleton] at hb
      subst hb
      have hb : c.toNat.toUInt8.toNat = c.toNat := by
        rw [Nat.toUInt8_eq, UInt8.toNat_ofNat_of_lt' (by change _ < 256; omega)]
      have hq : c.toNat ≠ 34 := fun h => h1 (by rw [← Char.ofNat_toNat c, h])
      have hs : c.toNat ≠ 92 := fun h => h2 (by rw [← Char.ofNat_toNat c, h])
      simp only [hb, UInt8.toNat_ofNat]
      omega
    · have := le_of_mem_utf8EncodeChar (by omega) b hb
      rw [UInt8.le_iff_toNat_le] at this
      simp only [UInt8.toNat_ofNat] at this ⊢
      omega

theorem stringBytes_escaped (broken : Bool) :
    ∀ (cs : List Char) (acc rest : List UInt8),
      stringBytes broken acc (utf8 (cs.flatMap escapeChar) ++ 0x22 :: rest) =
        .ok (acc.reverse ++ utf8 cs, rest)
  | [], acc, rest => by simp [stringBytes]
  | c :: cs, acc, rest => by
    rw [List.flatMap_cons, utf8_append, List.append_assoc, stringBytes_escapeChar,
      stringBytes_escaped broken cs]
    simp

theorem fromUTF8?_utf8 (s : String) : String.fromUTF8? ⟨(utf8 s.toList).toArray⟩ = some s := by
  have hbytes : (⟨(utf8 s.toList).toArray⟩ : ByteArray) = s.toByteArray := by
    rw [← String.utf8Encode_toList]
    ext1
    simp [List.utf8Encode, utf8]
  simp only [hbytes, String.fromUTF8?, dif_pos s.isValidUTF8]
  rfl

theorem string_escaped (broken : Bool) (s : String) (rest : List UInt8) :
    string broken (utf8 (s.toList.flatMap escapeChar) ++ 0x22 :: rest) = .ok (s, rest) := by
  simp [string, stringBytes_escaped, bind, Except.bind, fromUTF8?_utf8, pure, Except.pure]

/-! ### Numbers -/

theorem toNat_le_of_isDigit {c : Char} (h : c.isDigit) : 48 ≤ c.toNat ∧ c.toNat ≤ 57 := by
  simp only [Char.isDigit, Bool.and_eq_true, decide_eq_true_eq] at h
  exact ⟨h.1, h.2⟩

-- Digits are ASCII, one byte each.
theorem utf8_of_isDigit : ∀ {cs : List Char}, (∀ c ∈ cs, c.isDigit) →
    utf8 cs = cs.map fun c => c.toNat.toUInt8
  | [], _ => rfl
  | c :: cs, h => by
    have hc := toNat_le_of_isDigit (h c List.mem_cons_self)
    rw [utf8_cons, utf8EncodeChar_of_lt (by omega),
      utf8_of_isDigit fun c' h' => h c' (List.mem_cons_of_mem c h')]
    rfl

theorem toUInt8_toNat_of_isDigit {c : Char} (h : c.isDigit) : c.toNat.toUInt8.toNat = c.toNat := by
  have := toNat_le_of_isDigit h
  rw [Nat.toUInt8_eq, UInt8.toNat_ofNat_of_lt' (by change _ < 256; omega)]

theorem isDigit_toUInt8 {c : Char} (h : c.isDigit) : isDigit c.toNat.toUInt8 = true := by
  have := toNat_le_of_isDigit h
  have h' := toUInt8_toNat_of_isDigit h
  simp only [isDigit, Bool.and_eq_true, decide_eq_true_eq, UInt8.le_iff_toNat_le, h']
  simp
  omega

theorem appendDigits_map : ∀ {cs : List Char} (s : Nat), (∀ c ∈ cs, c.isDigit) →
    appendDigits s (cs.map fun c => c.toNat.toUInt8) = Nat.ofDigitChars 10 cs s
  | [], _, _ => rfl
  | c :: cs, s, h => by
    have hc := h c List.mem_cons_self
    have hsub : (c.toNat.toUInt8 - 0x30).toNat = c.toNat - 48 := by
      have := toNat_le_of_isDigit hc
      rw [UInt8.toNat_sub_of_le _ _ (by rw [UInt8.le_iff_toNat_le, toUInt8_toNat_of_isDigit hc]; simp; omega),
        toUInt8_toNat_of_isDigit hc]
      rfl
    simp only [List.map_cons, appendDigits, List.foldl_cons] at *
    rw [hsub, Nat.ofDigitChars_cons, Nat.mul_comm]
    exact appendDigits_map _ fun c' h' => h c' (List.mem_cons_of_mem c h')

theorem le_appendDigits : ∀ (s : Nat) (ds : List UInt8), s ≤ appendDigits s ds
  | _, [] => le_rfl
  | s, d :: ds => (Nat.le_mul_of_pos_right s (by omega)).trans
      ((Nat.le_add_right _ _).trans (le_appendDigits (s * 10 + (d - 0x30).toNat) ds))

theorem fitting_of_le : ∀ (s : Nat) (ds : List UInt8), appendDigits s ds ≤ u64Max →
    fitting s ds = ds.length
  | _, [], _ => rfl
  | s, d :: ds, h => by
    have hle := le_appendDigits (s * 10 + (d - 0x30).toNat) ds
    simp only [appendDigits, List.foldl_cons] at h
    simp only [fitting, List.length_cons]
    rw [if_pos (hle.trans h), fitting_of_le _ ds h]

theorem toDigits_head_ne (n : Nat) (hn : 0 < n) : (Nat.toDigits 10 n).head? ≠ some '0' := by
  induction n using Nat.strong_induction_on with
  | _ n ih =>
    rw [Nat.toDigits_eq_if (by decide)]
    split
    · have : ∀ k : Fin 10, 0 < k.val → Nat.digitChar k.val ≠ '0' := by decide
      simpa using this ⟨n, ‹_›⟩ hn
    · rw [List.head?_append_of_ne_nil _ Nat.toDigits_ne_nil]
      exact ih (n / 10) (by omega) (by omega)

theorem numberTail_stop (broken positive : Bool) (s : Nat) {b : UInt8} {r : List UInt8}
    (hdot : b ≠ 0x2E) (he : b ≠ 0x65) (hE : b ≠ 0x45) :
    numberTail broken positive s 0 (b :: r) =
      .ok (if positive then .int s
        else if s == 0 || s > Nat.pow 2 63 then floatValue false s 0 else .int (-(s : Int)),
        b :: r) := by
  unfold numberTail
  simp only [peekByte, bind, Except.bind]
  split
  · simp_all
  · simp_all
  · simp_all
  · rw [if_neg (Nat.lt_irrefl 0)]
    split_ifs <;> rfl

theorem number_toDigits (broken positive : Bool) {n : Nat} (hn : n ≤ u64Max) {b : UInt8}
    {r : List UInt8} (hb : isDigit b = false) :
    number broken positive (utf8 (Nat.toDigits 10 n) ++ b :: r) =
      numberTail broken positive n 0 (b :: r) := by
  have hdig : ∀ c ∈ Nat.toDigits 10 n, c.isDigit := fun c hc =>
    Nat.isDigit_of_mem_toDigits (by decide) (by decide) hc
  rw [utf8_of_isDigit hdig]
  obtain ⟨d, ds, hd⟩ := List.exists_cons_of_ne_nil (Nat.toDigits_ne_nil (b := 10) (n := n))
  rw [hd] at hdig ⊢
  have hdd := hdig d List.mem_cons_self
  have hdb := toNat_le_of_isDigit hdd
  by_cases hn0 : n = 0
  · subst hn0
    have : d = '0' ∧ ds = [] := by simpa [Nat.toDigits_zero] using hd.symm
    obtain ⟨rfl, rfl⟩ := this
    simp [number, peekByte, hb, bind, Except.bind]
  · have hne : d ≠ '0' := by
      have := toDigits_head_ne n (Nat.pos_of_ne_zero hn0)
      rw [hd] at this
      simpa using this
    have hdn : d.toNat ≠ 48 := fun h => hne (by rw [← Char.ofNat_toNat d, h])
    have hbyte := toUInt8_toNat_of_isDigit hdd
    have htail : ∀ x ∈ ds.map fun c => c.toNat.toUInt8, isDigit x = true := by
      simp only [List.mem_map]
      rintro x ⟨c, hc, rfl⟩
      exact isDigit_toUInt8 (hdig c (List.mem_cons_of_mem d hc))
    have hval : appendDigits 0 ((d :: ds).map fun c => c.toNat.toUInt8) = n := by
      rw [appendDigits_map 0 hdig, ← hd, Nat.ofDigitChars_ten_toDigits]
    have hfit := fitting_of_le 0 _ (hval ▸ hn)
    simp only [List.map_cons] at hval hfit
    have hfirst : (d.toNat.toUInt8 == 0x30) = false := by
      simp [UInt8.ext_iff, hbyte, hdn]
    have hrange : (0x31 ≤ d.toNat.toUInt8 && d.toNat.toUInt8 ≤ 0x39) = true := by
      simp only [Bool.and_eq_true, decide_eq_true_eq, UInt8.le_iff_toNat_le, hbyte]
      simp
      omega
    simp only [number, List.map_cons, List.cons_append, hfirst, hrange, if_true,
      List.takeWhile_append_of_pos htail, List.dropWhile_append_of_pos htail,
      List.takeWhile_cons_of_neg (by simp [hb] : ¬ isDigit b = true),
      List.dropWhile_cons_of_neg (by simp [hb] : ¬ isDigit b = true), List.append_nil]
    rw [if_neg Bool.false_ne_true, hfit, List.take_length, hval, Nat.sub_self]

end Scan

namespace Cursor

variable {α β : Type}

/-! ### Steps of the reader -/

def Gives (r : Cursor α) (input : List UInt8) (a : α) (rest : List UInt8) : Prop :=
  ∀ broken, r.run input broken = .ok (a, rest)

theorem Gives.bind {x : Cursor α} {f : α → Cursor β} {input mid rest : List UInt8} {a : α}
    {b : β} (hx : Gives x input a mid) (hf : Gives (f a) mid b rest) :
    Gives (x >>= f) input b rest := by
  intro broken
  have h := hx broken
  change x input broken = _ at h
  change (x input broken >>= fun p => f p.1 p.2 broken) = _
  rw [h]
  exact hf broken

@[simp] theorem gives_pure (a : α) (input : List UInt8) : Gives (pure a) input a input :=
  fun _ => rfl

theorem gives_peek {b : UInt8} {rest : List UInt8} (hb : Scan.isBlank b = false) :
    Gives peek (b :: rest) (some b) (b :: rest) := by
  intro broken
  show Scan.peekAfterBlank broken (b :: rest) = _
  simp [Scan.peekAfterBlank, List.dropWhile, hb]

theorem gives_bump (b : UInt8) (rest : List UInt8) : Gives bump (b :: rest) () rest :=
  fun _ => rfl

theorem gives_expectValue {b : UInt8} {rest : List UInt8} (hb : Scan.isBlank b = false) :
    Gives expectValue (b :: rest) b (b :: rest) :=
  (gives_peek hb).bind (gives_pure _ _)

theorem gives_enter {depth : Nat} (h : 1 < depth) (input : List UInt8) :
    Gives (enter depth) input (depth - 1) input := by
  unfold enter
  rw [if_neg (by omega)]
  exact gives_pure _ _

theorem gives_nextElement_close (first : Bool) (rest : List UInt8) :
    Gives (nextElement first) (0x5D :: rest) false (0x5D :: rest) :=
  (gives_peek (by decide)).bind (gives_pure _ _)

theorem gives_nextElement_first {b : UInt8} {rest : List UInt8} (hb : Scan.isBlank b = false)
    (hne : b ≠ 0x5D) : Gives (nextElement true) (b :: rest) true (b :: rest) := by
  refine (gives_peek hb).bind ?_
  split <;> simp_all

theorem gives_nextElement_comma {b : UInt8} {rest : List UInt8} (hb : Scan.isBlank b = false)
    (hne : b ≠ 0x5D) : Gives (nextElement false) (0x2C :: b :: rest) true (b :: rest) := by
  refine (gives_peek (by decide)).bind ?_
  refine (gives_bump _ _).bind ?_
  refine (gives_peek hb).bind ?_
  split <;> simp_all

theorem gives_nextKey_close (first : Bool) (rest : List UInt8) :
    Gives (nextKey first) (0x7D :: rest) false (0x7D :: rest) :=
  (gives_peek (by decide)).bind (gives_pure _ _)

theorem gives_nextKey_first (rest : List UInt8) :
    Gives (nextKey true) (0x22 :: rest) true (0x22 :: rest) :=
  (gives_peek (by decide)).bind (gives_pure _ _)

theorem gives_nextKey_comma (rest : List UInt8) :
    Gives (nextKey false) (0x2C :: 0x22 :: rest) true (0x22 :: rest) :=
  (gives_peek (by decide)).bind <| (gives_bump _ _).bind <|
    (gives_peek (by decide)).bind (gives_pure _ _)

theorem gives_colon (rest : List UInt8) : Gives colon (0x3A :: rest) () rest :=
  (gives_peek (by decide)).bind (gives_bump _ _)

theorem gives_endArray (rest : List UInt8) : Gives endArray (0x5D :: rest) () rest :=
  (gives_peek (by decide)).bind (gives_bump _ _)

theorem gives_endObject (rest : List UInt8) : Gives endObject (0x7D :: rest) () rest :=
  (gives_peek (by decide)).bind (gives_bump _ _)

/-! ### Scalars -/

open Json

theorem gives_word (ws rest : List UInt8) : Gives (word ws) (ws ++ rest) () rest := by
  intro broken
  show (Scan.word broken ws (ws ++ rest)).map ((), ·) = _
  have : ∀ ws : List UInt8, Scan.word broken ws (ws ++ rest) = .ok rest := by
    intro ws
    induction ws with
    | nil => rfl
    | cons w ws ih => simp [Scan.word, ih]
  rw [this]
  rfl

theorem gives_string (s : String) (rest : List UInt8) :
    Gives string (utf8 (s.toList.flatMap escapeChar) ++ 0x22 :: rest) s rest :=
  fun broken => Scan.string_escaped broken s rest

theorem gives_number (positive : Bool) {n : Nat} (hn : n ≤ Scan.u64Max) {b : UInt8}
    {r : List UInt8} (hb : b = 0x2C ∨ b = 0x5D ∨ b = 0x7D) :
    Gives (number positive) (utf8 (Nat.toDigits 10 n) ++ b :: r)
      (if positive then .int n
        else if n == 0 || n > Nat.pow 2 63 then Scan.floatValue false n 0 else .int (-(n : Int)))
      (b :: r) := by
  intro broken
  show Scan.number broken positive _ = _
  have hd : Scan.isDigit b = false := by rcases hb with rfl | rfl | rfl <;> decide
  rw [Scan.number_toDigits broken positive hn hd,
    Scan.numberTail_stop broken positive n (by rcases hb with rfl | rfl | rfl <;> decide)
      (by rcases hb with rfl | rfl | rfl <;> decide) (by rcases hb with rfl | rfl | rfl <;> decide)]

theorem gives_value_of_scalar {fuel depth : Nat} {b : UInt8} {bs rest : List UInt8} {j : Json}
    (hb : Scan.isBlank b = false) (h5B : b ≠ 0x5B) (h7B : b ≠ 0x7B)
    (h : Gives (scalar b) (b :: bs) (some j) rest) :
    Gives (value (fuel + 1) depth) (b :: bs) j rest := by
  rw [value]
  refine (gives_expectValue hb).bind ?_
  simp only [beq_iff_eq, h5B, h7B, if_false]
  exact h.bind (gives_pure _ _)

theorem gives_value_arr {fuel depth : Nat} {items : List Json} {rest : List UInt8}
    (hd : 1 < depth)
    (h : Gives (elements fuel (depth - 1) true []) (utf8 (renderItems items) ++ 0x5D :: rest) items
      (0x5D :: rest)) :
    Gives (value (fuel + 1) depth) (utf8 (render (.arr items)) ++ rest) (.arr items) rest := by
  have htext : utf8 (render (.arr items)) ++ rest =
      0x5B :: (utf8 (renderItems items) ++ 0x5D :: rest) := by
    simp [render, utf8EncodeChar_of_lt]
  rw [value, htext]
  refine (gives_expectValue (by decide)).bind ?_
  simp only [beq_self_eq_true, if_true]
  exact (gives_enter hd _).bind <| (gives_bump _ _).bind <| h.bind <|
    (gives_endArray _).bind (gives_pure _ _)

theorem gives_value_obj {fuel depth : Nat} {ms : List (String × Json)} {rest : List UInt8}
    (hd : 1 < depth)
    (h : Gives (members fuel (depth - 1) true []) (utf8 (renderMembers ms) ++ 0x7D :: rest) ms
      (0x7D :: rest)) :
    Gives (value (fuel + 1) depth) (utf8 (render (.obj ms)) ++ rest) (.obj ms) rest := by
  have htext : utf8 (render (.obj ms)) ++ rest =
      0x7B :: (utf8 (renderMembers ms) ++ 0x7D :: rest) := by
    simp [render, utf8EncodeChar_of_lt]
  rw [value, htext]
  refine (gives_expectValue (by decide)).bind ?_
  simp only [beq_self_eq_true, if_true, show ((0x7B : UInt8) == 0x5B) = false from rfl]
  exact (gives_enter hd _).bind <| (gives_bump _ _).bind <| h.bind <|
    (gives_endObject _).bind (gives_pure _ _)

variable {fuel depth : Nat}

theorem gives_value_null (rest : List UInt8) :
    Gives (value (fuel + 1) depth) (utf8 (render .null) ++ rest) .null rest := by
  have htext : utf8 (render .null) ++ rest = 0x6E :: ([0x75, 0x6C, 0x6C] ++ rest) := by
    simp [render, utf8EncodeChar_of_lt]
  rw [htext]
  refine gives_value_of_scalar (by decide) (by decide) (by decide) ?_
  simp only [scalar, beq_self_eq_true, if_true]
  exact (gives_bump _ _).bind ((gives_word _ _).bind (gives_pure _ _))

theorem gives_value_bool (b : Bool) (rest : List UInt8) :
    Gives (value (fuel + 1) depth) (utf8 (render (.bool b)) ++ rest) (.bool b) rest := by
  cases b with
  | true =>
    have htext : utf8 (render (.bool true)) ++ rest = 0x74 :: ([0x72, 0x75, 0x65] ++ rest) := by
      simp [render, utf8EncodeChar_of_lt]
    rw [htext]
    refine gives_value_of_scalar (by decide) (by decide) (by decide) ?_
    simp only [scalar, beq_self_eq_true, if_true, show ((0x74 : UInt8) == 0x6E) = false from rfl]
    exact (gives_bump _ _).bind ((gives_word _ _).bind (gives_pure _ _))
  | false =>
    have htext : utf8 (render (.bool false)) ++ rest =
        0x66 :: ([0x61, 0x6C, 0x73, 0x65] ++ rest) := by
      simp [render, utf8EncodeChar_of_lt]
    rw [htext]
    refine gives_value_of_scalar (by decide) (by decide) (by decide) ?_
    simp only [scalar, beq_self_eq_true, if_true, show ((0x66 : UInt8) == 0x6E) = false from rfl,
      show ((0x66 : UInt8) == 0x74) = false from rfl]
    exact (gives_bump _ _).bind ((gives_word _ _).bind (gives_pure _ _))

theorem gives_value_str (s : String) (rest : List UInt8) :
    Gives (value (fuel + 1) depth) (utf8 (render (.str s)) ++ rest) (.str s) rest := by
  have htext : utf8 (render (.str s)) ++ rest =
      0x22 :: (utf8 (s.toList.flatMap escapeChar) ++ 0x22 :: rest) := by
    simp [render, quote, utf8EncodeChar_of_lt]
  rw [htext]
  refine gives_value_of_scalar (by decide) (by decide) (by decide) ?_
  simp only [scalar, beq_self_eq_true, if_true, show ((0x22 : UInt8) == 0x6E) = false from rfl,
    show ((0x22 : UInt8) == 0x74) = false from rfl, show ((0x22 : UInt8) == 0x66) = false from rfl,
    show ((0x22 : UInt8) == 0x2D) = false from rfl, show Scan.isDigit 0x22 = false from rfl]
  exact (gives_bump _ _).bind ((gives_string _ _).bind (gives_pure _ _))

-- A digit starts no other kind of value.
theorem digit_starts_number {b : UInt8} (h : Scan.isDigit b = true) :
    (b == 0x6E) = false ∧ (b == 0x74) = false ∧ (b == 0x66) = false ∧ (b == 0x2D) = false ∧
      b ≠ 0x5B ∧ b ≠ 0x7B ∧ Scan.isBlank b = false ∧ b ≠ 0x5D ∧ b ≠ 0x7D := by
  simp only [Scan.isDigit, Bool.and_eq_true, decide_eq_true_eq, UInt8.le_iff_toNat_le] at h
  simp only [beq_eq_false_iff_ne, ne_eq, UInt8.ext_iff, Scan.isBlank, Bool.or_eq_false_iff,
    beq_eq_false_iff_ne]
  simp at h ⊢
  omega

theorem gives_value_int {i : Int} (hlo : -(Nat.pow 2 63 : Int) ≤ i) (hhi : i ≤ Scan.u64Max)
    {b : UInt8} {r : List UInt8} (hb : b = 0x2C ∨ b = 0x5D ∨ b = 0x7D) :
    Gives (value (fuel + 1) depth) (utf8 (render (.int i)) ++ b :: r) (.int i) (b :: r) := by
  cases i with
  | ofNat n =>
    have hn : n ≤ Scan.u64Max := Int.ofNat_le.mp hhi
    have htext : utf8 (render (.int (.ofNat n))) = utf8 (Nat.toDigits 10 n) := by
      simp [render, toString, Int.repr]
    obtain ⟨d, ds, hd⟩ := List.exists_cons_of_ne_nil (Nat.toDigits_ne_nil (b := 10) (n := n))
    have hdd : d.isDigit := Nat.isDigit_of_mem_toDigits (by decide) (by decide)
      (hd ▸ List.mem_cons_self)
    have hfirst : utf8 (Nat.toDigits 10 n) = d.toNat.toUInt8 :: utf8 ds := by
      have := Scan.toNat_le_of_isDigit hdd
      rw [hd, utf8_cons, utf8EncodeChar_of_lt (by omega)]
      rfl
    obtain ⟨h1, h2, h3, h4, h5, h6, h7, -⟩ :=
      digit_starts_number (Scan.isDigit_toUInt8 hdd)
    rw [htext, hfirst, List.cons_append]
    refine gives_value_of_scalar h7 h5 h6 ?_
    simp only [scalar, h1, h2, h3, h4, Scan.isDigit_toUInt8 hdd, if_true]
    rw [← List.cons_append, ← hfirst]
    exact (gives_number true hn hb).bind (gives_pure _ _)
  | negSucc m =>
    have h63 : Nat.pow 2 63 = 9223372036854775808 := rfl
    have hm : m + 1 ≤ Nat.pow 2 63 := by
      rw [Int.negSucc_eq, h63] at hlo
      rw [h63]
      omega
    have htext : utf8 (render (.int (.negSucc m))) ++ b :: r =
        0x2D :: (utf8 (Nat.toDigits 10 (m + 1)) ++ b :: r) := by
      simp [render, toString, Int.repr, utf8EncodeChar_of_lt]
    rw [htext]
    refine gives_value_of_scalar (by decide) (by decide) (by decide) ?_
    simp only [scalar, beq_self_eq_true, if_true, show ((0x2D : UInt8) == 0x6E) = false from rfl,
      show ((0x2D : UInt8) == 0x74) = false from rfl, show ((0x2D : UInt8) == 0x66) = false from rfl]
    refine (gives_bump _ _).bind <|
      (gives_number false (n := m + 1)
      (by rw [show Scan.u64Max = 18446744073709551615 from rfl]; omega) hb).bind ?_
    have hne : ¬ ((m + 1 == 0 || m + 1 > Nat.pow 2 63) = true) := by simp; omega
    rw [if_neg Bool.false_ne_true, if_neg hne]
    exact gives_pure _ _

theorem gives_key (k : String) (rest : List UInt8) :
    Gives key (utf8 (quote k) ++ rest) k rest := by
  have htext : utf8 (quote k) ++ rest =
      0x22 :: (utf8 (k.toList.flatMap escapeChar) ++ 0x22 :: rest) := by
    simp [quote, utf8EncodeChar_of_lt]
  rw [htext]
  exact (gives_bump _ _).bind (gives_string _ _)

end Cursor

namespace Json

mutual

/-- A value that reading gives back as it is: it holds no fraction, and its integers lie in the
range that is read as integers, from `-2^63` to `2^64 - 1`. -/
def Readable : Json → Prop
  | .int i => -(Nat.pow 2 63 : Int) ≤ i ∧ i ≤ Scan.u64Max
  | .float _ _ => False
  | .arr items => ReadableItems items
  | .obj members => ReadableMembers members
  | _ => True

def ReadableItems : List Json → Prop
  | [] => True
  | j :: rest => Readable j ∧ ReadableItems rest

def ReadableMembers : List (String × Json) → Prop
  | [] => True
  | (_, j) :: rest => Readable j ∧ ReadableMembers rest

end

def commaItems (items : List Json) : List Char := items.flatMap fun j => ',' :: render j

def commaMembers (members : List (String × Json)) : List Char :=
  members.flatMap fun m => ',' :: (quote m.1 ++ ':' :: render m.2)

theorem commaItems_cons (j : Json) (items : List Json) :
    commaItems (j :: items) = ',' :: (render j ++ commaItems items) := by
  simp [commaItems]

theorem commaMembers_cons (k : String) (v : Json) (ms : List (String × Json)) :
    commaMembers ((k, v) :: ms) = ',' :: (quote k ++ ':' :: render v ++ commaMembers ms) := by
  simp [commaMembers]

theorem renderItems_cons (j : Json) :
    ∀ items, renderItems (j :: items) = render j ++ commaItems items
  | [] => by simp [renderItems, commaItems]
  | j' :: items => by simp [renderItems, renderItems_cons j' items, commaItems]

theorem renderMembers_cons (k : String) (v : Json) :
    ∀ ms, renderMembers ((k, v) :: ms) = quote k ++ ':' :: render v ++ commaMembers ms
  | [] => by simp [renderMembers, commaMembers]
  | (k', v') :: ms => by simp [renderMembers, renderMembers_cons k' v' ms, commaMembers]

mutual

theorem depth_le_length_render : ∀ j : Json, j.depth ≤ (render j).length
  | .arr [] => by simp [Json.depth, depthItems, render, renderItems]
  | .arr (j :: items) => by
    have := depth_le_length_render j
    have := depthItems_le_length items
    simp only [Json.depth, depthItems, render, renderItems_cons, List.length_cons,
      List.length_append]
    omega
  | .obj [] => by simp [Json.depth, depthMembers, render, renderMembers]
  | .obj ((k, v) :: ms) => by
    have := depth_le_length_render v
    have := depthMembers_le_length ms
    simp only [Json.depth, depthMembers, render, renderMembers_cons, List.length_cons,
      List.length_append]
    omega
  | .null | .bool _ | .int _ | .float _ _ | .str _ => by simp [Json.depth]

theorem depthItems_le_length : ∀ items : List Json, depthItems items ≤ (commaItems items).length
  | [] => by simp [depthItems]
  | j :: items => by
    have := depth_le_length_render j
    have := depthItems_le_length items
    simp only [depthItems, commaItems_cons, List.length_cons, List.length_append]
    omega

theorem depthMembers_le_length : ∀ ms : List (String × Json), depthMembers ms ≤ (commaMembers ms).length
  | [] => by simp [depthMembers]
  | (k, v) :: ms => by
    have := depth_le_length_render v
    have := depthMembers_le_length ms
    simp only [depthMembers, commaMembers_cons, List.length_cons, List.length_append]
    omega

end

def Follows (rest : List UInt8) : Prop := ∃ b r, rest = b :: r ∧ (b = 0x2C ∨ b = 0x5D ∨ b = 0x7D)

theorem follows_commaItems (items : List Json) (rest : List UInt8) :
    Follows (utf8 (commaItems items) ++ 0x5D :: rest) := by
  cases items with
  | nil => exact ⟨0x5D, rest, rfl, by simp⟩
  | cons j items =>
    refine ⟨0x2C, utf8 (render j ++ commaItems items) ++ 0x5D :: rest, ?_, by simp⟩
    simp [commaItems, utf8EncodeChar_of_lt]

theorem follows_commaMembers (ms : List (String × Json)) (rest : List UInt8) :
    Follows (utf8 (commaMembers ms) ++ 0x7D :: rest) := by
  cases ms with
  | nil => exact ⟨0x7D, rest, rfl, by simp⟩
  | cons m ms =>
    refine ⟨0x2C, utf8 (quote m.1 ++ ':' :: render m.2 ++ commaMembers ms) ++ 0x7D :: rest, ?_,
      by simp⟩
    simp [commaMembers, utf8EncodeChar_of_lt]

theorem utf8_render_head {j : Json} (hj : Readable j) :
    ∃ b, (utf8 (render j)).head? = some b ∧ Scan.isBlank b = false ∧ b ≠ 0x5D ∧ b ≠ 0x7D := by
  cases j with
  | null => exact ⟨0x6E, by simp [render, utf8EncodeChar_of_lt], by decide⟩
  | bool b =>
    cases b
    · exact ⟨0x66, by simp [render, utf8EncodeChar_of_lt], by decide⟩
    · exact ⟨0x74, by simp [render, utf8EncodeChar_of_lt], by decide⟩
  | int i =>
    cases i with
    | ofNat n =>
      obtain ⟨d, ds, hd⟩ := List.exists_cons_of_ne_nil (Nat.toDigits_ne_nil (b := 10) (n := n))
      have hdd : d.isDigit := Nat.isDigit_of_mem_toDigits (by decide) (by decide)
        (hd ▸ List.mem_cons_self)
      have := Scan.toNat_le_of_isDigit hdd
      obtain ⟨-, -, -, -, -, -, h7, h8, h9⟩ := Cursor.digit_starts_number (Scan.isDigit_toUInt8 hdd)
      refine ⟨d.toNat.toUInt8, ?_, h7, h8, h9⟩
      simp [render, toString, Int.repr, hd, utf8EncodeChar_of_lt (show d.toNat < 128 by omega)]
    | negSucc m => exact ⟨0x2D, by simp [render, toString, Int.repr, utf8EncodeChar_of_lt], by decide⟩
  | float => exact absurd hj id
  | str s => exact ⟨0x22, by simp [render, quote, utf8EncodeChar_of_lt], by decide⟩
  | arr items => exact ⟨0x5B, by simp [render, utf8EncodeChar_of_lt], by decide⟩
  | obj ms => exact ⟨0x7B, by simp [render, utf8EncodeChar_of_lt], by decide⟩

theorem length_render_pos {j : Json} (hj : Readable j) : 0 < (render j).length := by
  obtain ⟨b, hb, -⟩ := utf8_render_head hj
  cases h : render j with
  | nil => simp [h] at hb
  | cons => simp

open Cursor

theorem gives_nextElement_item {j : Json} (hj : Readable j) (first : Bool) (rest : List UInt8) :
    Gives (nextElement first) ((if first then [] else [0x2C]) ++ utf8 (render j) ++ rest) true
      (utf8 (render j) ++ rest) := by
  obtain ⟨b, hb, hblank, h5D, -⟩ := utf8_render_head hj
  obtain ⟨bs, hbs⟩ := List.head?_eq_some_iff.1 hb
  rw [hbs]
  cases first
  · exact gives_nextElement_comma hblank h5D
  · exact gives_nextElement_first hblank h5D

theorem gives_nextKey_member (k : String) (first : Bool) (rest : List UInt8) :
    Gives (nextKey first) ((if first then [] else [0x2C]) ++ utf8 (quote k) ++ rest) true
      (utf8 (quote k) ++ rest) := by
  have hq : utf8 (quote k) ++ rest = 0x22 :: (utf8 (quote k).tail ++ rest) := by
    simp [quote, utf8EncodeChar_of_lt]
  rw [List.append_assoc, hq]
  cases first
  · exact gives_nextKey_comma _
  · exact gives_nextKey_first _

mutual

theorem gives_value : ∀ (j : Json) {fuel depth : Nat} {rest : List UInt8}, Readable j →
    (render j).length ≤ fuel → j.depth < depth → Follows rest →
    Gives (value fuel depth) (utf8 (render j) ++ rest) j rest
  | .null, _ + 1, _, _, _, _, _, _ => gives_value_null _
  | .bool b, _ + 1, _, _, _, _, _, _ => gives_value_bool b _
  | .int _, _ + 1, _, _, hj, _, _, ⟨_, _, rfl, hb⟩ => gives_value_int hj.1 hj.2 hb
  | .str s, _ + 1, _, _, _, _, _, _ => gives_value_str s _
  | .arr items, fuel + 1, depth, rest, hj, hf, hd, _ => by
    have hd' : depthItems items < depth - 1 := by simp only [Json.depth] at hd; omega
    have hf' : (renderItems items).length < fuel := by simp [render] at hf; omega
    refine gives_value_arr (by simp only [Json.depth] at hd; omega) ?_
    simpa using @gives_elements items true _ _ [] rest hj hf' hd'
  | .obj ms, fuel + 1, depth, rest, hj, hf, hd, _ => by
    have hd' : depthMembers ms < depth - 1 := by simp only [Json.depth] at hd; omega
    have hf' : (renderMembers ms).length < fuel := by simp [render] at hf; omega
    refine gives_value_obj (by simp only [Json.depth] at hd; omega) ?_
    simpa using @gives_members ms true _ _ [] rest hj hf' hd'
  | .float _ _, _, _, _, hj, _, _, _ => absurd hj id
  | _, 0, _, _, hj, hf, _, _ => absurd hf (Nat.not_le.2 (length_render_pos hj))

theorem gives_elements : ∀ (items : List Json) (first : Bool) {fuel depth : Nat}
    {acc : List Json} {rest : List UInt8}, ReadableItems items →
    (if first then renderItems items else commaItems items).length < fuel →
    depthItems items < depth →
    Gives (elements fuel depth first acc)
      (utf8 (if first then renderItems items else commaItems items) ++ 0x5D :: rest)
      (acc.reverse ++ items) (0x5D :: rest)
  | [], first, fuel + 1, _, acc, rest, _, _, _ => by
    have : (if first then renderItems [] else commaItems []) = [] := by
      cases first <;> simp [renderItems, commaItems]
    rw [this, elements]
    refine (gives_nextElement_close first rest).bind ?_
    simp
  | j :: items, first, fuel + 1, depth, acc, rest, ⟨hj, hitems⟩, hf, hd => by
    have hdepth : j.depth < depth ∧ depthItems items < depth := by
      simp only [depthItems] at hd; omega
    have hpos := length_render_pos hj
    have htext : utf8 (if first then renderItems (j :: items) else commaItems (j :: items)) =
        (if first then [] else [0x2C]) ++ utf8 (render j) ++ utf8 (commaItems items) := by
      cases first <;> simp [renderItems_cons, commaItems, utf8EncodeChar_of_lt]
    have hlen : (render j).length + (commaItems items).length < fuel + 1 := by
      cases first <;>
        simp only [renderItems_cons, commaItems_cons, if_true, Bool.false_eq_true, if_false,
          List.length_append, List.length_cons] at hf <;> omega
    rw [htext, elements, List.append_assoc]
    refine (gives_nextElement_item hj first _).bind ?_
    simp only [if_true]
    refine (gives_value j hj (by omega) hdepth.1 (follows_commaItems items rest)).bind ?_
    simpa using @gives_elements items false _ _ (j :: acc) _ hitems (by simpa using by omega)
      hdepth.2
  | _, _, 0, _, _, _, _, hf, _ => absurd hf (Nat.not_lt_zero _)

theorem gives_members : ∀ (ms : List (String × Json)) (first : Bool) {fuel depth : Nat}
    {acc : List (String × Json)} {rest : List UInt8}, ReadableMembers ms →
    (if first then renderMembers ms else commaMembers ms).length < fuel →
    depthMembers ms < depth →
    Gives (members fuel depth first acc)
      (utf8 (if first then renderMembers ms else commaMembers ms) ++ 0x7D :: rest)
      (acc.reverse ++ ms) (0x7D :: rest)
  | [], first, fuel + 1, _, acc, rest, _, _, _ => by
    have : (if first then renderMembers [] else commaMembers []) = [] := by
      cases first <;> simp [renderMembers, commaMembers]
    rw [this, members]
    refine (gives_nextKey_close first rest).bind ?_
    simp
  | (k, v) :: ms, first, fuel + 1, depth, acc, rest, ⟨hv, hms⟩, hf, hd => by
    have hdepth : v.depth < depth ∧ depthMembers ms < depth := by
      simp only [depthMembers] at hd; omega
    have hpos := length_render_pos hv
    have hq : 2 ≤ (quote k).length := by simp [quote]
    have htext : utf8 (if first then renderMembers ((k, v) :: ms) else commaMembers ((k, v) :: ms)) =
        (if first then [] else [0x2C]) ++ utf8 (quote k) ++
          (0x3A :: utf8 (render v) ++ utf8 (commaMembers ms)) := by
      cases first <;> simp [renderMembers_cons, commaMembers, utf8EncodeChar_of_lt]
    have hlen : (quote k).length + (render v).length + (commaMembers ms).length < fuel := by
      cases first <;>
        simp only [renderMembers_cons, commaMembers_cons, if_true, Bool.false_eq_true, if_false,
          List.length_append, List.length_cons] at hf <;> omega
    rw [htext, members, List.append_assoc]
    refine (gives_nextKey_member k first _).bind ?_
    simp only [if_true]
    refine (gives_key k _).bind <| (gives_colon _).bind ?_
    simp only [List.append_eq, List.append_assoc]
    refine (gives_value v hv (by omega) hdepth.1 (follows_commaMembers ms rest)).bind ?_
    simpa using @gives_members ms false _ _ ((k, v) :: acc) _ hms (by simpa using by omega)
      hdepth.2
  | _, _, 0, _, _, _, _, hf, _ => absurd hf (Nat.not_lt_zero _)

end

end Json

end ClassPatch
