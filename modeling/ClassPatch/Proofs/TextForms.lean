import Mathlib
import ClassPatch.Delta.Flags
import ClassPatch.Bytes.Hex
import ClassPatch.Proofs.JsonText

namespace ClassPatch

namespace Blank

def trimList (cs : List Char) : List Char :=
  ((cs.dropWhile isBlank).reverse.dropWhile isBlank).reverse

theorem toList_trim (s : String) : (trim s).toList = trimList s.toList := by
  simp [trim, trimList]

theorem trim_ofList (cs : List Char) : trim (String.ofList cs) = String.ofList (trimList cs) := by
  simp [trim, trimList]

theorem forall_isBlank_of_trimList_eq_nil {cs : List Char} (h : trimList cs = []) :
    ∀ c ∈ cs, isBlank c = true := by
  rw [← List.dropWhile_eq_nil_iff]
  cases hd : cs.dropWhile isBlank with
  | nil => rfl
  | cons d ds =>
    have hdb : isBlank d = false := by
      have := List.head_dropWhile_not isBlank (show cs.dropWhile isBlank ≠ [] by simp [hd])
      simpa [hd] using this
    unfold trimList at h
    rw [hd, List.reverse_eq_nil_iff, List.dropWhile_eq_nil_iff] at h
    simpa [hdb] using h d (by simp)

theorem trimList_around {pre p post : List Char} (hpre : ∀ c ∈ pre, isBlank c = true)
    (hpost : ∀ c ∈ post, isBlank c = true) (hp : ∀ c ∈ p, isBlank c = false) (hne : p ≠ []) :
    trimList (pre ++ p ++ post) = p := by
  obtain ⟨c, cs, rfl⟩ := List.exists_cons_of_ne_nil hne
  obtain ⟨d, ds, hlast⟩ := List.exists_cons_of_ne_nil (List.reverse_ne_nil_iff.2 hne)
  have hc : isBlank c = false := hp c List.mem_cons_self
  have hd : isBlank d = false := hp d (by rw [← List.mem_reverse, hlast]; exact List.mem_cons_self)
  unfold trimList
  rw [List.append_assoc, List.dropWhile_append_of_pos hpre, List.cons_append,
    List.dropWhile_cons_of_neg (by simp [hc]), ← List.cons_append, List.reverse_append, hlast,
    List.dropWhile_append_of_pos (by simpa using hpost),
    List.dropWhile_cons_of_neg (by simp [hd]), ← hlast, List.reverse_reverse]

theorem splitOn_bars : ∀ (ps : List (List Char)) (lead : List Char), ps ≠ [] →
    (∀ p ∈ ps, '|' ∉ p ∧ p ≠ [] ∧ ∀ c ∈ p, isBlank c = false) → (∀ c ∈ lead, isBlank c = true) →
    ((lead ++ [' ', '|', ' '].intercalate ps).splitOn '|').map trimList = ps
  | [], _, hne, _, _ => absurd rfl hne
  | [p], lead, _, hp, hlead => by
    obtain ⟨hbar, hpne, hpb⟩ := hp p List.mem_cons_self
    have hno : '|' ∉ lead ++ p := by
      rw [List.mem_append, not_or]
      exact ⟨fun h => absurd (hlead _ h) (by decide), hbar⟩
    rw [List.intercalate_singleton, List.splitOn_eq_singleton hno, List.map_singleton,
      ← List.append_nil (lead ++ p), trimList_around hlead (by simp) hpb hpne]
  | p :: q :: rest, lead, _, hp, hlead => by
    obtain ⟨hbar, hpne, hpb⟩ := hp p List.mem_cons_self
    have hsplit : lead ++ [' ', '|', ' '].intercalate (p :: q :: rest) =
        (lead ++ p ++ [' ']) ++ '|' :: ([' '] ++ [' ', '|', ' '].intercalate (q :: rest)) := by
      simp [List.intercalate_cons_cons]
    have hno : '|' ∉ lead ++ p ++ [' '] := by
      simp only [List.mem_append, List.mem_singleton, not_or]
      exact ⟨⟨fun h => absurd (hlead _ h) (by decide), hbar⟩, by decide⟩
    rw [hsplit, List.splitOn_append_cons_self_of_not_mem hno, List.map_cons,
      trimList_around hlead (by simp [isBlank]) hpb hpne,
      splitOn_bars (q :: rest) [' '] (by simp) (fun x hx => hp x (List.mem_cons_of_mem p hx))
        (by simp [isBlank])]

end Blank

namespace FlagNames

private def hexStep (acc : Nat) (c : Char) : Option Nat :=
  if '0' ≤ c && c ≤ '9' then some (acc * 16 + (c.toNat - '0'.toNat))
  else if 'a' ≤ c && c ≤ 'f' then some (acc * 16 + (c.toNat - 'a'.toNat + 10))
  else if 'A' ≤ c && c ≤ 'F' then some (acc * 16 + (c.toNat - 'A'.toNat + 10))
  else none

private theorem hexStep_digitChar (acc : Nat) {d : Nat} (hd : d < 16) :
    hexStep acc (Nat.digitChar d) = some (acc * 16 + d) := by
  have : ∀ d : Fin 16, (('0' ≤ Nat.digitChar d && Nat.digitChar d ≤ '9') = true ∧
      (Nat.digitChar d).toNat - '0'.toNat = d) ∨
      (('0' ≤ Nat.digitChar d && Nat.digitChar d ≤ '9') = false ∧
        ('a' ≤ Nat.digitChar d && Nat.digitChar d ≤ 'f') = true ∧
        (Nat.digitChar d).toNat - 'a'.toNat + 10 = d) := by decide
  rcases this ⟨d, hd⟩ with ⟨h1, h2⟩ | ⟨h1, h2, h3⟩
  · simp only [hexStep, h1, if_true, h2]
  · simp only [hexStep, h1, h2, h3, Bool.false_eq_true, if_false, if_true]

private theorem foldlM_hexStep_toDigits (n : Nat) :
    (Nat.toDigits 16 n).foldlM hexStep 0 = some n := by
  induction n using Nat.strong_induction_on with
  | _ n ih =>
    rw [Nat.toDigits_eq_if (by decide)]
    split
    · simp [hexStep_digitChar 0 ‹n < 16›]
    · rw [List.foldlM_append, ih (n / 16) (by omega)]
      simp only [Option.bind_eq_bind, Option.bind_some, List.foldlM_cons, List.foldlM_nil]
      rw [hexStep_digitChar _ (Nat.mod_lt n (by decide))]
      simp
      omega

private theorem mem_toDigits_sixteen (n : Nat) :
    ∀ c ∈ Nat.toDigits 16 n, ∃ d < 16, c = Nat.digitChar d := by
  induction n using Nat.strong_induction_on with
  | _ n ih =>
    rw [Nat.toDigits_eq_if (by decide)]
    split
    · simp only [List.mem_singleton, forall_eq]
      exact ⟨n, ‹_›, rfl⟩
    · intro c hc
      rcases List.mem_append.1 hc with hc | hc
      · exact ih (n / 16) (by omega) c hc
      · exact ⟨n % 16, Nat.mod_lt n (by decide), List.mem_singleton.1 hc⟩

theorem hexValue?_toDigits (x : UInt16) : hexValue? (Nat.toDigits 16 x.toNat) = some x := by
  obtain ⟨c, cs, hcs⟩ := List.exists_cons_of_ne_nil (Nat.toDigits_ne_nil (b := 16) (n := x.toNat))
  have hc : c ≠ '+' := by
    obtain ⟨d, hd, rfl⟩ := mem_toDigits_sixteen x.toNat c (hcs ▸ List.mem_cons_self)
    have : ∀ d : Fin 16, Nat.digitChar d ≠ '+' := by decide
    exact this ⟨d, hd⟩
  have hfold : (c :: cs).foldlM hexStep 0 = some x.toNat := hcs ▸ foldlM_hexStep_toDigits x.toNat
  unfold hexValue?
  rw [hcs]
  split
  · simp_all
  · have hlt : x.toNat < 65536 := x.toNat_lt
    unfold hexStep at hfold
    simp only [List.isEmpty_cons, Bool.false_eq_true, if_false]
    rw [hfold]
    simp [hlt]

/-! ### Bits -/

def orAll (bs : List UInt16) : UInt16 := bs.foldr (· ||| ·) 0

@[simp] theorem orAll_nil : orAll [] = 0 := rfl

@[simp] theorem orAll_cons (b : UInt16) (bs : List UInt16) : orAll (b :: bs) = b ||| orAll bs :=
  rfl

theorem foldl_or (acc : UInt16) (bs : List UInt16) : bs.foldl (· ||| ·) acc = acc ||| orAll bs := by
  induction bs generalizing acc with
  | nil => simp
  | cons b bs ih => simp [ih, UInt16.or_assoc]

theorem known_eq (t : FlagNames) : t.known = orAll (t.names.map (·.2)) := by
  have h := foldl_or 0 (t.names.map (·.2))
  rw [List.foldl_map, UInt16.zero_or] at h
  exact h

theorem and_eq_self_or_zero (x : UInt16) {b : UInt16} (hb : ∃ i < 16, b.toBitVec = BitVec.twoPow 16 i) :
    x &&& b = b ∨ x &&& b = 0 := by
  obtain ⟨i, -, hi⟩ := hb
  have h := BitVec.and_twoPow x.toBitVec i
  rw [← hi] at h
  split at h
  · exact .inl (UInt16.toBitVec_inj.1 (by simpa using h))
  · exact .inr (UInt16.toBitVec_inj.1 (by simpa using h))

theorem orAll_filter (x : UInt16) :
    ∀ ps : List (String × UInt16), (∀ p ∈ ps, ∃ i < 16, p.2.toBitVec = BitVec.twoPow 16 i) →
      orAll ((ps.filter fun p => x &&& p.2 == p.2).map (·.2)) = x &&& orAll (ps.map (·.2))
  | [], _ => by simp
  | p :: ps, h => by
    have ih := orAll_filter x ps fun p' hp' => h p' (List.mem_cons_of_mem p hp')
    have hdist : x &&& orAll ((p :: ps).map (·.2)) = (x &&& p.2) ||| (x &&& orAll (ps.map (·.2))) :=
      UInt16.toBitVec_inj.1 (by simp [BitVec.and_or_distrib_left])
    rw [hdist, List.filter_cons]
    rcases and_eq_self_or_zero x (h p List.mem_cons_self) with hset | hclear
    · rw [if_pos (by simp [hset]), List.map_cons, orAll_cons, ih, hset]
    · split
      · rename_i hset
        have hb : p.2 = 0 := by rw [← beq_iff_eq.1 hset, hclear]
        rw [List.map_cons, orAll_cons, ih, hclear, hb]
      · rw [ih, hclear, UInt16.zero_or]

theorem orAll_filter_or_rest (x k : UInt16) : (x &&& k) ||| (x &&& ~~~k) = x :=
  UInt16.toBitVec_inj.1 (by
    simp only [UInt16.toBitVec_or, UInt16.toBitVec_and, UInt16.toBitVec_not,
      ← BitVec.and_or_distrib_left, BitVec.or_not_self, BitVec.and_allOnes])

/-! ### Reading the text back -/

/-- A table whose text reads back: each name is a non-empty word of capital letters that looking
it up finds, and names a single bit. -/
def WellFormed (t : FlagNames) : Prop :=
  ∀ p ∈ t.names, (p.1.toList ≠ [] ∧ ∀ c ∈ p.1.toList, 'A' ≤ c ∧ c ≤ 'Z') ∧
    t.names.lookup p.1 = some p.2 ∧ ∃ i < 16, p.2.toBitVec = BitVec.twoPow 16 i

theorem part?_name {t : FlagNames} (ht : t.WellFormed) {p : String × UInt16} (hp : p ∈ t.names) :
    t.part? p.1 = some p.2 := by
  obtain ⟨⟨hne, hcaps⟩, hlook, -⟩ := ht p hp
  obtain ⟨c, cs, hcs⟩ := List.exists_cons_of_ne_nil hne
  have hc : c ≠ '0' := by
    have := hcaps c (hcs ▸ List.mem_cons_self)
    rintro rfl
    simp at this
  unfold part?
  rw [hcs]
  split
  · simp_all
  · simp_all
  · exact hlook

theorem part?_hex (t : FlagNames) (x : UInt16) :
    t.part? ("0x" ++ String.ofList (Nat.toDigits 16 x.toNat)) = some x := by
  unfold part?
  simp only [String.toList_append, String.toList_ofList]
  exact hexValue?_toDigits x

theorem orAll_append (as bs : List UInt16) : orAll (as ++ bs) = orAll as ||| orAll bs := by
  induction as with
  | nil => simp
  | cons a as ih => simp [ih, UInt16.or_assoc]

theorem foldlM_part? (t : FlagNames) :
    ∀ (pv : List (String × UInt16)), (∀ q ∈ pv, t.part? q.1 = some q.2) → ∀ acc : UInt16,
      (pv.map (·.1.toList)).foldlM
        (fun acc cs => (t.part? (String.ofList cs)).map (acc ||| ·)) acc =
        some (acc ||| orAll (pv.map (·.2)))
  | [], _, acc => by simp
  | q :: pv, h, acc => by
    simp only [List.map_cons, List.foldlM_cons, String.ofList_toList, h q List.mem_cons_self,
      Option.map_some, Option.bind_eq_bind, Option.bind_some]
    rw [foldlM_part? t pv (fun q' hq' => h q' (List.mem_cons_of_mem q hq')), orAll_cons,
      UInt16.or_assoc]

theorem parse?_render {t : FlagNames} (ht : t.WellFormed) (bits : UInt16) :
    t.parse? (t.render bits) = some bits := by
  -- each part of the text with the bits it stands for: the names of the set flags, then the
  -- unnamed bits in hexadecimal
  let rest := bits &&& ~~~t.known
  let pv := t.names.filter (fun p => bits &&& p.2 == p.2) ++
    (if rest == 0 then [] else [("0x" ++ String.ofList (Nat.toDigits 16 rest.toNat), rest)])
  have htext : t.render bits = " | ".intercalate (pv.map (·.1)) := by
    simp only [render, pv, List.map_append]
    split <;> rfl
  have hbits : orAll (pv.map (·.2)) = bits := by
    have hnamed : orAll ((t.names.filter fun p => bits &&& p.2 == p.2).map (·.2)) =
        bits &&& t.known := by
      rw [known_eq, orAll_filter bits t.names fun p hp => (ht p hp).2.2]
    simp only [pv, List.map_append, orAll_append, hnamed]
    split
    · rename_i h0
      have h0' : bits &&& ~~~t.known = 0 := beq_iff_eq.1 h0
      conv_rhs => rw [← orAll_filter_or_rest bits t.known, h0']
      simp
    · simpa using orAll_filter_or_rest bits t.known
  -- every part reads as its bits, and is a word with no bar and no blank
  have hcaps : ∀ c : Char, 'A' ≤ c ∧ c ≤ 'Z' → c ≠ '|' ∧ Blank.isBlank c = false := by
    intro c hc
    have h1 : 65 ≤ c.toNat := hc.1
    have h2 : c.toNat ≤ 90 := hc.2
    refine ⟨fun h => by subst h; simp at h1 h2, ?_⟩
    simp [Blank.isBlank]
    omega
  have hdigit : ∀ d : Fin 16, Nat.digitChar d ≠ '|' ∧ Blank.isBlank (Nat.digitChar d) = false := by
    decide
  have hparts : ∀ q ∈ pv, t.part? q.1 = some q.2 ∧
      ('|' ∉ q.1.toList ∧ q.1.toList ≠ [] ∧ ∀ c ∈ q.1.toList, Blank.isBlank c = false) := by
    intro q hq
    rcases List.mem_append.1 hq with hq | hq
    · have hmem := (List.mem_filter.1 hq).1
      obtain ⟨⟨hne, hc⟩, -, -⟩ := ht q hmem
      exact ⟨part?_name ht hmem, fun h => (hcaps _ (hc _ h)).1 rfl, hne,
        fun c h => (hcaps c (hc c h)).2⟩
    · split at hq
      · simp at hq
      · rw [List.mem_singleton] at hq
        subst hq
        refine ⟨part?_hex t rest, ?_, by simp, ?_⟩
        · simp only [String.toList_append, String.toList_ofList, List.mem_append, not_or]
          refine ⟨by decide, fun h => ?_⟩
          obtain ⟨d, hd, hdc⟩ := mem_toDigits_sixteen _ _ h
          exact (hdigit ⟨d, hd⟩).1 hdc.symm
        · intro c hc
          simp only [String.toList_append, String.toList_ofList, List.mem_append] at hc
          rcases hc with hc | hc
          · simp at hc
            rcases hc with rfl | rfl <;> decide
          · obtain ⟨d, hd, rfl⟩ := mem_toDigits_sixteen _ _ hc
            exact (hdigit ⟨d, hd⟩).2
  unfold parse?
  by_cases hpv : pv = []
  · -- no part: the empty text, and no bit
    rw [htext, hpv]
    have : bits = 0 := by rw [← hbits, hpv]; rfl
    simp [this, Blank.trim]
  · -- the text splits at its bars into the parts, and starts with the first of them
    have hlist : (t.render bits).toList = [' ', '|', ' '].intercalate (pv.map (·.1.toList)) := by
      rw [htext, String.toList_intercalate, List.map_map]
      rfl
    have hsplit := Blank.splitOn_bars (pv.map (·.1.toList)) [] (by simpa using hpv)
      (fun p hp => by obtain ⟨q, hq, rfl⟩ := List.mem_map.1 hp; exact (hparts q hq).2) (by simp)
    rw [List.nil_append, ← hlist] at hsplit
    obtain ⟨q, pv', hq⟩ := List.exists_cons_of_ne_nil hpv
    have hpre : ∃ r, (t.render bits).toList = q.1.toList ++ r := by
      rw [hlist, hq, List.map_cons]
      by_cases hpv' : pv' = []
      · exact ⟨[], by simp [hpv']⟩
      · refine ⟨[' ', '|', ' '] ++ [' ', '|', ' '].intercalate (pv'.map (·.1.toList)), ?_⟩
        rw [List.intercalate_cons_of_ne_nil (by simpa using hpv' : pv'.map (·.1.toList) ≠ []),
          List.append_assoc]
    have hne : (Blank.trim (t.render bits)).isEmpty = false := by
      rw [String.isEmpty_eq_false_iff, Ne, ← String.toList_inj, Blank.toList_trim]
      intro h
      have hblank := Blank.forall_isBlank_of_trimList_eq_nil h
      obtain ⟨r, hr⟩ := hpre
      obtain ⟨-, -, hqne, hqb⟩ := hparts q (hq ▸ List.mem_cons_self)
      obtain ⟨c, cs, hc⟩ := List.exists_cons_of_ne_nil hqne
      have := hblank c (by rw [hr, hc]; simp)
      rw [hqb c (hc ▸ List.mem_cons_self)] at this
      exact Bool.false_ne_true this
    have hfold : ∀ pieces : List (List Char),
        pieces.foldlM (fun acc part => (t.part? (Blank.trim (String.ofList part))).map (acc ||| ·))
          0 =
        (pieces.map Blank.trimList).foldlM
          (fun acc cs => (t.part? (String.ofList cs)).map (acc ||| ·)) 0 := by
      intro pieces
      simp [List.foldlM_map, Blank.trim_ofList]
    rw [if_neg (by simp [hne]), hfold, hsplit,
      foldlM_part? t pv (fun q hq => (hparts q hq).1) 0, UInt16.zero_or, hbits]

theorem wellFormed_ofClass : ofClass.WellFormed := by
  intro p hp
  exact ⟨by revert p; simp [ofClass], by revert p; decide, by revert p; decide⟩

theorem wellFormed_ofMethod : ofMethod.WellFormed := by
  intro p hp
  exact ⟨by revert p; simp [ofMethod], by revert p; decide, by revert p; decide⟩

theorem wellFormed_ofField : ofField.WellFormed := by
  intro p hp
  exact ⟨by revert p; simp [ofField], by revert p; decide, by revert p; decide⟩

end FlagNames


namespace Hex

open Json

-- Each digit is one ASCII byte, which reads back as the digit's value.
private theorem digit_byte : ∀ v : Fin 16,
    String.utf8EncodeChar (digit v) = [(digit v).toNat.toUInt8] ∧
      value? (digit v).toNat.toUInt8 = some v.val.toUInt8 := by
  decide

theorem utf8_pair (b : UInt8) :
    utf8 (pair b) = [(digit (b.toNat / 16)).toNat.toUInt8, (digit (b.toNat % 16)).toNat.toUInt8] := by
  have hb : b.toNat < 256 := b.toNat_lt
  simp [pair, (digit_byte ⟨b.toNat / 16, by omega⟩).1, (digit_byte ⟨b.toNat % 16, by omega⟩).1]

theorem decodePairs_encode (position : Nat) (bytes : List UInt8) :
    decodePairs position (utf8 (bytes.flatMap pair)) = .ok bytes := by
  induction bytes generalizing position with
  | nil => rfl
  | cons b bytes ih =>
    have hb : b.toNat < 256 := b.toNat_lt
    rw [List.flatMap_cons, utf8_append, utf8_pair]
    simp only [List.cons_append, List.nil_append, decodePairs,
      (digit_byte ⟨b.toNat / 16, by omega⟩).2, (digit_byte ⟨b.toNat % 16, by omega⟩).2, ih]
    have hbyte : (b.toNat / 16).toUInt8 * 16 + (b.toNat % 16).toUInt8 = b := by
      rw [UInt8.ext_iff]
      simp [UInt8.toNat_add, UInt8.toNat_mul]
      omega
    rw [hbyte]
    rfl

theorem decode_encode (bytes : List UInt8) : decode (encode bytes) = .ok bytes := by
  have hlen : (utf8 (bytes.flatMap pair)).length = 2 * bytes.length := by
    induction bytes with
    | nil => rfl
    | cons b bytes ih =>
      rw [List.flatMap_cons, utf8_append, utf8_pair, List.length_append, ih]
      simp
      omega
  have hraw : (encode bytes).toUTF8.toList = utf8 (bytes.flatMap pair) := by
    simp [encode, ByteArray.toList_eq, List.utf8Encode, utf8]
  unfold decode
  simp only [hraw, hlen, Nat.mul_mod_right, Nat.zero_ne_one, if_false]
  exact decodePairs_encode 0 bytes

theorem library_lossless : library.Lossless := decode_encode

end Hex

end ClassPatch
