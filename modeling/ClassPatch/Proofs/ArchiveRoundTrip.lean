import ClassPatch.Archive.Read
import ClassPatch.Archive.Write
import ClassPatch.Proofs.StoredBlocks
import ClassPatch.Proofs.LossyUtf8
import ClassPatch.Proofs.InstructionStream

/-!
Zip archives read back, with any deflate library whose decompressor inverts its compressor.
Writing lays out, for each entry, a local header and the deflated bytes, then a central header
for each, then the end record, with every field low byte first. Reading finds the end record at
the very end, takes the leading bytes from where the record says the directory is, and walks
the central headers to the local ones: each field it reads is one the writer wrote. Two things
the writer lets through stop the reading: four bytes twenty before the end record that read as
the signature of the 64-bit locator, which leading bytes or the last name can hold, and an entry
of exactly `2 ^ 32 - 1` bytes, whose size is the 64-bit marker.
-/

namespace ClassPatch

namespace Archive

section Fields

theorem length_field (w v : Nat) : (field w v).length = w := by
  simp [field]

theorem fields_cons (w v : Nat) (vs : List (Nat × Nat)) :
    fields ((w, v) :: vs) = field w v ++ fields vs := rfl

theorem field_two (v : Nat) : field 2 v = [(v % 256).toUInt8, (v / 256 % 256).toUInt8] := by
  simp [field, List.range_succ, Nat.pow_eq]

theorem field_four (v : Nat) :
    field 4 v = [(v % 256).toUInt8, (v / 256 % 256).toUInt8, (v / 65536 % 256).toUInt8,
      (v / 16777216 % 256).toUInt8] := by
  simp [field, List.range_succ, Nat.pow_eq]

end Fields

section Reading

variable {a : Array UInt8} {k : Nat} {l : List UInt8}

theorem le16_of_field {v : Nat} (h : BytesAt a k (field 2 v)) (hv : v < 65536) : le16 a k = v := by
  rw [field_two] at h
  have h₀ := h.getD (i := 0) (by simp)
  have h₁ := h.getD (i := 1) (by simp)
  simp only [Nat.add_zero, List.getElem_cons_zero, List.getElem_cons_succ] at h₀ h₁
  rw [le16, h₀, h₁]
  simp only [Nat.toUInt8_eq, UInt8.toNat_ofNat', Nat.reducePow]
  omega

theorem le32_of_field {v : Nat} (h : BytesAt a k (field 4 v)) (hv : v < 4294967296) :
    le32 a k = v := by
  rw [field_four] at h
  have h₀ := h.getD (i := 0) (by simp)
  have h₁ := h.getD (i := 1) (by simp)
  have h₂ := h.getD (i := 2) (by simp)
  have h₃ := h.getD (i := 3) (by simp)
  simp only [Nat.add_zero, List.getElem_cons_zero, List.getElem_cons_succ] at h₀ h₁ h₂ h₃
  rw [le32, le16, le16, h₀, h₁, Nat.add_assoc k 2 1, h₂, h₃]
  simp only [Nat.toUInt8_eq, UInt8.toNat_ofNat', Nat.reducePow]
  omega

theorem bytesAt_field {vs : List (Nat × Nat)} (h : BytesAt a k (fields vs)) :
    ∀ i (hi : i < vs.length), BytesAt a (k + ((vs.take i).map Prod.fst).sum) (field vs[i].1 vs[i].2) := by
  induction vs generalizing k with
  | nil => simp
  | cons wv vs ih =>
    intro i hi
    obtain ⟨w, v⟩ := wv
    rw [fields_cons] at h
    cases i with
    | zero => simpa using h.left
    | succ i =>
      have := ih (h.right) i (by simpa using hi)
      simpa [length_field, Nat.add_assoc] using this

end Reading

section Writing

variable {L : DeflateLibrary}

/-- What a prepared entry holds: the UTF-8 bytes of its name, which fit 16 bits, its deflated
bytes, and the checksum and number of its bytes, all fitting 32 bits. -/
structure Prepared (L : DeflateLibrary) (e : ArchiveEntry) (w : Written) : Prop where
  name : w.name = e.name.toUTF8.toList
  nameFits : w.name.length ≤ 0xFFFF
  data : w.data = L.deflate e.bytes
  crc : w.crc = (L.crc e.bytes).toNat
  size : w.size = e.bytes.length
  sizeFits : w.size ≤ 0xFFFFFFFF
  dataFits : w.data.length ≤ 0xFFFFFFFF

theorem prepare_eq_ok {e : ArchiveEntry} {w : Written} (h : prepare L e = .ok w) : Prepared L e w := by
  unfold prepare at h
  dsimp only at h
  split_ifs at h with hname hsize
  · cases h
  · cases h
  · cases h
  · cases h
    rename_i hfits
    simp only [Bool.or_eq_true, decide_eq_true_eq, not_or, not_lt] at hfits
    exact ⟨rfl, Nat.le_of_not_lt hname, rfl, rfl, rfl, hfits.2, hfits.1⟩

theorem layout_cons_eq_ok {e : ArchiveEntry} {w : Written} {rest : List (ArchiveEntry × Written)}
    {offset : Nat} {parts directory : List UInt8}
    (h : layout ((e, w) :: rest) offset = .ok (parts, directory)) :
    ∃ parts' directory', offset ≤ 0xFFFFFFFF ∧
      layout rest (offset + (localHeader w ++ w.data).length) = .ok (parts', directory') ∧
      parts = localHeader w ++ w.data ++ parts' ∧ directory = centralHeader w offset ++ directory' := by
  unfold layout at h
  dsimp only at h
  split_ifs at h with hoffset
  · cases h
  · obtain ⟨⟨parts', directory'⟩, hrest, h⟩ := Except.bind_eq_ok_iff.mp h
    cases h
    exact ⟨parts', directory', Nat.le_of_not_lt hoffset, hrest, rfl, rfl⟩

theorem zip_eq_ok {es : List ArchiveEntry} {z : List UInt8} (h : zip L es = .ok z) :
    ∃ written parts directory, es.length ≤ 0xFFFF ∧
      List.Forall₂ (fun e w => prepare L e = .ok w) es written ∧
      layout (es.zip written) 0 = .ok (parts, directory) ∧
      parts.length ≤ 0xFFFFFFFF ∧ directory.length ≤ 0xFFFFFFFF ∧
      z = parts ++ directory ++ fields [(4, 0x06054b50), (2, 0), (2, 0), (2, es.length),
        (2, es.length), (4, directory.length), (4, parts.length), (2, 0)] := by
  unfold zip at h
  split_ifs at h with hcount
  · cases h
  · obtain ⟨written, hwritten, h⟩ := Except.bind_eq_ok_iff.mp h
    obtain ⟨⟨parts, directory⟩, hlayout, h⟩ := Except.bind_eq_ok_iff.mp h
    dsimp only at h
    split_ifs at h with hsizes
    · cases h
    · cases h
      simp only [Bool.or_eq_true, decide_eq_true_eq, not_or, not_lt] at hsizes
      exact ⟨written, parts, directory, Nat.le_of_not_lt hcount, forall₂_of_mapM_eq_ok hwritten,
        hlayout, hsizes.1, hsizes.2, rfl⟩

end Writing

section Directory

variable {L : DeflateLibrary} {a : Array UInt8} {e : ArchiveEntry} {w : Written}

theorem length_fields (vs : List (Nat × Nat)) : (fields vs).length = (vs.map Prod.fst).sum := by
  induction vs with
  | nil => rfl
  | cons wv vs ih =>
    obtain ⟨w, v⟩ := wv
    rw [fields_cons, List.length_append, length_field, ih]
    simp

theorem length_centralHeader (o : Nat) : (centralHeader w o).length = 46 + w.name.length := by
  simp [centralHeader, length_fields]

theorem read_centralHeader {off o : Nat} (hw : Prepared L e w) (ho : o ≤ 0xFFFFFFFF)
    (hat : BytesAt a off (centralHeader w o)) :
    CentralHeader.read a off = .ok
      { name := e.name, flags := 0, method := 8, crc := w.crc, compressedSize := w.data.length,
        uncompressedSize := w.size, localOffset := o, next := off + 46 + w.name.length } := by
  have hf := bytesAt_field hat.left
  have hsize : w.size < 4294967296 := by
    have := hw.sizeFits
    omega
  have hcrc : w.crc < 4294967296 := hw.crc ▸ UInt32.toNat_lt _
  -- every field the reader looks at, at its offset in the header
  have hsig : le32 a off = 0x02014b50 := le32_of_field (by simpa using hf 0 (by simp)) (by decide)
  have hflags : le16 a (off + 8) = 0 := le16_of_field (by simpa using hf 3 (by simp)) (by decide)
  have hmethod : le16 a (off + 10) = 8 := le16_of_field (by simpa using hf 4 (by simp)) (by decide)
  have hcrc' : le32 a (off + 16) = w.crc := le32_of_field (by simpa using hf 7 (by simp)) hcrc
  have hcsize : le32 a (off + 20) = w.data.length :=
    le32_of_field (by simpa using hf 8 (by simp)) (by have := hw.dataFits; omega)
  have husize : le32 a (off + 24) = w.size := le32_of_field (by simpa using hf 9 (by simp)) hsize
  have hnamelen : le16 a (off + 28) = w.name.length :=
    le16_of_field (by simpa using hf 10 (by simp)) (by have := hw.nameFits; omega)
  have hextra : le16 a (off + 30) = 0 := le16_of_field (by simpa using hf 11 (by simp)) (by decide)
  have hcomment : le16 a (off + 32) = 0 := le16_of_field (by simpa using hf 12 (by simp)) (by decide)
  have hoffset : le32 a (off + 42) = o := le32_of_field (by simpa using hf 16 (by simp)) (by omega)
  have hname : (a.extract (off + 46) (off + 46 + w.name.length)).toList = w.name := by
    have := hat.right.extract
    simpa [length_fields] using this
  have hend := hat.le_size (by simp [length_centralHeader])
  rw [length_centralHeader] at hend
  unfold CentralHeader.read
  dsimp only
  have hdecode : Utf8.decodeLossy w.name = e.name := by rw [hw.name, Utf8.decodeLossy_toUTF8]
  rw [hsig, hflags, hmethod, hcrc', hcsize, husize, hnamelen, hextra, hcomment, hoffset, hname,
    hdecode, if_neg (by omega), if_neg (by decide), if_neg (by omega)]
  rfl

theorem length_localHeader : (localHeader w).length = 30 + w.name.length := by
  simp [localHeader, length_fields]

theorem contents_eq {base o next : Nat} (hL : L.Inverts) (hw : Prepared L e w)
    (hat : BytesAt a (base + o) (localHeader w ++ w.data)) (ho : o < 0xFFFFFFFF)
    (hdata : w.data.length < 0xFFFFFFFF) (hsize : w.size < 0xFFFFFFFF) :
    CentralHeader.contents L
      { name := e.name, flags := 0, method := 8, crc := w.crc, compressedSize := w.data.length,
        uncompressedSize := w.size, localOffset := o, next } a base = .ok e.bytes := by
  have hf := bytesAt_field hat.left.left
  have hsig : le32 a (base + o) = 0x04034b50 := le32_of_field (by simpa using hf 0 (by simp)) (by decide)
  have hnamelen : le16 a (base + o + 26) = w.name.length :=
    le16_of_field (by simpa using hf 9 (by simp)) (by have := hw.nameFits; omega)
  have hextra : le16 a (base + o + 28) = 0 := le16_of_field (by simpa using hf 10 (by simp)) (by decide)
  have hend := hat.le_size (by simp [length_localHeader])
  rw [List.length_append, length_localHeader] at hend
  have hdata' : (a.extract (base + o + 30 + w.name.length)
      (base + o + 30 + w.name.length + w.data.length)).toList = w.data := by
    have := hat.right.extract
    rwa [length_localHeader, ← Nat.add_assoc] at this
  have hinflate : L.inflate w.data = some e.bytes := by
    rw [hw.data]
    exact hL e.bytes
  unfold CentralHeader.contents
  dsimp only
  rw [hsig, hnamelen, hextra]
  simp only [Nat.add_zero]
  rw [hdata', hinflate]
  have hcheck : (e.bytes.length != w.size || (L.crc e.bytes).toNat != w.crc) = false := by
    simp [hw.size, hw.crc]
  rw [if_neg (by decide), if_neg (by simp [zip64Marker]; omega), if_neg (by omega), if_neg (by decide),
    if_neg (by omega), if_neg (by decide), if_pos (by decide)]
  simp only [pure_bind, hcheck, Bool.false_eq_true, if_false]
  rfl

theorem contents_marker {base : Nat} (h : CentralHeader) (hflags : h.flags = 0)
    (hsize : h.uncompressedSize = zip64Marker) :
    CentralHeader.contents L h a base = .error (.zip64 h.name) := by
  have hmarker : (h.compressedSize == zip64Marker || h.uncompressedSize == zip64Marker ||
      h.localOffset == zip64Marker) = true := by simp [hsize]
  unfold CentralHeader.contents
  rw [if_neg (by simp [hflags]), if_pos hmarker]
  rfl

theorem walk_layout {base : Nat} (hL : L.Inverts) (module : Bool) :
    ∀ {ews : List (ArchiveEntry × Written)} {offset off : Nat} {parts directory : List UInt8},
      (∀ ew ∈ ews, Prepared L ew.1 ew.2) →
      (∀ ew ∈ ews, isClassEntry ew.1.name module = true → ew.1.bytes.length ≠ zip64Marker) →
      layout ews offset = .ok (parts, directory) →
      offset + parts.length ≤ 0xFFFFFFFF → BytesAt a (base + offset) parts → BytesAt a off directory →
      walk L a base module ews.length off =
        .ok ((ews.map Prod.fst).filter fun e => isClassEntry e.name module)
  | [], _, _, _, _, _, _, _, _, _, _ => rfl
  | (e, w) :: rest, offset, off, parts, directory, hw, hsizes, h, hfits, hparts, hdirectory => by
    obtain ⟨parts', directory', hoffset, hrest, rfl, rfl⟩ := layout_cons_eq_ok h
    have hew : Prepared L e w := hw (e, w) List.mem_cons_self
    -- this entry's part, of at least thirty bytes, and the rest's end below the 32-bit marker
    have hpart := hfits
    simp only [List.length_append, length_localHeader] at hpart
    -- the rest is laid out after this entry's part, and its headers after this entry's header
    have ih := walk_layout hL module (fun ew hew' => hw ew (List.mem_cons_of_mem _ hew'))
      (fun ew hew' => hsizes ew (List.mem_cons_of_mem _ hew')) hrest
      (by simp only [List.length_append, length_localHeader]; omega)
      (by rw [← Nat.add_assoc]; exact hparts.right)
      (by have := hdirectory.right; rwa [length_centralHeader, ← Nat.add_assoc] at this)
    rw [List.length_cons, walk, read_centralHeader hew hoffset hdirectory.left]
    simp only [Except.ok_bind, List.map_cons]
    by_cases hclass : isClassEntry e.name module = true
    · have hsize : w.size < 0xFFFFFFFF := by
        have hne : e.bytes.length ≠ zip64Marker := hsizes (e, w) List.mem_cons_self hclass
        have := hew.sizeFits
        rw [hew.size] at this ⊢
        unfold zip64Marker at hne
        omega
      rw [if_pos hclass, contents_eq hL hew hparts.left (by omega) (by omega) hsize, Except.ok_bind, ih]
      simp only [List.filter_cons, hclass, if_true]
      rfl
    · rw [if_neg hclass, ih]
      simp only [List.filter_cons, hclass, Bool.false_eq_true, if_false]

end Directory

section EndRecord

theorem locate_eq {b p parts directory : List UInt8} {n : Nat}
    (hb : b = p ++ (parts ++ directory ++ fields [(4, 0x06054b50), (2, 0), (2, 0), (2, n), (2, n),
      (4, directory.length), (4, parts.length), (2, 0)]))
    (hn : n ≤ 0xFFFF) (hparts : parts.length ≤ 0xFFFFFFFF) (hdirectory : directory.length ≤ 0xFFFFFFFF) :
    locate b.toArray =
      if 42 ≤ b.length ∧ signatureAt b.toArray (b.length - 42) zip64LocatorSignature = true then
        .error (.zip64 "central directory")
      else .ok ⟨p.length, p.length + parts.length, n⟩ := by
  have hlen : b.length = p.length + parts.length + directory.length + 22 := by
    subst hb
    simp [length_fields]
    omega
  have hrecord : BytesAt b.toArray (p.length + parts.length + directory.length)
      (fields [(4, 0x06054b50), (2, 0), (2, 0), (2, n), (2, n), (4, directory.length),
        (4, parts.length), (2, 0)]) := by
    have := bytesAt_append (p ++ parts ++ directory) (fields [(4, 0x06054b50), (2, 0), (2, 0), (2, n),
      (2, n), (4, directory.length), (4, parts.length), (2, 0)]) []
    rw [hb]
    simpa only [List.append_assoc, List.length_append, List.append_nil, Nat.add_assoc] using this
  have hf := bytesAt_field hrecord
  have hsize : b.toArray.size = p.length + parts.length + directory.length + 22 := by
    rw [List.size_toArray, hlen]
  -- the search starts at the last place the record fits, which is where it is
  obtain ⟨m, hm⟩ : ∃ m, b.toArray.size - endLength + 1 -
      (b.toArray.size - min b.toArray.size (endLength + 65535)) = m + 1 :=
    Nat.exists_eq_succ_of_ne_zero (by rw [hsize, endLength]; omega)
  have hlast : b.toArray.size - endLength = p.length + parts.length + directory.length := by
    rw [hsize, endLength]
    omega
  have hsig : le32 b.toArray (p.length + parts.length + directory.length) = 0x06054b50 :=
    le32_of_field (by simpa using hf 0 (by simp)) (by decide)
  have hcount : le16 b.toArray (p.length + parts.length + directory.length + 10) = n :=
    le16_of_field (by simpa using hf 4 (by simp)) (by omega)
  have hlength : le32 b.toArray (p.length + parts.length + directory.length + 12) = directory.length :=
    le32_of_field (by simpa using hf 5 (by simp)) (by omega)
  have hoffset : le32 b.toArray (p.length + parts.length + directory.length + 16) = parts.length :=
    le32_of_field (by simpa using hf 6 (by simp)) (by omega)
  have hfound : signatureAt b.toArray (p.length + parts.length + directory.length) endSignature = true := by
    simp only [signatureAt, hsize, hsig, Bool.and_eq_true, decide_eq_true_eq, beq_iff_eq]
    exact ⟨by omega, rfl⟩
  unfold locate
  dsimp only
  rw [if_neg (by rw [hsize, endLength]; omega), hm, hlast]
  simp only [List.range_succ_eq_map, List.map_cons, Nat.sub_zero, List.find?_cons, hfound, pure_bind]
  -- the guard reads the bytes twenty before the record, forty-two before the end
  have hguard : (decide (p.length + parts.length + directory.length ≥ 20) &&
      signatureAt b.toArray (p.length + parts.length + directory.length - 20) zip64LocatorSignature) = true ↔
      42 ≤ b.length ∧ signatureAt b.toArray (b.length - 42) zip64LocatorSignature = true := by
    rw [Bool.and_eq_true, decide_eq_true_eq, hlen,
      show p.length + parts.length + directory.length + 22 - 42 = p.length + parts.length + directory.length - 20 by
        omega]
    exact and_congr_left' (by omega)
  by_cases hz : 42 ≤ b.length ∧ signatureAt b.toArray (b.length - 42) zip64LocatorSignature = true
  · rw [if_pos (hguard.mpr hz), if_pos hz]
    rfl
  · rw [if_neg (mt hguard.mp hz), if_neg hz, hcount, hlength, hoffset, if_neg (by omega), if_neg (by omega)]
    rw [Nat.add_sub_cancel, Nat.add_sub_cancel]
    rfl

end EndRecord

section RoundTrip

variable {L : DeflateLibrary}

theorem bytesAt_written (p parts directory record : List UInt8) :
    BytesAt (p ++ (parts ++ directory ++ record)).toArray p.length (parts ++ directory) := by
  simpa only [List.append_assoc] using bytesAt_append p (parts ++ directory) record

/-- Reading an archive as written, after any leading bytes, walks its directory from where the
local parts end, unless the guard for the 64-bit locator stops it. -/
theorem classEntries_eq_walk {z parts directory : List UInt8} {n : Nat}
    (hz : z = parts ++ directory ++ fields [(4, 0x06054b50), (2, 0), (2, 0), (2, n), (2, n),
      (4, directory.length), (4, parts.length), (2, 0)])
    (hn : n ≤ 0xFFFF) (hparts : parts.length ≤ 0xFFFFFFFF) (hdirectory : directory.length ≤ 0xFFFFFFFF)
    (p : List UInt8) (module : Bool) :
    classEntries L (p ++ z) module =
      if 42 ≤ (p ++ z).length ∧
          signatureAt (p ++ z).toArray ((p ++ z).length - 42) zip64LocatorSignature = true then
        .error (.zip64 "central directory")
      else walk L (p ++ z).toArray p.length module n (p.length + parts.length) := by
  unfold classEntries
  dsimp only
  rw [locate_eq (congrArg (p ++ ·) hz) hn hparts hdirectory]
  split_ifs <;> rfl

/-- An archive written with a deflate library whose decompressor inverts its compressor reads
back, after any leading bytes and in either layout, as the entries it holds whose names are class
names, in order and with their bytes, as long as none of those has `2 ^ 32 - 1` bytes, unless the
four bytes forty-two from the end read as the signature of the 64-bit locator. Those bytes lie in
the leading bytes or in the last name of the directory, so nothing the writer checks rules them
out. -/
theorem classEntries_zip {L : DeflateLibrary} (hL : L.Inverts) {es : List ArchiveEntry}
    {z : List UInt8} (h : zip L es = .ok z) (p : List UInt8) (module : Bool)
    (hsizes : ∀ e ∈ es, isClassEntry e.name module = true → e.bytes.length ≠ zip64Marker) :
    classEntries L (p ++ z) module =
      if 42 ≤ (p ++ z).length ∧
          signatureAt (p ++ z).toArray ((p ++ z).length - 42) zip64LocatorSignature = true then
        .error (.zip64 "central directory")
      else .ok (es.filter fun e => isClassEntry e.name module) := by
  obtain ⟨written, parts, directory, hcount, hprepared, hlayout, hparts, hdirectory, hz⟩ := zip_eq_ok h
  have hlength : (es.zip written).length = es.length := by
    rw [List.length_zip, hprepared.length_eq, Nat.min_self]
  have hw : ∀ ew ∈ es.zip written, Prepared L ew.1 ew.2 := by
    rintro ⟨e, w⟩ hew
    exact prepare_eq_ok ((List.forall₂_iff_zip.mp hprepared).2 hew)
  have hsizes' : ∀ ew ∈ es.zip written, isClassEntry ew.1.name module = true →
      ew.1.bytes.length ≠ zip64Marker := fun ew hew => hsizes ew.1 (List.of_mem_zip hew).1
  rw [classEntries_eq_walk hz hcount hparts hdirectory]
  -- the walk reads the local parts and the directory, not the end record
  obtain ⟨record, rfl⟩ : ∃ record, z = parts ++ directory ++ record := ⟨_, hz⟩
  have hat := bytesAt_written p parts directory record
  have hwalk := walk_layout hL module hw hsizes' hlayout (by omega)
    (by rw [Nat.add_zero]; exact hat.left) hat.right
  rw [hlength, List.map_fst_zip (Nat.le_of_eq hprepared.length_eq)] at hwalk
  rw [hwalk]

theorem classEntries_zip_markerSize {L : DeflateLibrary} {e : ArchiveEntry}
    {rest : List ArchiveEntry} {z : List UInt8} (h : zip L (e :: rest) = .ok z) (p : List UInt8)
    (module : Bool) (hclass : isClassEntry e.name module = true) (hsize : e.bytes.length = zip64Marker) :
    classEntries L (p ++ z) module =
      if 42 ≤ (p ++ z).length ∧
          signatureAt (p ++ z).toArray ((p ++ z).length - 42) zip64LocatorSignature = true then
        .error (.zip64 "central directory")
      else .error (.zip64 e.name) := by
  obtain ⟨written, parts, directory, hcount, hprepared, hlayout, hparts, hdirectory, hz⟩ := zip_eq_ok h
  obtain ⟨w, written', hw, -, rfl⟩ := List.forall₂_cons_left_iff.mp hprepared
  have hew := prepare_eq_ok hw
  obtain ⟨parts', directory', hoffset, -, rfl, rfl⟩ := layout_cons_eq_ok hlayout
  rw [classEntries_eq_walk hz hcount hparts hdirectory]
  -- the first central header stands right after the local parts
  obtain ⟨record, rfl⟩ : ∃ record, z = localHeader w ++ w.data ++ parts' ++
      (centralHeader w 0 ++ directory') ++ record := ⟨_, hz⟩
  have hheader := (bytesAt_written p (localHeader w ++ w.data ++ parts')
    (centralHeader w 0 ++ directory') record).right.left
  rw [List.length_cons, walk, read_centralHeader hew hoffset hheader, Except.ok_bind, if_pos hclass,
    contents_marker _ rfl (hew.size.trans hsize)]
  rfl

theorem classEntries_zip_oneClass :
    ∃ z, zip DeflateLibrary.stored [⟨"A.class", [0xCA, 0xFE]⟩] = .ok z ∧
      classEntries DeflateLibrary.stored ([] ++ z) false = .ok [⟨"A.class", [0xCA, 0xFE]⟩] := by
  -- the writer reads the bytes of the name and their checksum, which only the kernel evaluates
  have hz : zip DeflateLibrary.stored [⟨"A.class", [0xCA, 0xFE]⟩] = .ok
      [80, 75, 3, 4, 20, 0, 0, 0, 8, 0, 0, 0, 0, 0, 32, 242, 201, 42, 7, 0, 0, 0, 2, 0, 0, 0, 7, 0,
        0, 0, 65, 46, 99, 108, 97, 115, 115, 1, 2, 0, 253, 255, 202, 254, 80, 75, 1, 2, 20, 0, 20,
        0, 0, 0, 8, 0, 0, 0, 0, 0, 32, 242, 201, 42, 7, 0, 0, 0, 2, 0, 0, 0, 7, 0, 0, 0, 0, 0, 0, 0,
        0, 0, 0, 0, 0, 0, 0, 0, 0, 0, 65, 46, 99, 108, 97, 115, 115, 80, 75, 5, 6, 0, 0, 0, 0, 1, 0,
        1, 0, 53, 0, 0, 0, 44, 0, 0, 0, 0, 0] :=
    Except.eq_ok_of_toOption (by decide +kernel)
  have hclass : isClassEntry "A.class" false = true := by decide +kernel
  refine ⟨_, hz, ?_⟩
  rw [classEntries_zip DeflateLibrary.stored_inverts hz [] false (by simp [hclass, zip64Marker]),
    if_neg (by decide)]
  simp [hclass]

/-- Leading bytes that end with the signature of the 64-bit locator followed by sixteen bytes
stop the reading of an archive as written, here of no entries with the stored-block library. -/
theorem classEntries_zip_locatorPreamble :
    zip DeflateLibrary.stored [] =
        .ok (fields [(4, 0x06054b50), (2, 0), (2, 0), (2, 0), (2, 0), (4, 0), (4, 0), (2, 0)]) ∧
      classEntries DeflateLibrary.stored ([0x50, 0x4b, 0x06, 0x07] ++ List.replicate 16 0 ++
        fields [(4, 0x06054b50), (2, 0), (2, 0), (2, 0), (2, 0), (4, 0), (4, 0), (2, 0)]) false =
        .error (.zip64 "central directory") :=
  ⟨rfl, rfl⟩

end RoundTrip

end Archive

end ClassPatch
