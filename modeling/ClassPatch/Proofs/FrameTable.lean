import ClassPatch.Proofs.RawFormat
import ClassPatch.Proofs.Monad
import ClassPatch.Bytecode.Decode

/-!
Stack map frames through their offset deltas. The encoder stores the first frame of a body at
its offset and every later one at its distance from the frame before less one, each in the
compact or the extended form that its delta allows; the decoder adds the deltas back up. For
frames at increasing offsets that fit a 16-bit delta, whose chops and appends take one to three
locals and whose full lists fit their counts, the offsets and frames come back, as long as the
table's own 16-bit count holds them. A table of 65536 frames, one at every offset a body can
have, is written with the count 0 and reads back empty.
-/

namespace ClassPatch

/-- The frames a stack map table can hold: a chop of one to three locals, an append of one to
three, and a full frame whose lists fit their 16-bit counts. -/
def Frame.Storable (f : Frame UInt16 UInt16) : Prop := (StackMapFrame.mk 0 f).Fits

instance : DecidablePred Frame.Storable := fun f =>
  match f with
  | .same => isTrue trivial
  | .sameLocalsOneStack _ => isTrue trivial
  | .chop k => inferInstanceAs (Decidable (1 ≤ k ∧ k ≤ 3))
  | .append locals => inferInstanceAs (Decidable (1 ≤ locals.length ∧ locals.length ≤ 3))
  | .full locals stack =>
    inferInstanceAs (Decidable (locals.length < 65536 ∧ stack.length < 65536))

/-- The stack map table of frames at the given offsets, in order, as the encoder writes it: each
frame stored with its delta from the frame before. -/
def frameTable : Option Nat → List (Nat × Frame UInt16 UInt16) →
    Except FormatError (List StackMapFrame)
  | _, [] => .ok []
  | previous, (offset, f) :: rest => do
    let delta ← frameDelta previous offset
    let stored ← StackMapFrame.ofFrame delta.toUInt16 f
    let more ← frameTable (some offset) rest
    pure (stored :: more)

section Deltas

def offsetAfter (previous : Option Nat) (delta : Nat) : Nat :=
  match previous with
  | none => delta
  | some p => p + delta + 1

theorem frameOffsets_cons (previous : Option Nat) (f : StackMapFrame) (rest : List StackMapFrame) :
    frameOffsets previous (f :: rest) =
      (offsetAfter previous f.delta.toNat, f.frame) ::
        frameOffsets (some (offsetAfter previous f.delta.toNat)) rest := by
  cases previous <;> rfl

theorem frameDelta_eq_ok {previous : Option Nat} {offset : Nat}
    (habove : ∀ p ∈ previous, p < offset) (hlt : offset < 65536) :
    ∃ delta, frameDelta previous offset = .ok delta ∧ delta < 65536 ∧
      offsetAfter previous delta = offset := by
  cases previous with
  | none => exact ⟨offset, rfl, hlt, rfl⟩
  | some p =>
    have hp : p < offset := habove p rfl
    refine ⟨offset - p - 1, ?_, by omega, by simp only [offsetAfter]; omega⟩
    simp [frameDelta, hp]

theorem ofFrame_eq_ok {delta : UInt16} {f : Frame UInt16 UInt16} (h : f.Storable) :
    StackMapFrame.ofFrame delta f = .ok ⟨delta, f⟩ := by
  cases f with
  | chop k =>
    obtain ⟨h₁, h₃⟩ : 1 ≤ k ∧ k ≤ 3 := h
    simp [StackMapFrame.ofFrame, h₁, h₃]
  | append locals =>
    obtain ⟨h₁, h₃⟩ : 1 ≤ locals.length ∧ locals.length ≤ 3 := h
    simp [StackMapFrame.ofFrame, h₁, h₃]
  | _ => rfl

end Deltas

theorem frameTable_eq_ok :
    ∀ {fs : List (Nat × Frame UInt16 UInt16)} {previous : Option Nat},
      (fs.map (·.1)).Pairwise (· < ·) → (∀ p ∈ previous, ∀ x ∈ fs, p < x.1) →
      (∀ x ∈ fs, x.1 < 65536) → (∀ x ∈ fs, x.2.Storable) →
      ∃ table, frameTable previous fs = .ok table ∧ table.length = fs.length ∧
        (∀ f ∈ table, f.Fits) ∧ frameOffsets previous table = fs
  | [], _, _, _, _, _ => ⟨[], rfl, rfl, fun _ h => absurd h List.not_mem_nil, rfl⟩
  | (offset, f) :: rest, previous, hinc, habove, hlt, hstorable => by
    rw [List.map_cons, List.pairwise_cons] at hinc
    obtain ⟨delta, hdelta, hsmall, hback⟩ :=
      frameDelta_eq_ok (fun p hp => habove p hp _ List.mem_cons_self) (hlt _ List.mem_cons_self)
    -- the rest lies above this frame, which the next delta is taken from
    obtain ⟨more, hmore, hlen, hfits, hoffsets⟩ :=
      @frameTable_eq_ok rest (some offset) hinc.2
        (fun p hp x hx => by
          rw [Option.mem_some_iff] at hp
          subst hp
          exact hinc.1 _ (List.mem_map_of_mem hx))
        (fun x hx => hlt x (List.mem_cons_of_mem _ hx))
        (fun x hx => hstorable x (List.mem_cons_of_mem _ hx))
    have hstored : StackMapFrame.ofFrame delta.toUInt16 f = .ok ⟨delta.toUInt16, f⟩ :=
      ofFrame_eq_ok (hstorable _ List.mem_cons_self)
    have hdeltaNat : delta.toUInt16.toNat = delta := UInt16.toNat_ofNat_of_lt' hsmall
    refine ⟨⟨delta.toUInt16, f⟩ :: more, ?_, by simp [hlen], ?_, ?_⟩
    · rw [frameTable, hdelta, Except.ok_bind, hstored, Except.ok_bind, hmore]
      rfl
    · intro g hg
      rcases List.mem_cons.mp hg with rfl | hg
      · exact hstorable _ List.mem_cons_self
      · exact hfits g hg
    · rw [frameOffsets_cons, hdeltaNat, hback, hoffsets]

theorem reads_table {table : List StackMapFrame} (hfits : ∀ f ∈ table, f.Fits)
    (hcount : table.length < 65536) :
    Reader.Reads (Reader.list StackMapFrame.read) (Writer.list StackMapFrame.encode table) table :=
  Reader.reads_list hcount fun f hf => f.reads_read (hfits f hf)

theorem markerTables_frames {lay : Layout} :
    ∀ {previous : Option Nat} {items : List (Instruction Label × Nat)} {S S' : PoolBuilder}
      {lines : List RawLine} {frames : List StackMapFrame},
      markerTables lay previous items S = .ok ((lines, frames), S') →
      ∃ stored : List (Nat × Frame UInt16 UInt16),
        stored.map (·.1) = (items.filter (·.1.isFrame)).map (fun x => lay.offsets.getD x.2 0) ∧
        frameTable previous stored = .ok frames
  | previous, [], S, S', lines, frames, h => by
    simp only [markerTables] at h
    cases h
    exact ⟨[], rfl, rfl⟩
  | previous, (i, position) :: rest, S, S', lines, frames, h => by
    unfold markerTables at h
    split at h
    · -- a line number adds to the other table
      obtain ⟨_, S₁, -, h₁⟩ := Build.bind_eq_ok h
      obtain ⟨⟨lines', frames'⟩, S₂, hrest, h₂⟩ := Build.bind_eq_ok h₁
      cases h₂
      obtain ⟨stored, hoffsets, htable⟩ := markerTables_frames hrest
      exact ⟨stored, by simpa [List.filter_cons, Instruction.isFrame] using hoffsets, htable⟩
    · next f =>
      obtain ⟨delta, S₁, hlift, h₁⟩ := Build.bind_eq_ok h
      have hdelta := (Build.lift_eq_ok hlift).1
      obtain ⟨sf, S₂, -, h₂⟩ := Build.bind_eq_ok h₁
      obtain ⟨frame, S₃, hstore, h₃⟩ := Build.bind_eq_ok h₂
      have hframe := (Build.lift_eq_ok hstore).1
      obtain ⟨⟨lines', frames'⟩, S₄, hrest, h₄⟩ := Build.bind_eq_ok h₃
      cases h₄
      obtain ⟨stored, hoffsets, htable⟩ := markerTables_frames hrest
      refine ⟨(lay.offsets.getD position 0, sf) :: stored, ?_, ?_⟩
      · simp [Instruction.isFrame, hoffsets]
      · rw [frameTable, hdelta, Except.ok_bind, hframe, Except.ok_bind, htable]
        rfl
    · next hline hframe =>
      have hnot : i.isFrame = false := by
        cases i with
        | frame f => exact absurd rfl (hframe f)
        | _ => rfl
      obtain ⟨stored, hoffsets, htable⟩ := markerTables_frames h
      exact ⟨stored, by simpa [List.filter_cons, hnot] using hoffsets, htable⟩

section ReadBack

theorem decode_table {table : List StackMapFrame} (hfits : ∀ f ∈ table, f.Fits)
    (hcount : table.length < 65536) (name : UInt16) :
    RawAttribute.decode ⟨name, Writer.list StackMapFrame.encode table⟩
      (Reader.list StackMapFrame.read) = .ok table :=
  RawAttribute.decode_of_reads (reads_table hfits hcount)

theorem decode_list_of_length {α : Type} {r : Reader α} {enc : α → List UInt8} {xs : List α}
    (hlen : xs.length = 65536) (name : UInt16) :
    RawAttribute.decode ⟨name, Writer.list enc xs⟩ (Reader.list r) = .ok [] := by
  have hzero : BigEndian.u16 xs.length.toUInt16 = [0, 0] := by
    rw [hlen]
    rfl
  simp only [RawAttribute.decode, Writer.list, hzero]
  rfl

end ReadBack

/-- Stack map frames survive the offset deltas. Frames at increasing offsets below 65536, each
of which a table can hold, are converted as the encoder converts its frame markers
(`markerTables_frames`) into a table that the decoder reads back at the same offsets with the
same frames, as long as they are fewer than 65536. -/
theorem frameTable_readBack (fs : List (Nat × Frame UInt16 UInt16))
    (hinc : (fs.map (·.1)).Pairwise (· < ·)) (hlt : ∀ x ∈ fs, x.1 < 65536)
    (hstorable : ∀ x ∈ fs, x.2.Storable) (hcount : fs.length < 65536) :
    ∃ table, frameTable none fs = .ok table ∧
      ∀ name, (RawAttribute.decode ⟨name, Writer.list StackMapFrame.encode table⟩
        (Reader.list StackMapFrame.read)).map (frameOffsets none) = .ok fs := by
  obtain ⟨table, htable, hlen, hfits, hoffsets⟩ :=
    frameTable_eq_ok hinc (fun p hp => absurd hp (Option.not_mem_none p)) hlt hstorable
  refine ⟨table, htable, fun name => ?_⟩
  rw [decode_table hfits (by omega) name]
  exact congrArg Except.ok hoffsets

def sampleFrames : List (Nat × Frame UInt16 UInt16) :=
  [(5, .same), (80, .sameLocalsOneStack .integer), (81, .chop 2), (90, .append [.long, .object 3]),
    (100, .sameLocalsOneStack .float), (65535, .full [.uninitialized 81] [.null])]

theorem frameTable_readBack_sample :
    (sampleFrames.map (·.1)).Pairwise (· < ·) ∧ (∀ x ∈ sampleFrames, x.1 < 65536) ∧
      (∀ x ∈ sampleFrames, x.2.Storable) ∧ sampleFrames.length < 65536 ∧
      ∃ table, frameTable none sampleFrames = .ok table ∧
        ∀ name, (RawAttribute.decode ⟨name, Writer.list StackMapFrame.encode table⟩
          (Reader.list StackMapFrame.read)).map (frameOffsets none) = .ok sampleFrames := by
  have hinc : (sampleFrames.map (·.1)).Pairwise (· < ·) := by decide
  have hlt : ∀ x ∈ sampleFrames, x.1 < 65536 := by decide
  have hstorable : ∀ x ∈ sampleFrames, x.2.Storable := by decide
  have hcount : sampleFrames.length < 65536 := by decide
  exact ⟨hinc, hlt, hstorable, hcount,
    frameTable_readBack sampleFrames hinc hlt hstorable hcount⟩

def fullRangeFrames : List (Nat × Frame UInt16 UInt16) :=
  (List.range 65536).map fun o => (o, .same)

/-- The 65536 frames at every offset a body can have are at increasing offsets below 65536 and
each can be stored, but the table that holds them all is written with the count 0 and reads
back with no frame at all. -/
theorem frameTable_fullRange_readsEmpty :
    (fullRangeFrames.map (·.1)).Pairwise (· < ·) ∧ (∀ x ∈ fullRangeFrames, x.1 < 65536) ∧
      (∀ x ∈ fullRangeFrames, x.2.Storable) ∧
      ∃ table, frameTable none fullRangeFrames = .ok table ∧
        ∀ name, (RawAttribute.decode ⟨name, Writer.list StackMapFrame.encode table⟩
          (Reader.list StackMapFrame.read)).map (frameOffsets none) = .ok [] := by
  have hoffsets : fullRangeFrames.map (·.1) = List.range 65536 := by
    rw [fullRangeFrames, List.map_map]
    exact List.map_id' _
  have hinc : (fullRangeFrames.map (·.1)).Pairwise (· < ·) := by
    rw [hoffsets]
    exact List.pairwise_lt_range
  have hlt : ∀ x ∈ fullRangeFrames, x.1 < 65536 := by
    intro x hx
    obtain ⟨o, ho, rfl⟩ := List.mem_map.mp hx
    exact List.mem_range.mp ho
  have hstorable : ∀ x ∈ fullRangeFrames, x.2.Storable := by
    intro x hx
    obtain ⟨o, -, rfl⟩ := List.mem_map.mp hx
    exact trivial
  obtain ⟨table, htable, hlen, -, -⟩ :=
    frameTable_eq_ok hinc (fun p hp => absurd hp (Option.not_mem_none p)) hlt hstorable
  refine ⟨hinc, hlt, hstorable, table, htable, fun name => ?_⟩
  have hcount : table.length = 65536 := by
    rw [hlen, fullRangeFrames, List.length_map, List.length_range]
  rw [decode_list_of_length hcount name]
  rfl

end ClassPatch
