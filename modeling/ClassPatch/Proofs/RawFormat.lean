import ClassPatch.Proofs.Codec
import ClassPatch.Proofs.Utf
import ClassPatch.ClassFile.Raw

namespace ClassPatch

open Reader

theorem Reader.Reads.u8_bind {β : Type} {f : UInt8 → Reader β} {b : UInt8} {bs : List UInt8}
    {x : β} (h : Reads (f b) bs x) : Reads (u8 >>= f) (b :: bs) x :=
  (reads_u8 b).bind h

theorem HandleKind.ofCode?_code (k : HandleKind) : HandleKind.ofCode? k.code = some k := by
  cases k <;> rfl

namespace RawAttribute

/-- The info fits the 32-bit length of its attribute. -/
def Fits (a : RawAttribute) : Prop := a.info.length < Nat.pow 2 32

theorem reads_read (a : RawAttribute) (h : a.Fits) : Reads read a.encode a := by
  have hlen : a.info.length.toUInt32.toNat = a.info.length := by
    rw [Nat.toUInt32_eq, UInt32.toNat_ofNat_of_lt' h]
  unfold read encode
  rw [List.append_assoc]
  refine (reads_u16 a.name).bind ((reads_u32 _).bind ?_)
  rw [hlen]
  exact (reads_bytes _).bind_pure

theorem decode_of_reads {α : Type} {r : Reader α} {x : α} {name : UInt16} {info : List UInt8}
    (h : Reads r info x) : RawAttribute.decode ⟨name, info⟩ r = .ok x := by
  simp [decode, h.run_eq, Except.map]

end RawAttribute

namespace PoolEntry

/-- A text fits the 16-bit length of its entry. -/
def Fits : PoolEntry → Prop
  | .utf8 text => (ModifiedUtf8.encode text).length < 65536
  | _ => True

theorem reads_read (e : PoolEntry) (h : e.Fits) : Reads read e.encode e := by
  cases e with
  | utf8 text =>
    have hlen : (ModifiedUtf8.encode text).length.toUInt16.toNat =
        (ModifiedUtf8.encode text).length := by
      rw [Nat.toUInt16_eq, UInt16.toNat_ofNat_of_lt' h]
    unfold read encode
    refine Reads.u8_bind ?_
    simp only
    refine (reads_u16 _).bind ?_
    rw [hlen]
    refine ((reads_bytes _).bind ?_).of_bytes (List.append_nil _)
    simp only [ModifiedUtf8.decode_encode]
    exact Reads.pure _
  | integer v =>
    unfold read encode
    exact Reads.u8_bind (reads_i32_of_u32 v).bind_pure
  | float bits =>
    unfold read encode
    exact Reads.u8_bind (reads_u32 bits).bind_pure
  | long v =>
    unfold read encode
    exact Reads.u8_bind (reads_i64_of_u64 v).bind_pure
  | double bits =>
    unfold read encode
    exact Reads.u8_bind (reads_u64 bits).bind_pure
  | classRef name =>
    unfold read encode
    exact Reads.u8_bind (reads_u16 name).bind_pure
  | string text =>
    unfold read encode
    exact Reads.u8_bind (reads_u16 text).bind_pure
  | fieldref owner nat =>
    unfold read encode
    exact Reads.u8_bind ((reads_u16 owner).bind (reads_u16 nat).bind_pure)
  | methodref owner nat isInterface =>
    -- the tag tells a class's method from an interface's
    cases isInterface
    · unfold read encode
      refine Reads.u8_bind ?_
      simp only [Bool.false_eq_true, ↓reduceIte, show ((10 : UInt8) == 11) = false by decide]
      exact (reads_u16 owner).bind (reads_u16 nat).bind_pure
    · unfold read encode
      refine Reads.u8_bind ?_
      simp only [↓reduceIte, show ((11 : UInt8) == 11) = true by decide]
      exact (reads_u16 owner).bind (reads_u16 nat).bind_pure
  | nameAndType name descriptor =>
    unfold read encode
    exact Reads.u8_bind ((reads_u16 name).bind (reads_u16 descriptor).bind_pure)
  | methodHandle kind member =>
    unfold read encode
    refine Reads.u8_bind (Reads.u8_bind ?_)
    simp only [HandleKind.ofCode?_code]
    exact (reads_u16 member).bind_pure
  | methodType descriptor =>
    unfold read encode
    exact Reads.u8_bind (reads_u16 descriptor).bind_pure
  | dynamic bootstrap nat =>
    unfold read encode
    exact Reads.u8_bind ((reads_u16 bootstrap).bind (reads_u16 nat).bind_pure)
  | invokeDynamic bootstrap nat =>
    unfold read encode
    exact Reads.u8_bind ((reads_u16 bootstrap).bind (reads_u16 nat).bind_pure)
  | module name =>
    unfold read encode
    exact Reads.u8_bind (reads_u16 name).bind_pure
  | package name =>
    unfold read encode
    exact Reads.u8_bind (reads_u16 name).bind_pure

theorem width_pos (e : PoolEntry) : 1 ≤ e.width := by
  cases e <;> simp [width]

end PoolEntry

namespace Pool

def slots : Nat → List PoolEntry → List (Nat × PoolEntry)
  | _, [] => []
  | i, e :: es => (i, e) :: slots (i + e.width) es

def ofEntries (es : List PoolEntry) : Pool :=
  { entries := slots 1 es, next := 1 + (es.map PoolEntry.width).sum }

theorem flatMap_slots (i : Nat) (es : List PoolEntry) :
    (slots i es).flatMap (fun p => p.2.encode) = es.flatMap PoolEntry.encode := by
  induction es generalizing i with
  | nil => rfl
  | cons e es ih => simp [slots, ih]

theorem nextAfter_slots (i : Nat) (es : List PoolEntry) (hes : es ≠ []) :
    nextAfter (slots i es) = i + (es.map PoolEntry.width).sum := by
  induction es generalizing i with
  | nil => exact absurd rfl hes
  | cons e es ih =>
    cases es with
    | nil => simp [slots, nextAfter]
    | cons e' es' =>
      -- a later entry holds the last slot
      have hlater : slots (i + e.width) (e' :: es') ≠ [] := by simp [slots]
      rw [slots, nextAfter.eq_3 _ _ (fun _ _ _ h => hlater h),
        ih (i + e.width) (List.cons_ne_nil _ _)]
      simp only [List.map_cons, List.sum_cons]
      omega

theorem reads_readEntries (count : Nat) :
    ∀ (es : List PoolEntry) (i fuel : Nat), i + (es.map PoolEntry.width).sum = count →
      es.length ≤ fuel → (∀ e ∈ es, e.Fits) →
      Reads (readEntries count fuel i) (es.flatMap PoolEntry.encode) (slots i es)
  | [], i, fuel, hcount, _, _ => by
    -- at the last slot the count is reached and reading stops
    cases fuel with
    | zero => exact Reads.pure []
    | succ fuel =>
      simp only [List.map_nil, List.sum_nil, Nat.add_zero] at hcount
      rw [readEntries, if_neg (by omega)]
      exact Reads.pure []
  | e :: es, i, fuel, hcount, hfuel, hfits => by
    obtain ⟨fuel, rfl⟩ : ∃ f, fuel = f + 1 := ⟨fuel - 1, by simp at hfuel; omega⟩
    have hw := e.width_pos
    simp only [List.map_cons, List.sum_cons] at hcount
    rw [readEntries, if_pos (by omega)]
    have hrest := reads_readEntries count es (i + e.width) fuel (by omega)
      (by simpa using hfuel) (fun e' he' => hfits e' (List.mem_cons_of_mem e he'))
    exact (e.reads_read (hfits e List.mem_cons_self)).bind (hrest.bind_pure (g := ((i, e) :: ·)))

theorem length_le_sum_width (es : List PoolEntry) : es.length ≤ (es.map PoolEntry.width).sum := by
  induction es with
  | nil => simp
  | cons e es ih =>
    simp only [List.length_cons, List.map_cons, List.sum_cons]
    have := e.width_pos
    omega

theorem reads_read (es : List PoolEntry) (hnext : 1 + (es.map PoolEntry.width).sum < 65536)
    (hfits : ∀ e ∈ es, e.Fits) : Reads read (ofEntries es).encode (ofEntries es) := by
  have hcount : (1 + (es.map PoolEntry.width).sum).toUInt16.toNat =
      1 + (es.map PoolEntry.width).sum := by
    rw [Nat.toUInt16_eq, UInt16.toNat_ofNat_of_lt' hnext]
  have hlen : es.length ≤ 1 + (es.map PoolEntry.width).sum := by
    have := length_le_sum_width es
    omega
  have hentries := reads_readEntries (1 + (es.map PoolEntry.width).sum) es 1
    (1 + (es.map PoolEntry.width).sum) rfl hlen hfits
  rw [← hcount] at hentries
  unfold read encode ofEntries
  simp only [flatMap_slots]
  refine (reads_u16 _).bind (hentries.bind_pure.of_eq ?_)
  -- the next free slot read back is the one the pool had
  by_cases hes : es = []
  · subst hes
    rfl
  · simp [nextAfter_slots 1 es hes]

end Pool

namespace RawMember

/-- The attributes fit their count and each its length. -/
def Fits (m : RawMember) : Prop := m.attributes.length < 65536 ∧ ∀ a ∈ m.attributes, a.Fits

theorem reads_read (m : RawMember) (h : m.Fits) : Reads read m.encode m := by
  have hattributes := reads_list h.1 fun a ha => a.reads_read (h.2 a ha)
  unfold read encode
  simp only [List.append_assoc]
  exact (reads_u16 _).bind ((reads_u16 _).bind ((reads_u16 _).bind hattributes.bind_pure))

end RawMember

namespace RawClass

/-- What makes a class file read back: a pool laid out slot after slot whose count and texts
fit, and lists that fit their counts. -/
structure Fits (c : RawClass) : Prop where
  pool : ∃ es, c.pool = Pool.ofEntries es ∧ 1 + (es.map PoolEntry.width).sum < 65536 ∧
    ∀ e ∈ es, e.Fits
  interfaces : c.interfaces.length < 65536
  fields : c.fields.length < 65536 ∧ ∀ m ∈ c.fields, m.Fits
  methods : c.methods.length < 65536 ∧ ∀ m ∈ c.methods, m.Fits
  attributes : c.attributes.length < 65536 ∧ ∀ a ∈ c.attributes, a.Fits

theorem reads_read (c : RawClass) (h : c.Fits) : Reads read c.encode c := by
  obtain ⟨es, hpool, hnext, htexts⟩ := h.pool
  have hp := Pool.reads_read es hnext htexts
  rw [← hpool] at hp
  have hinterfaces := reads_list h.interfaces fun i _ => reads_u16 i
  have hfields := reads_list h.fields.1 fun m hm => m.reads_read (h.fields.2 m hm)
  have hmethods := reads_list h.methods.1 fun m hm => m.reads_read (h.methods.2 m hm)
  have hattributes := reads_list h.attributes.1 fun a ha => a.reads_read (h.attributes.2 a ha)
  unfold read encode
  simp only [List.append_assoc]
  refine (reads_u32 magic).bind ?_
  simp only [bne_self_eq_false, Bool.false_eq_true, ↓reduceIte]
  exact (reads_u16 _).bind ((reads_u16 _).bind (hp.bind ((reads_u16 _).bind ((reads_u16 _).bind
    ((reads_u16 _).bind (hinterfaces.bind (hfields.bind (hmethods.bind hattributes.bind_pure))))))))

end RawClass

namespace CodeAttribute

/-- The code fits its 32-bit length, and the handlers and attributes their counts. -/
structure Fits (c : CodeAttribute) : Prop where
  code : c.code.length < Nat.pow 2 32
  handlers : c.handlers.length < 65536
  attributes : c.attributes.length < 65536 ∧ ∀ a ∈ c.attributes, a.Fits

theorem reads_read (c : CodeAttribute) (h : c.Fits) : Reads read c.encode c := by
  have hlen : c.code.length.toUInt32.toNat = c.code.length := by
    rw [Nat.toUInt32_eq, UInt32.toNat_ofNat_of_lt' h.code]
  have hattributes := reads_list h.attributes.1 fun a ha => a.reads_read (h.attributes.2 a ha)
  unfold read encode
  simp only [List.append_assoc]
  refine (reads_u16 _).bind ((reads_u16 _).bind ((reads_u32 _).bind ?_))
  rw [hlen]
  refine (reads_bytes _).bind ((reads_list h.handlers fun x _ => ?_).bind hattributes.bind_pure)
  exact (reads_u16 _).bind ((reads_u16 _).bind ((reads_u16 _).bind (reads_u16 _).bind_pure))

end CodeAttribute

namespace VerificationType

theorem reads_read (t : VerificationType UInt16 UInt16) : Reads read (encode t) t := by
  cases t with
  | object c => exact Reads.u8_bind (reads_u16 c).bind_pure
  | uninitialized u => exact Reads.u8_bind (reads_u16 u).bind_pure
  | _ => exact Reads.u8_bind (Reads.pure _)

theorem reads_times (ts : List (VerificationType UInt16 UInt16)) :
    Reads (times read ts.length) (ts.flatMap encode) ts :=
  Reader.reads_times fun t _ => reads_read t

theorem reads_list (ts : List (VerificationType UInt16 UInt16)) (h : ts.length < 65536) :
    Reads (list read) (Writer.list encode ts) ts :=
  Reader.reads_list h fun t _ => reads_read t

end VerificationType

section FrameTags

set_option maxRecDepth 8192

-- a short delta is the tag of a frame with the same locals, and 64 above it one stack item
private theorem short_tag (b : UInt8) (h : b < 64) :
    b + 64 < 128 ∧ ¬ b + 64 < 64 ∧ b + 64 - 64 = b := by
  revert b
  decide

private theorem chop_tag (k : UInt8) (h : 1 ≤ k ∧ k ≤ 3) :
    ¬ 251 - k < 64 ∧ ¬ 251 - k < 128 ∧ (251 - k == 247) = false ∧
      (248 ≤ 251 - k && 251 - k ≤ 250) = true ∧ 251 - (251 - k) = k := by
  revert k
  decide

private theorem append_tag (n : UInt8) (h : 1 ≤ n ∧ n ≤ 3) :
    ¬ 251 + n < 64 ∧ ¬ 251 + n < 128 ∧ (251 + n == 247) = false ∧
      (248 ≤ 251 + n && 251 + n ≤ 250) = false ∧ (251 + n == 251) = false ∧
      (252 ≤ 251 + n && 251 + n ≤ 254) = true ∧ 251 + n - 251 = n := by
  revert n
  decide

end FrameTags

theorem UInt16.short_delta {d : UInt16} (h : d ≤ 63) : d.toUInt8 < 64 ∧ d.toUInt8.toUInt16 = d := by
  have hd : d.toNat ≤ 63 := UInt16.le_iff_toNat_le.mp h
  constructor
  · rw [UInt8.lt_iff_toNat_lt, UInt16.toNat_toUInt8]
    simp only [UInt8.reduceToNat]
    omega
  · apply UInt16.toNat_inj.mp
    rw [UInt8.toNat_toUInt16, UInt16.toNat_toUInt8]
    omega

namespace StackMapFrame

/-- A chop takes one to three locals, an append adds one to three, and a full frame's lists fit
their counts. -/
def Fits (f : StackMapFrame) : Prop :=
  match f.frame with
  | .chop k => 1 ≤ k ∧ k ≤ 3
  | .append locals => 1 ≤ locals.length ∧ locals.length ≤ 3
  | .full locals stack => locals.length < 65536 ∧ stack.length < 65536
  | _ => True

theorem reads_read (f : StackMapFrame) (h : f.Fits) : Reads read f.encode f := by
  obtain ⟨delta, frame⟩ := f
  cases frame with
  | same =>
    unfold read encode
    by_cases hd : delta ≤ 63
    · obtain ⟨hlt, hback⟩ := UInt16.short_delta hd
      simp only [hd, ↓reduceIte]
      refine Reads.u8_bind ?_
      simp only [hlt, ↓reduceIte, hback]
      exact Reads.pure _
    · simp only [hd, ↓reduceIte]
      refine Reads.u8_bind ?_
      simp only [show ¬ (251 : UInt8) < 64 by decide, show ¬ (251 : UInt8) < 128 by decide,
        show ((251 : UInt8) == 247) = false by decide,
        show (248 ≤ (251 : UInt8) && (251 : UInt8) ≤ 250) = false by decide,
        show ((251 : UInt8) == 251) = true by decide, ↓reduceIte, Bool.false_eq_true]
      exact (reads_u16 delta).bind_pure
  | sameLocalsOneStack t =>
    unfold read encode
    by_cases hd : delta ≤ 63
    · obtain ⟨hlt, hback⟩ := UInt16.short_delta hd
      obtain ⟨h128, h64, hsub⟩ := short_tag _ hlt
      simp only [hd, ↓reduceIte, List.singleton_append]
      refine Reads.u8_bind ?_
      simp only [h64, h128, ↓reduceIte, hsub, hback]
      exact (VerificationType.reads_read t).bind_pure
    · simp only [hd, ↓reduceIte, List.cons_append]
      refine Reads.u8_bind ?_
      simp only [show ¬ (247 : UInt8) < 64 by decide, show ¬ (247 : UInt8) < 128 by decide,
        show ((247 : UInt8) == 247) = true by decide, ↓reduceIte]
      exact (reads_u16 delta).bind (VerificationType.reads_read t).bind_pure
  | chop k =>
    obtain ⟨h64, h128, h247, hchop, hk⟩ := chop_tag k h
    unfold read encode
    refine Reads.u8_bind ?_
    simp only [h64, h128, h247, hchop, hk, ↓reduceIte, Bool.false_eq_true]
    exact (reads_u16 delta).bind_pure
  | append locals =>
    obtain ⟨hl₁, hl₂⟩ : 1 ≤ locals.length ∧ locals.length ≤ 3 := h
    have hn : 1 ≤ locals.length.toUInt8 ∧ locals.length.toUInt8 ≤ 3 := by
      simp only [UInt8.le_iff_toNat_le, Nat.toUInt8_eq, UInt8.toNat_ofNat', UInt8.reduceToNat]
      omega
    obtain ⟨h64, h128, h247, hchop, h251, happend, hcount⟩ := append_tag _ hn
    have hlen : locals.length.toUInt8.toNat = locals.length := by
      simp only [Nat.toUInt8_eq, UInt8.toNat_ofNat']
      omega
    unfold read encode
    refine Reads.u8_bind ?_
    simp only [h64, h128, h247, hchop, h251, happend, hcount, hlen, ↓reduceIte, Bool.false_eq_true]
    exact (reads_u16 delta).bind (VerificationType.reads_times locals).bind_pure
  | full locals stack =>
    unfold read encode
    refine Reads.u8_bind ?_
    simp only [show ¬ (255 : UInt8) < 64 by decide, show ¬ (255 : UInt8) < 128 by decide,
      show ((255 : UInt8) == 247) = false by decide,
      show (248 ≤ (255 : UInt8) && (255 : UInt8) ≤ 250) = false by decide,
      show ((255 : UInt8) == 251) = false by decide,
      show (252 ≤ (255 : UInt8) && (255 : UInt8) ≤ 254) = false by decide,
      show ((255 : UInt8) == 255) = true by decide, ↓reduceIte, Bool.false_eq_true]
    exact (reads_u16 delta).bind ((VerificationType.reads_list locals h.1).bind
      (VerificationType.reads_list stack h.2).bind_pure)

end StackMapFrame

namespace BootstrapEntry

theorem reads_read (b : BootstrapEntry) (h : b.arguments.length < 65536) :
    Reads read b.encode b :=
  (reads_u16 b.method).bind (reads_list h fun i _ => reads_u16 i).bind_pure

end BootstrapEntry

theorem RawInnerClass.reads_read (c : RawInnerClass) : Reads RawInnerClass.read c.encode c := by
  unfold RawInnerClass.read RawInnerClass.encode
  simp only [List.append_assoc]
  exact (reads_u16 _).bind ((reads_u16 _).bind ((reads_u16 _).bind (reads_u16 _).bind_pure))

theorem RawLine.reads_read (l : RawLine) : Reads RawLine.read l.encode l :=
  (reads_u16 _).bind (reads_u16 _).bind_pure

namespace RawElementValue

mutual

/-- Constants have constant tags and nested lists fit their counts. -/
def Fits : RawElementValue → Prop
  | .constant tag _ => isConstantTag tag = true
  | .enum _ _ | .classLiteral _ => True
  | .annotationValue _ pairs => pairs.length < 65536 ∧ FitsPairs pairs
  | .array values => values.length < 65536 ∧ FitsList values

def FitsPairs : List (UInt16 × RawElementValue) → Prop
  | [] => True
  | (_, v) :: rest => Fits v ∧ FitsPairs rest

def FitsList : List RawElementValue → Prop
  | [] => True
  | v :: rest => Fits v ∧ FitsList rest

end

def pairReader (fuel : Nat) : Reader (UInt16 × RawElementValue) := do
  let name ← Reader.u16
  let value ← read fuel
  pure (name, value)

-- each level of nesting takes a byte at least, so a fuel above the length of the bytes suffices
mutual

theorem reads_read : ∀ (v : RawElementValue) (fuel : Nat), v.Fits →
    (encode v).length < fuel → Reads (read fuel) (encode v) v
  | _, 0, _, hfuel => absurd hfuel (Nat.not_lt_zero _)
  | .constant tag index, fuel + 1, h, _ => by
    rw [read, encode]
    refine Reads.u8_bind ?_
    simp only [show isConstantTag tag = true from h, ↓reduceIte]
    exact (reads_u16 index).bind_pure
  | .enum typeName constName, fuel + 1, _, _ => by
    rw [read, encode]
    refine Reads.u8_bind ?_
    simp only [show isConstantTag 101 = false by decide, show ((101 : UInt8) == 101) = true by decide,
      ↓reduceIte, Bool.false_eq_true]
    exact (reads_u16 typeName).bind (reads_u16 constName).bind_pure
  | .classLiteral descriptor, fuel + 1, _, _ => by
    rw [read, encode]
    refine Reads.u8_bind ?_
    simp only [show isConstantTag 99 = false by decide, show ((99 : UInt8) == 101) = false by decide,
      show ((99 : UInt8) == 99) = true by decide, ↓reduceIte, Bool.false_eq_true]
    exact (reads_u16 descriptor).bind_pure
  | .annotationValue typeIndex pairs, fuel + 1, ⟨hlen, hpairs⟩, hfuel => by
    have hinner : (encodePairs pairs).length < fuel := by
      simp only [encode, List.length_cons, List.length_append, BigEndian.length_u16] at hfuel
      omega
    have hp := reads_list_of_times hlen (reads_pairs pairs fuel hpairs hinner)
    rw [read, encode]
    refine Reads.u8_bind ?_
    simp only [show isConstantTag 64 = false by decide, show ((64 : UInt8) == 101) = false by decide,
      show ((64 : UInt8) == 99) = false by decide, show ((64 : UInt8) == 64) = true by decide,
      ↓reduceIte, Bool.false_eq_true]
    exact (reads_u16 typeIndex).bind hp.bind_pure
  | .array values, fuel + 1, ⟨hlen, hvalues⟩, hfuel => by
    have hinner : (encodeList values).length < fuel := by
      simp only [encode, List.length_cons, List.length_append, BigEndian.length_u16] at hfuel
      omega
    have hl := reads_list_of_times hlen (reads_values values fuel hvalues hinner)
    rw [read, encode]
    refine Reads.u8_bind ?_
    simp only [show isConstantTag 91 = false by decide, show ((91 : UInt8) == 101) = false by decide,
      show ((91 : UInt8) == 99) = false by decide, show ((91 : UInt8) == 64) = false by decide,
      show ((91 : UInt8) == 91) = true by decide, ↓reduceIte, Bool.false_eq_true]
    exact hl.bind_pure

theorem reads_pairs : ∀ (pairs : List (UInt16 × RawElementValue)) (fuel : Nat), FitsPairs pairs →
    (encodePairs pairs).length < fuel →
    Reads (times (pairReader fuel) pairs.length) (encodePairs pairs) pairs
  | [], _, _, _ => Reads.pure []
  | (name, v) :: rest, fuel, ⟨hv, hrest⟩, hfuel => by
    simp only [encodePairs, List.length_append, BigEndian.length_u16] at hfuel
    have hpair : Reads (pairReader fuel) (BigEndian.u16 name ++ encode v) (name, v) :=
      (reads_u16 name).bind ((reads_read v fuel hv (by omega)).bind_pure (g := (name, ·)))
    have hmore := reads_pairs rest fuel hrest (by omega)
    rw [encodePairs, List.append_assoc]
    exact (hpair.bind (hmore.bind_pure (g := ((name, v) :: ·)))).of_bytes (by simp)

theorem reads_values : ∀ (values : List RawElementValue) (fuel : Nat), FitsList values →
    (encodeList values).length < fuel →
    Reads (times (read fuel) values.length) (encodeList values) values
  | [], _, _, _ => Reads.pure []
  | v :: rest, fuel, ⟨hv, hrest⟩, hfuel => by
    simp only [encodeList, List.length_append] at hfuel
    have hvalue := reads_read v fuel hv (by omega)
    have hmore := reads_values rest fuel hrest (by omega)
    exact hvalue.bind (hmore.bind_pure (g := (v :: ·)))

end

end RawElementValue

end ClassPatch
