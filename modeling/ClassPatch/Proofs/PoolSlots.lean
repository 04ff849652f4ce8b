import ClassPatch.Proofs.Interning
import ClassPatch.Proofs.InstructionStream

/-!
The slots of a constant pool. Pushing an entry gives it the next free index and moves that index
on by the entry's width, so the indices that pushes give are the running sums of the widths from
1, and a pool read from a class file is the pool of pushes of the entries it holds. Looking an
index up finds the entry whose push gave it and nothing else: not index 0, not the slot after a
long or a double, not an index past the end. Interning pushes only what fits below 65535, so a
pool built by interning never outgrows the 16-bit indices, and each index it gives and its count
are exact.
-/

namespace ClassPatch

theorem Reader.Yields.bind_of {α β : Type} {P : β → Prop} {Q : α → Prop} {x : Reader α}
    {f : α → Reader β} (hx : Yields Q x) (hf : ∀ a, Q a → Yields P (f a)) :
    Yields P (x >>= f) := by
  refine ⟨fun input b rest h => ?_⟩
  change (x input >>= fun p => f p.1 p.2) = _ at h
  cases hxi : x input with
  | error e => rw [hxi] at h; cases h
  | ok p =>
    rw [hxi] at h
    exact (hf p.1 (hx.holds input p.1 p.2 hxi)).holds p.2 b rest h

namespace Pool

section Pushes

/-- Pushes the entries in order: the index each push gives, and the pool after them. -/
def pushAll (p : Pool) : List PoolEntry → List Nat × Pool
  | [] => ([], p)
  | e :: es => ((p.push e).1 :: (pushAll (p.push e).2 es).1, (pushAll (p.push e).2 es).2)

theorem pushAll_eq (p : Pool) (es : List PoolEntry) :
    pushAll p es = ((slots p.next es).map (·.1),
      { entries := p.entries ++ slots p.next es,
        next := p.next + (es.map PoolEntry.width).sum }) := by
  induction es generalizing p with
  | nil => cases p; simp [pushAll, slots]
  | cons e es ih =>
    simp only [pushAll, ih, slots, push_fst, push_entries, push_next, List.map_cons,
      List.sum_cons, List.append_assoc, List.singleton_append, Nat.add_assoc]

theorem pushAll_empty (es : List PoolEntry) :
    pushAll {} es = ((slots 1 es).map (·.1), ofEntries es) := by
  rw [pushAll_eq]
  rfl

theorem zip_slots (i : Nat) (es : List PoolEntry) : ((slots i es).map (·.1)).zip es = slots i es := by
  induction es generalizing i with
  | nil => rfl
  | cons e es ih => simp [slots, ih]

theorem push_ofEntries (es : List PoolEntry) (e : PoolEntry) :
    ((ofEntries es).push e).2 = ofEntries (es ++ [e]) := by
  simp only [ofEntries, Pool.push, slots_append, List.map_append, List.map_cons, List.map_nil,
    List.sum_append, List.sum_cons, List.sum_nil, Nat.add_zero, Nat.add_assoc]

theorem slot_eq_of_mem {i j j' : Nat} {es : List PoolEntry} {e e' : PoolEntry}
    (h : (j, e) ∈ slots i es) (h' : (j', e') ∈ slots i es) (hle : j ≤ j') (hlt : j' < j + e.width) :
    j' = j ∧ e' = e := by
  induction es generalizing i with
  | nil => exact absurd h List.not_mem_nil
  | cons e₀ es ih =>
    have hwidth := e₀.width_pos
    rw [slots, List.mem_cons] at h h'
    rcases h with h | h <;> rcases h' with h' | h'
    · obtain ⟨rfl, rfl⟩ := Prod.mk.inj h
      obtain ⟨rfl, rfl⟩ := Prod.mk.inj h'
      exact ⟨rfl, rfl⟩
    · -- the later entries start past the first one
      obtain ⟨rfl, rfl⟩ := Prod.mk.inj h
      have := mem_slots h'
      omega
    · obtain ⟨rfl, rfl⟩ := Prod.mk.inj h'
      have := mem_slots h
      omega
    · exact ih h h'

end Pushes

section Lookup

variable {es : List PoolEntry}

theorem getOffset?_ofEntries {offset : Nat} {e : PoolEntry} :
    (ofEntries es).getOffset? offset = some e ↔ (offset, e) ∈ slots 1 es :=
  getOffset?_eq_some_iff (pairwise_slots 1 es)

theorem getOffset?_ofEntries_zero : (ofEntries es).getOffset? 0 = none := by
  refine Option.eq_none_iff_forall_ne_some.mpr fun e he => ?_
  have := mem_slots (getOffset?_ofEntries.mp he)
  omega

theorem getOffset?_ofEntries_of_next_le {offset : Nat} (h : (ofEntries es).next ≤ offset) :
    (ofEntries es).getOffset? offset = none := by
  refine Option.eq_none_iff_forall_ne_some.mpr fun e he => ?_
  have := mem_slots (getOffset?_ofEntries.mp he)
  have := e.width_pos
  simp only [ofEntries] at h
  omega

theorem getOffset?_ofEntries_second {o : Nat} {e : PoolEntry} (h : (o, e) ∈ slots 1 es)
    (hwide : e.width = 2) : (ofEntries es).getOffset? (o + 1) = none := by
  refine Option.eq_none_iff_forall_ne_some.mpr fun e' he' => ?_
  have := (slot_eq_of_mem h (getOffset?_ofEntries.mp he') (by omega) (by omega)).1
  omega

end Lookup

section Reading

theorem readEntries_slots (count fuel index : Nat) :
    Reader.Yields (fun l => l = slots index (l.map (·.2))) (readEntries count fuel index) := by
  induction fuel generalizing index with
  | zero => exact Reader.Yields.pure rfl
  | succ fuel ih =>
    unfold readEntries
    -- each entry read is pushed at the index reached so far
    refine Reader.Yields.ite (Reader.Yields.bind fun e => (ih _).bind_of fun more hmore => ?_)
      (Reader.Yields.pure rfl)
    refine Reader.Yields.pure ?_
    simp only [List.map_cons, slots]
    rw [← hmore]

theorem ofEntries_of_slots {l : List (Nat × PoolEntry)} {es : List PoolEntry}
    (h : l = slots 1 es) : ({ entries := l, next := nextAfter l } : Pool) = ofEntries es := by
  subst h
  cases es with
  | nil => rfl
  | cons e es =>
    rw [ofEntries, nextAfter_slots 1 _ (List.cons_ne_nil e es)]

theorem read_slots : Reader.Yields (fun p => p = ofEntries (p.entries.map (·.2))) read :=
  Reader.Yields.bind fun _ => (readEntries_slots _ _ _).bind_of fun _ hl =>
    Reader.Yields.pure (ofEntries_of_slots hl)

end Reading

section Interning

/-- The pools that interning builds from the fresh pool, one entry at a time. -/
inductive Interned : Pool → Prop
  | empty : Interned {}
  | intern {p q : Pool} {e : PoolEntry} {i : UInt16} : Interned p → p.intern e = .ok (i, q) →
      Interned q

theorem intern_eq_ok {p q : Pool} {e : PoolEntry} {i : UInt16} (h : p.intern e = .ok (i, q)) :
    (q = p ∧ ∃ j, (j, e) ∈ p.entries ∧ i = j.toUInt16) ∨
      (p.next + e.width ≤ 65535 ∧ q = (p.push e).2 ∧ i = p.next.toUInt16) := by
  unfold intern pushConstant at h
  cases hfind : p.entries.find? (·.2 == e) with
  | some x =>
    obtain ⟨j, e'⟩ := x
    have he' : e' = e := by simpa using List.find?_some hfind
    subst he'
    simp only [hfind, Except.ok.injEq, Prod.mk.injEq] at h
    obtain ⟨rfl, rfl⟩ := h
    exact Or.inl ⟨rfl, j, List.mem_of_find?_eq_some hfind, rfl⟩
  | none =>
    by_cases hfit : p.next + e.width > 65535
    · simp [hfind, hfit] at h
    · simp only [hfind, hfit, if_false, Except.ok.injEq, Prod.mk.injEq, push_fst] at h
      obtain ⟨rfl, rfl⟩ := h
      exact Or.inr ⟨by omega, rfl, rfl⟩

theorem Interned.laid {p : Pool} (h : Interned p) : ∃ es, p = ofEntries es ∧ p.next ≤ 65535 := by
  induction h with
  | empty => exact ⟨[], rfl, by decide⟩
  | intern _ hi ih =>
    obtain ⟨es, rfl, hnext⟩ := ih
    rcases intern_eq_ok hi with ⟨rfl, -⟩ | ⟨hfit, rfl, -⟩
    · exact ⟨es, rfl, hnext⟩
    · exact ⟨_, push_ofEntries es _, by simpa using hfit⟩

theorem Interned.toNat_toUInt16 {p : Pool} (h : Interned p) {j : Nat} {e : PoolEntry}
    (hj : (j, e) ∈ p.entries) : j.toUInt16.toNat = j := by
  obtain ⟨es, rfl, hnext⟩ := h.laid
  have := mem_slots hj
  simp only [ofEntries] at hnext
  exact UInt16.toNat_ofNat_of_lt' (show j < 65536 by omega)

theorem Interned.intern_index {p q : Pool} {e : PoolEntry} {i : UInt16} (hp : Interned p)
    (h : p.intern e = .ok (i, q)) : (i.toNat, e) ∈ q.entries ∧ q.get? i = some e := by
  have hq : Interned q := .intern hp h
  have hmem : (i.toNat, e) ∈ q.entries := by
    rcases intern_eq_ok h with ⟨rfl, j, hj, rfl⟩ | ⟨hfit, rfl, rfl⟩
    · rwa [hp.toNat_toUInt16 hj]
    · have hindex : p.next.toUInt16.toNat = p.next :=
        UInt16.toNat_ofNat_of_lt' (show p.next < 65536 by omega)
      simp [hindex]
  obtain ⟨es, rfl, -⟩ := hq.laid
  exact ⟨hmem, (get?_eq_some_iff (pairwise_slots 1 es)).mpr hmem⟩

end Interning

/-- Lookup by index in a pool is exact, and interning keeps indices within 16 bits. Pushing
entries onto the fresh pool makes the next free index 1 plus the sum of their widths, and an
offset finds an entry exactly when that entry's push gave the offset, so index 0, the slot after
a long or a double and every offset from the next free index on find nothing. A pool read from a
class file is the pool of pushes of its entries. A pool built by interning never passes index
65535, so its count and every index interning gives are exact, and each given index finds its
entry. -/
theorem slots_exact :
    (∀ (es : List PoolEntry) (offsets : List Nat) (p : Pool), pushAll {} es = (offsets, p) →
      p.next = 1 + (es.map PoolEntry.width).sum ∧
      (∀ offset e, p.getOffset? offset = some e ↔ (offset, e) ∈ offsets.zip es) ∧
      p.getOffset? 0 = none ∧
      (∀ o e, (o, e) ∈ offsets.zip es → e.width = 2 → p.getOffset? (o + 1) = none) ∧
      ∀ offset, p.next ≤ offset → p.getOffset? offset = none) ∧
    (∀ (bytes rest : List UInt8) (p : Pool), read.run bytes = .ok (p, rest) →
      pushAll {} (p.entries.map (·.2)) = (p.entries.map (·.1), p)) ∧
    ∀ p : Pool, Interned p → p.next ≤ 65535 ∧ p.next.toUInt16.toNat = p.next ∧
      ∀ e i q, p.intern e = .ok (i, q) → (i.toNat, e) ∈ q.entries ∧ q.get? i = some e := by
  refine ⟨fun es offsets p h => ?_, fun bytes rest p h => ?_, fun p hp => ?_⟩
  · rw [pushAll_empty, Prod.mk.injEq] at h
    obtain ⟨rfl, rfl⟩ := h
    rw [zip_slots]
    exact ⟨rfl, fun _ _ => getOffset?_ofEntries, getOffset?_ofEntries_zero,
      fun _ _ ho hwide => getOffset?_ofEntries_second ho hwide,
      fun _ hle => getOffset?_ofEntries_of_next_le hle⟩
  · -- the pool is laid out by its own entries, whose first slots are the indices pushes give
    have hpushed : ∀ es, p = ofEntries es → pushAll {} es = (p.entries.map (·.1), p) := by
      intro es hes
      subst hes
      exact pushAll_empty es
    exact hpushed _ (read_slots.holds bytes p rest h)
  · obtain ⟨_, -, hnext⟩ := hp.laid
    exact ⟨hnext, UInt16.toNat_ofNat_of_lt' (show p.next < 65536 by omega),
      fun _ _ _ h => hp.intern_index h⟩

theorem slots_exact_longBetween :
    pushAll {} [.integer 7, .long 7, .integer 8] =
        ([1, 2, 4], ofEntries [.integer 7, .long 7, .integer 8]) ∧
      (ofEntries [.integer 7, .long 7, .integer 8]).getOffset? 3 = none ∧
      Interned (ofEntries [.integer 7, .long 7, .integer 8]) ∧
      (ofEntries [.integer 7, .long 7, .integer 8]).intern (.long 7) =
        .ok (2, ofEntries [.integer 7, .long 7, .integer 8]) ∧
      (ofEntries [.integer 7, .long 7, .integer 8]).get? 2 = some (.long 7) := by
  have hpush : pushAll {} [.integer 7, .long 7, .integer 8] =
      ([1, 2, 4], ofEntries [.integer 7, .long 7, .integer 8]) := rfl
  have h₁ : ({} : Pool).intern (.integer 7) = .ok (1, ofEntries [.integer 7]) := rfl
  have h₂ : (ofEntries [.integer 7]).intern (.long 7) = .ok (2, ofEntries [.integer 7, .long 7]) :=
    rfl
  have h₃ : (ofEntries [.integer 7, .long 7]).intern (.integer 8) =
      .ok (4, ofEntries [.integer 7, .long 7, .integer 8]) := rfl
  have hinterned : Interned (ofEntries [.integer 7, .long 7, .integer 8]) :=
    .intern (.intern (.intern .empty h₁) h₂) h₃
  have hagain : (ofEntries [.integer 7, .long 7, .integer 8]).intern (.long 7) =
      .ok (2, ofEntries [.integer 7, .long 7, .integer 8]) := rfl
  exact ⟨hpush, (slots_exact.1 _ _ _ hpush).2.2.2.1 2 (.long 7) (by decide) rfl, hinterned, hagain,
    ((slots_exact.2.2 _ hinterned).2.2 _ _ _ hagain).2⟩

end Pool

end ClassPatch
