import Mathlib.Data.List.Nodup
import Mathlib.Data.List.Sort
import ClassPatch.Delta.Apply

namespace ClassPatch.ClassMap

variable {m : ClassMap} {n k : String} {c d : ClassModel}

theorem names_nodup (m : ClassMap) : m.names.Nodup :=
  (List.pairwise_map.mpr m.sorted).imp String.ne_of_lt

theorem eq_of_mem_entries (hc : (n, c) ∈ m.entries) (hd : (n, d) ∈ m.entries) : c = d := by
  have := List.inj_on_of_nodup_map m.names_nodup hc hd rfl
  simp_all

theorem mem_entries_of_get? (h : m.get? n = some c) : (n, c) ∈ m.entries := by
  obtain ⟨l₁, l₂, he, -⟩ := List.lookup_eq_some_iff.mp h
  simp [he]

theorem get?_eq_some_iff : m.get? n = some c ↔ (n, c) ∈ m.entries := by
  refine ⟨mem_entries_of_get?, fun h => ?_⟩
  obtain ⟨d, hd⟩ : ∃ d, m.get? n = some d :=
    Option.isSome_iff_exists.mp (List.lookup_isSome_iff.mpr ⟨_, h, by simp⟩)
  rw [hd, eq_of_mem_entries h (mem_entries_of_get? hd)]

theorem contains_iff_mem_names : m.contains n = true ↔ n ∈ m.names := by
  simp [contains, get?, names]

theorem lookup_insertEntry (es : List (String × ClassModel)) :
    (insertEntry n c es).lookup k = if k = n then some c else es.lookup k := by
  induction es with
  | nil => by_cases hk : k = n <;> simp [insertEntry, hk]
  | cons p es ih =>
    obtain ⟨a, b⟩ := p
    simp only [insertEntry]
    split
    · by_cases hk : k = n <;> simp [List.lookup_cons, Bool.beq_eq_decide_eq, hk]
    · split
      · next h => subst h; by_cases hk : k = n <;> simp [List.lookup_cons, Bool.beq_eq_decide_eq, hk]
      · next hne =>
        by_cases hk : k = a
        · subst hk; simp [Ne.symm hne]
        · simp [List.lookup_cons, Bool.beq_eq_decide_eq, hk, ih]

theorem lookup_filter_ne {β : Type} (es : List (String × β)) :
    (es.filter (·.1 != n)).lookup k = if k = n then none else es.lookup k := by
  induction es with
  | nil => simp
  | cons p es ih =>
    obtain ⟨a, b⟩ := p
    by_cases ha : a = n
    · rw [List.filter_cons_of_neg (by simp [ha]), ih]
      by_cases hk : k = n <;> simp [hk, ha, List.lookup_cons, Bool.beq_eq_decide_eq]
    · by_cases hk : k = a
      · subst hk; simp [ha]
      · simp [ha, List.lookup_cons, Bool.beq_eq_decide_eq, hk, ih]

@[simp] theorem get?_insert : (m.insert n c).get? k = if k = n then some c else m.get? k :=
  lookup_insertEntry m.entries

@[simp] theorem get?_erase : (m.erase n).get? k = if k = n then none else m.get? k :=
  lookup_filter_ne m.entries

theorem ext_entries {m m' : ClassMap} (h : m.entries = m'.entries) : m = m' := by
  cases m
  cases m'
  simp_all

theorem insertEntry_insertEntry (es : List (String × ClassModel)) :
    insertEntry n d (insertEntry n c es) = insertEntry n d es := by
  induction es with
  | nil => simp [insertEntry]
  | cons p es ih =>
    obtain ⟨a, b⟩ := p
    simp only [insertEntry]
    split
    · simp [insertEntry, *]
    · split
      · simp [insertEntry]
      · simp [insertEntry, *]

theorem insertEntry_of_mem {es : List (String × ClassModel)}
    (hs : es.Pairwise (fun a b => a.1 < b.1)) (h : (n, c) ∈ es) : insertEntry n c es = es := by
  induction es with
  | nil => simp at h
  | cons p es ih =>
    obtain ⟨a, b⟩ := p
    rw [List.pairwise_cons] at hs
    simp only [List.mem_cons, Prod.mk.injEq] at h
    simp only [insertEntry]
    split
    · next hlt =>
      rcases h with ⟨rfl, -⟩ | h
      · exact absurd hlt (String.lt_irrefl _)
      · exact absurd (String.lt_trans hlt (hs.1 _ h)) (String.lt_irrefl _)
    · split
      · next heq =>
        subst heq
        rcases h with ⟨-, rfl⟩ | h
        · rfl
        · exact absurd (hs.1 _ h) (String.lt_irrefl _)
      · next hne =>
        rcases h with ⟨rfl, -⟩ | h
        · exact absurd rfl hne
        · rw [ih hs.2 h]

@[simp] theorem insert_insert : (m.insert n c).insert n d = m.insert n d :=
  ext_entries (insertEntry_insertEntry m.entries)

theorem insert_of_get? (h : m.get? n = some c) : m.insert n c = m :=
  ext_entries (insertEntry_of_mem m.sorted (get?_eq_some_iff.mp h))

theorem mem_names_iff_get? : n ∈ m.names ↔ ∃ c, m.get? n = some c := by
  simp [names, get?_eq_some_iff]

-- Names are held in order, so two maps that hold the same names list them alike.
theorem names_eq_of_mem_iff {m' : ClassMap} (h : ∀ n, n ∈ m.names ↔ n ∈ m'.names) :
    m.names = m'.names :=
  List.Pairwise.eq_of_mem_iff (List.pairwise_map.mpr m.sorted) (List.pairwise_map.mpr m'.sorted) h

end ClassPatch.ClassMap
