import Mathlib.Data.List.Nodup
import ClassPatch.Delta.Compare
import ClassPatch.Proofs.Monad

namespace ClassPatch

section Find

variable {α κ : Type} [BEq κ] [LawfulBEq κ] {key : α → κ} {k : κ} {a b : α} {xs : List α}

theorem findLast?_mem {p : α → Bool} (h : findLast? p xs = some a) : a ∈ xs ∧ p a = true := by
  have := List.find?_some h
  exact ⟨List.mem_reverse.mp (List.mem_of_find?_eq_some h), this⟩

theorem findLast?_key_isSome : (findLast? (key · == k) xs).isSome ↔ ∃ b ∈ xs, key b = k := by
  simp [findLast?, List.find?_isSome]

theorem findLast?_key_eq_some (hxs : (xs.map key).Nodup) :
    findLast? (key · == k) xs = some b ↔ b ∈ xs ∧ key b = k := by
  refine ⟨fun h => by simpa using findLast?_mem h, fun ⟨hb, hk⟩ => ?_⟩
  obtain ⟨b', hb'⟩ := Option.isSome_iff_exists.mp (findLast?_key_isSome.mpr ⟨b, hb, hk⟩)
  obtain ⟨hm, hk'⟩ := findLast?_mem hb'
  rw [hb', List.inj_on_of_nodup_map hxs hm hb (by simpa [hk] using hk')]

variable {compare : α → α → List Difference} {new : List α}

theorem memberChanges_eq (hnew : (new.map key).Nodup) (hb : b ∈ new) (hk : key b = key a) :
    memberChanges key compare new a = compare a b := by
  simp [memberChanges, (findLast?_key_eq_some hnew).mpr ⟨hb, hk⟩]

theorem memberChanges_eq_nil (hnew : (new.map key).Nodup) :
    memberChanges key compare new a = [] ↔ ∀ b ∈ new, key b = key a → compare a b = [] := by
  refine ⟨fun h b hb hk => (memberChanges_eq hnew hb hk).symm.trans h, fun h => ?_⟩
  unfold memberChanges
  split
  · next b hb =>
    obtain ⟨hm, hk⟩ := (findLast?_key_eq_some hnew).mp hb
    exact h b hm hk
  · rfl

omit [LawfulBEq κ] in
theorem forall_mem_memberDifferences {removed added : α → Difference} {old : List α}
    {P : Difference → Prop} (hr : ∀ a, P (removed a)) (ha : ∀ b, P (added b))
    (hc : ∀ a b, ∀ d ∈ compare a b, P d) :
    ∀ d ∈ memberDifferences key removed added compare old new, P d := by
  intro d hd
  simp only [memberDifferences, List.mem_append, List.mem_map, List.mem_flatMap] at hd
  rcases hd with (⟨a, -, rfl⟩ | ⟨b, -, rfl⟩) | ⟨a, -, hd⟩
  · exact hr a
  · exact ha b
  · unfold memberChanges at hd
    split at hd
    · exact hc _ _ d hd
    · simp at hd

end Find

section Keyed

variable {α κ : Type} [BEq κ] [LawfulBEq κ] {key : α → κ} {a b : α} {l : List α}

theorem filter_key_ne_of_not_mem (h : ∀ y ∈ l, key y ≠ key a) :
    l.filter (key · != key a) = l :=
  List.filter_eq_self.mpr fun y hy => by simpa using h y hy

theorem eraseFirst_key (hnd : (l.map key).Nodup) (ha : a ∈ l) :
    eraseFirst (key · == key a) l = some (l.filter (key · != key a)) := by
  induction l with
  | nil => simp at ha
  | cons y l ih =>
    rw [List.map_cons, List.nodup_cons] at hnd
    by_cases hy : key y = key a
    · have hl : ∀ z ∈ l, key z ≠ key a := fun z hz h =>
        hnd.1 (hy ▸ h ▸ List.mem_map_of_mem hz)
      simp [eraseFirst, hy, filter_key_ne_of_not_mem hl]
    · have ha' : a ∈ l := (List.mem_cons.mp ha).resolve_left fun h => hy (h ▸ rfl)
      simp [eraseFirst, hy, ih hnd.2 ha']

theorem replaceFirst_key {k : κ} (hnd : (l.map key).Nodup) (ha : a ∈ l) (hk : key a = k)
    (f : α → α) :
    replaceFirst (key · == k) f l = some (l.map fun y => if key y == k then f y else y) := by
  subst hk
  induction l with
  | nil => simp at ha
  | cons y l ih =>
    rw [List.map_cons, List.nodup_cons] at hnd
    by_cases hy : key y = key a
    · have hl : ∀ z ∈ l, key z ≠ key a := fun z hz h =>
        hnd.1 (hy ▸ h ▸ List.mem_map_of_mem hz)
      have : l.map (fun y => if key y == key a then f y else y) = l :=
        (List.map_congr_left fun z hz => by simp [hl z hz]).trans (List.map_id l)
      simp [replaceFirst, hy, this]
    · have ha' : a ∈ l := (List.mem_cons.mp ha).resolve_left fun h => hy (h ▸ rfl)
      simp [replaceFirst, hy, ih hnd.2 ha']

theorem replaceFirst_eq_none {k : κ} (h : ∀ y ∈ l, key y ≠ k) (f : α → α) :
    replaceFirst (key · == k) f l = none := by
  induction l with
  | nil => rfl
  | cons y l ih =>
    have hy := h y List.mem_cons_self
    simp [replaceFirst, hy, ih fun z hz => h z (List.mem_cons_of_mem y hz)]

omit [BEq κ] [LawfulBEq κ] in
theorem key_ne_of_nodup_middle {l₁ l₂ : List α} {y : α} (hnd : ((l₁ ++ a :: l₂).map key).Nodup)
    (hy : y ∈ l₁ ++ l₂) : key y ≠ key a := by
  rw [List.map_append, List.map_cons, List.nodup_middle, List.nodup_cons, ← List.map_append] at hnd
  exact fun he => hnd.1 (he ▸ List.mem_map_of_mem hy)

-- The list with each member of key `k` replaced by `v`.
def replaceKey (key : α → κ) (k : κ) (v : α) (l : List α) : List α :=
  l.map fun y => if key y == k then v else y

theorem replaceKey_of_forall_ne {k : κ} (h : ∀ y ∈ l, key y ≠ k) (v : α) :
    replaceKey key k v l = l :=
  (List.map_congr_left fun z hz => by simp [h z hz]).trans (List.map_id l)

theorem replaceKey_self (hnd : (l.map key).Nodup) (ha : a ∈ l) : replaceKey key (key a) a l = l :=
  (List.map_congr_left fun z hz => by
    by_cases hk : key z = key a
    · simp [List.inj_on_of_nodup_map hnd hz ha hk]
    · simp [hk]).trans (List.map_id l)

theorem map_key_replaceKey {k : κ} {v : α} (hv : key v = k) :
    (replaceKey key k v l).map key = l.map key := by
  simp only [replaceKey, List.map_map]
  apply List.map_congr_left
  intro y _
  by_cases hy : key y = k <;> simp [hy, hv]

theorem mem_replaceKey {k : κ} (ha : a ∈ l) (hk : key a = k) (v : α) : v ∈ replaceKey key k v l :=
  List.mem_map.mpr ⟨a, ha, by simp [hk]⟩

-- Changing the member of a key, after it was replaced by `v`, replaces it by the changed `v`.
theorem replaceFirst_replaceKey {v : α} (hnd : (l.map key).Nodup) (ha : a ∈ l)
    (hv : key v = key a) (f : α → α) :
    replaceFirst (key · == key a) f (replaceKey key (key a) v l) =
      some (replaceKey key (key a) (f v) l) := by
  rw [replaceFirst_key (by rwa [map_key_replaceKey hv]) (mem_replaceKey ha rfl v) hv]
  simp only [replaceKey, List.map_map, Option.some.injEq]
  apply List.map_congr_left
  intro y _
  by_cases hy : key y = key a <;> simp [hy, hv]

theorem filter_not_any_unmatched {old new : List α} (hnd : (old.map key).Nodup) :
    (old.filter fun y => !(old.filter fun a => !new.any (key · == key a)).any (key · == key y)) =
      old.filter fun a => new.any (key · == key a) := by
  apply List.filter_congr
  intro y hy
  cases hny : new.any (key · == key y)
  · -- y itself is unmatched, so it is among the removed members
    simp only [Bool.not_eq_eq_eq_not, Bool.not_false, List.any_eq_true, List.mem_filter]
    exact ⟨y, ⟨hy, by simp [hny]⟩, by simp⟩
  · -- the only old member with y's key is y, which stays
    simp only [Bool.not_eq_eq_eq_not, Bool.not_true, List.any_eq_false, List.mem_filter]
    rintro z ⟨hz, hzn⟩ hk
    have : z = y := List.inj_on_of_nodup_map hnd hz hy (by simpa using hk)
    obtain ⟨w, hw, hwk⟩ := List.any_eq_true.mp hny
    simp only [this] at hzn
    exact hzn w hw (by simpa using hwk)

end Keyed

section Replay

variable {α κ C : Type} [BEq κ] [LawfulBEq κ] {key : α → κ}

-- The members that replaying member differences leaves: each old member whose key stays,
-- patched against the new member of its key, then the new members whose keys are new.
def rebuiltMembers (key : α → κ) (patch : α → α → α) (old new : List α) : List α :=
  old.filterMap (fun a => (findLast? (key · == key a) new).map (patch a)) ++
    new.filter fun b => !old.any (key · == key b)

variable {patch : α → α → α} {old new : List α} {y : α}

-- A rebuilt member is a new member, or an old one patched against the new member of its key.
theorem mem_rebuiltMembers (hy : y ∈ rebuiltMembers key patch old new) :
    ∃ b ∈ new, y = b ∨ ∃ a ∈ old, key a = key b ∧ y = patch a b := by
  rcases List.mem_append.mp hy with hy | hy
  · obtain ⟨a, ha, hab⟩ := List.mem_filterMap.mp hy
    obtain ⟨b, hb, rfl⟩ := Option.map_eq_some_iff.mp hab
    obtain ⟨hbm, hk⟩ := findLast?_mem hb
    exact ⟨b, hbm, .inr ⟨a, ha, (by simpa using hk : key b = key a).symm, rfl⟩⟩
  · exact ⟨y, (List.mem_filter.mp hy).1, .inl rfl⟩

-- Rebuilding keeps exactly the keys of the new members.
theorem mem_map_key_rebuiltMembers (hpatch : ∀ a b, key a = key b → key (patch a b) = key a)
    {k : κ} : k ∈ (rebuiltMembers key patch old new).map key ↔ k ∈ new.map key := by
  constructor
  · simp only [List.mem_map]
    rintro ⟨y, hy, rfl⟩
    obtain ⟨b, hb, rfl | ⟨a, -, hk, rfl⟩⟩ := mem_rebuiltMembers hy
    · exact ⟨y, hb, rfl⟩
    · exact ⟨b, hb, by rw [hpatch a b hk, hk]⟩
  · simp only [List.mem_map]
    rintro ⟨b, hb, rfl⟩
    by_cases hold : ∃ a ∈ old, key a = key b
    · -- an old member of the key is patched against the last new member of that key
      obtain ⟨a, ha, hk⟩ := hold
      obtain ⟨b', hb'⟩ := Option.isSome_iff_exists.mp
        (findLast?_key_isSome.mpr ⟨b, hb, hk.symm⟩ : (findLast? (key · == key a) new).isSome)
      refine ⟨patch a b', List.mem_append_left _ (List.mem_filterMap.mpr ⟨a, ha, by simp [hb']⟩), ?_⟩
      have hk' : key b' = key a := by simpa using (findLast?_mem hb').2
      rw [hpatch a b' hk'.symm, hk]
    · push Not at hold
      refine ⟨b, List.mem_append_right _ (List.mem_filter.mpr ⟨hb, ?_⟩), rfl⟩
      simpa using fun a ha => hold a ha

-- How the differences of one kind of member act on a class, seen through the list `get` of
-- those members: a removal drops the member of its key, an addition appends, and the changes of an
-- old member against its new version `b` turn it into `patch a b`.
structure MemberSteps (key : α → κ) (get : C → List α) (set : C → List α → C)
    (step : Difference → C → Except PatchError C) (removed added : α → Difference)
    (compare : α → α → List Difference) (patch : α → α → α) : Prop where
  get_set : ∀ x l, get (set x l) = l
  set_set : ∀ x l l', set (set x l) l' = set x l'
  set_get : ∀ x, set x (get x) = x
  step_removed : ∀ x a, a ∈ get x → ((get x).map key).Nodup →
    step (removed a) x = .ok (set x ((get x).filter (key · != key a)))
  step_added : ∀ x b, (∀ y ∈ get x, key y ≠ key b) →
    step (added b) x = .ok (set x (get x ++ [b]))
  key_patch : ∀ a b, key a = key b → key (patch a b) = key a
  replay_compare : ∀ x a b, key a = key b → a ∈ get x → ((get x).map key).Nodup →
    (compare a b).foldlM (fun x d => step d x) x =
      .ok (set x (replaceKey key (key a) (patch a b) (get x)))

namespace MemberSteps

variable {get : C → List α} {set : C → List α → C} {step : Difference → C → Except PatchError C}
  {removed added : α → Difference} {compare : α → α → List Difference}
  (h : MemberSteps key get set step removed added compare patch)
include h

theorem replay_removed (rs : List α) (x : C) (hrs : ∀ a ∈ rs, a ∈ get x)
    (hnd : ((get x).map key).Nodup) (hrsnd : (rs.map key).Nodup) :
    (rs.map removed).foldlM (fun x d => step d x) x =
      .ok (set x ((get x).filter fun y => !rs.any (key · == key y))) := by
  induction rs generalizing x with
  | nil => simp [h.set_get]
  | cons a rs ih =>
    rw [List.map_cons, List.nodup_cons] at hrsnd
    have hx := h.step_removed x a (hrs a List.mem_cons_self) hnd
    simp only [List.map_cons, List.foldlM_cons, hx, Except.ok_bind]
    rw [ih _ ?_ ?_ hrsnd.2, h.get_set, h.set_set, List.filter_filter]
    · congr 2
      apply List.filter_congr
      intro y _
      simp [List.any_cons, bne, BEq.comm (a := key a), Bool.and_comm]
    · intro a' ha'
      have hne : key a' ≠ key a := fun he => hrsnd.1 (he ▸ List.mem_map_of_mem ha')
      simpa [h.get_set, hne] using hrs a' (List.mem_cons_of_mem _ ha')
    · rw [h.get_set]
      exact hnd.sublist (List.filter_sublist.map key)

omit [LawfulBEq κ] in
theorem replay_added (bs : List α) (x : C) (hbs : ∀ b ∈ bs, ∀ y ∈ get x, key y ≠ key b)
    (hbsnd : (bs.map key).Nodup) :
    (bs.map added).foldlM (fun x d => step d x) x = .ok (set x (get x ++ bs)) := by
  induction bs generalizing x with
  | nil => simp [h.set_get]
  | cons b bs ih =>
    rw [List.map_cons, List.nodup_cons] at hbsnd
    have hx := h.step_added x b (hbs b List.mem_cons_self)
    simp only [List.map_cons, List.foldlM_cons, hx, Except.ok_bind]
    rw [ih _ ?_ hbsnd.2, h.get_set, h.set_set, List.append_assoc, List.singleton_append]
    intro b' hb' y hy
    rw [h.get_set, List.mem_append, List.mem_singleton] at hy
    rcases hy with hy | rfl
    · exact hbs b' (List.mem_cons_of_mem _ hb') y hy
    · exact fun he => hbsnd.1 (he ▸ List.mem_map_of_mem hb')

theorem replay_changes {new : List α} (hnew : (new.map key).Nodup) (as : List α) :
    ∀ (done rest : List α) (x : C),
      get x = done ++ as.filter (fun a => new.any (key · == key a)) ++ rest →
      ((get x).map key).Nodup →
      (as.flatMap (memberChanges key compare new)).foldlM (fun x d => step d x) x =
        .ok (set x (done ++ as.filterMap (fun a => (findLast? (key · == key a) new).map (patch a)) ++
          rest)) := by
  induction as with
  | nil =>
    intro done rest x hx _
    simp only [List.filter_nil, List.append_nil] at hx
    simp only [List.flatMap_nil, List.foldlM_nil, List.filterMap_nil, List.append_nil, ← hx,
      h.set_get]
    rfl
  | cons a as ih =>
    intro done rest x hx hnd
    rw [List.flatMap_cons, List.foldlM_append]
    by_cases ha : new.any (key · == key a)
    · obtain ⟨b, hb, hk⟩ : ∃ b ∈ new, key b = key a := by simpa using ha
      have hlast := (findLast?_key_eq_some hnew).mpr ⟨hb, hk⟩
      have hx' : get x = done ++ a :: (as.filter (fun a => new.any (key · == key a)) ++ rest) := by
        simp [hx, ha]
      rw [hx'] at hnd
      have hkeys := fun y (hy : y ∈ done ++ (as.filter (fun a => new.any (key · == key a)) ++
        rest)) => key_ne_of_nodup_middle hnd hy
      rw [memberChanges_eq hnew hb hk, h.replay_compare x a b hk.symm (by simp [hx']) (hx' ▸ hnd),
        Except.ok_bind]
      have hmap : replaceKey key (key a) (patch a b) (get x) =
          done ++ [patch a b] ++ (as.filter (fun a => new.any (key · == key a)) ++ rest) := by
        rw [hx', replaceKey, List.map_append, List.map_cons, ← replaceKey, ← replaceKey,
          replaceKey_of_forall_ne fun y hy => hkeys y (List.mem_append_left _ hy),
          replaceKey_of_forall_ne fun y hy => hkeys y (List.mem_append_right _ hy)]
        simp
      have hnd' : ((get (set x (done ++ [patch a b] ++
          (as.filter (fun a => new.any (key · == key a)) ++ rest)))).map key).Nodup := by
        simpa [h.get_set, h.key_patch a b hk.symm] using hnd
      rw [hmap, ih (done ++ [patch a b]) rest _ (by simp [h.get_set]) hnd',
        h.set_set]
      simp [hlast]
    · have hnone : findLast? (key · == key a) new = none := by
        simpa [findLast?, List.find?_eq_none] using ha
      have hx' : get x = done ++ as.filter (fun a => new.any (key · == key a)) ++ rest := by
        simpa [ha] using hx
      rw [memberChanges, hnone]
      simp only [List.foldlM_nil]
      rw [show (pure x : Except PatchError C) = .ok x from rfl, Except.ok_bind,
        ih done rest x hx' hnd]
      simp [hnone]

theorem replay {new : List α} (x : C) (hold : ((get x).map key).Nodup)
    (hnew : (new.map key).Nodup) :
    (memberDifferences key removed added compare (get x) new).foldlM (fun x d => step d x) x =
      .ok (set x (rebuiltMembers key patch (get x) new)) := by
  let kept := (get x).filter fun a => new.any (key · == key a)
  let fresh := new.filter fun b => !(get x).any (key · == key b)
  have hremove := h.replay_removed ((get x).filter fun a => !new.any (key · == key a)) x
    (fun a ha => (List.mem_filter.mp ha).1) hold (hold.sublist (List.filter_sublist.map key))
  rw [filter_not_any_unmatched hold] at hremove
  have hfresh : ∀ b ∈ fresh, ∀ y ∈ get (set x kept), key y ≠ key b := by
    intro b hb y hy he
    rw [h.get_set] at hy
    have := (List.mem_filter.mp hb).2
    simp only [Bool.not_eq_eq_eq_not, Bool.not_true, List.any_eq_false] at this
    exact this y (List.mem_filter.mp hy).1 (by simp [he])
  have hadd := h.replay_added fresh (set x kept) hfresh
    (hnew.sublist (List.filter_sublist.map key))
  have hnd : ((get (set (set x kept) (get (set x kept) ++ fresh))).map key).Nodup := by
    rw [h.get_set, h.get_set, List.map_append, List.nodup_append]
    refine ⟨hold.sublist (List.filter_sublist.map key), hnew.sublist (List.filter_sublist.map key),
      ?_⟩
    simp only [List.mem_map]
    rintro _ ⟨y, hy, rfl⟩ _ ⟨b, hb, rfl⟩ he
    exact hfresh b hb y (by rwa [h.get_set]) he
  have hchange := h.replay_changes hnew (get x) [] fresh _ (by rw [h.get_set, h.get_set]; rfl) hnd
  simp only [kept, fresh] at hadd hchange
  rw [memberDifferences, List.foldlM_append, List.foldlM_append, hremove, Except.ok_bind, hadd,
    Except.ok_bind, hchange, h.set_set, h.set_set, List.nil_append]
  rfl

end MemberSteps

end Replay

end ClassPatch
