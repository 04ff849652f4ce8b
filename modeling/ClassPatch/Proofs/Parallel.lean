import Mathlib
import ClassPatch.Delta.Parallel
import ClassPatch.Proofs.ClassMap

/-!
The order in which the workers take their steps does not change the differences. Whatever the
interleaving, the iterator hands out each item once and in order, and a worker finishes the item
it holds before it takes another or stops; so when every worker has stopped, the pushed results
are those of a run on one worker, in some order. No two of them share an index, so sorting by
index puts them back in that order. The main statement: on any number of threads, every run of
the comparison of two sets of classes ends, with each common class compared once and with the
differences of the sequential comparison.
-/

namespace ClassPatch

section Replace

variable {γ δ : Type}

-- Replacing one item of a list changes what the list maps to by that item's part alone.
theorem perm_flatMap_set (f : γ → List δ) {b : γ} :
    ∀ {l : List γ} {w : Nat} {a : γ}, l[w]? = some a →
      ((l.set w b).flatMap f ++ f a).Perm (l.flatMap f ++ f b)
  | c :: l, 0, a, h => by
    obtain rfl : c = a := by simpa using h
    -- `f b ++ (rest ++ f c)` against `f c ++ (rest ++ f b)`
    simpa only [List.set_cons_zero, List.flatMap_cons, List.append_assoc] using
      (List.perm_append_comm_assoc _ _ _).trans
        ((List.perm_append_comm.append_left _).trans (List.perm_append_comm_assoc _ _ _))
  | c :: l, w + 1, a, h => by
    simpa only [List.set_cons_succ, List.flatMap_cons, List.append_assoc] using
      (perm_flatMap_set f (l := l) (w := w) (by simpa using h)).append_left (f c)

theorem sum_map_set (f : γ → Nat) {b : γ} :
    ∀ {l : List γ} {w : Nat} {a : γ}, l[w]? = some a →
      ((l.set w b).map f).sum + f a = (l.map f).sum + f b
  | c :: l, 0, a, h => by
    obtain rfl : c = a := by simpa using h
    simp only [List.set_cons_zero, List.map_cons, List.sum_cons]
    omega
  | c :: l, w + 1, a, h => by
    have := sum_map_set f (l := l) (w := w) (b := b) (by simpa using h)
    simp only [List.set_cons_succ, List.map_cons, List.sum_cons]
    omega

theorem flatMap_filter_of_nil {q : γ → Bool} {g : γ → List δ} :
    ∀ {l : List γ}, (∀ x ∈ l, q x = false → g x = []) → (l.filter q).flatMap g = l.flatMap g
  | [], _ => rfl
  | x :: l, h => by
    have ih := flatMap_filter_of_nil fun y hy => h y (List.mem_cons_of_mem x hy)
    cases hq : q x
    · simp [hq, ih, h x List.mem_cons_self hq]
    · simp [hq, ih]

end Replace

namespace Scheduler

variable {α β : Type} {work : α → Option β} {items : List α} {s t : Run α β}

/-! ### The results of a run on one worker -/

theorem mem_outcomes {p : Nat × β} (h : p ∈ outcomes work items) :
    ∃ x, items[p.1]? = some x ∧ work x = some p.2 := by
  obtain ⟨⟨x, i⟩, hx, hp⟩ := List.mem_filterMap.mp h
  obtain ⟨v, hv, rfl⟩ := Option.map_eq_some_iff.mp hp
  exact ⟨x, List.mem_zipIdx_iff_getElem?.mp hx, hv⟩

-- An item's index fixes its result, so two results with one index are one result.
theorem eq_of_mem_outcomes {p q : Nat × β} (hp : p ∈ outcomes work items)
    (hq : q ∈ outcomes work items) (h : p.1 = q.1) : p = q := by
  obtain ⟨x, hx, hwx⟩ := mem_outcomes hp
  obtain ⟨y, hy, hwy⟩ := mem_outcomes hq
  have hxy : x = y := Option.some.inj (hx.symm.trans (h ▸ hy))
  subst hxy
  exact Prod.ext h (Option.some.inj (hwx.symm.trans hwy))

theorem pairwise_zipIdx (items : List α) (k : Nat) :
    (items.zipIdx k).Pairwise fun a b => a.2 < b.2 := by
  induction items generalizing k with
  | nil => simp
  | cons x rest ih =>
    rw [List.zipIdx_cons, List.pairwise_cons]
    refine ⟨fun p hp => ?_, ih (k + 1)⟩
    have := List.le_snd_of_mem_zipIdx hp
    omega

theorem pairwise_outcomes : (outcomes work items).Pairwise fun a b => a.1 < b.1 := by
  refine List.pairwise_filterMap.mpr ((pairwise_zipIdx items 0).imp ?_)
  -- the items keep their order, and a result keeps its item's index
  intro a b hab p hp q hq
  obtain ⟨_, -, rfl⟩ := Option.map_eq_some_iff.mp hp
  obtain ⟨_, -, rfl⟩ := Option.map_eq_some_iff.mp hq
  exact hab

theorem outcomes_take_succ {n : Nat} {x : α} {rest : List α} (h : items.drop n = x :: rest) :
    outcomes work (items.take (n + 1)) =
      outcomes work (items.take n) ++ ((work x).map (n, ·)).toList := by
  have hx : items[n]? = some x := by
    rw [← List.head?_drop, h]
    rfl
  have hn : (items.take n).length = n := by
    have : n < items.length := (List.getElem?_eq_some_iff.mp hx).1
    simp
    omega
  rw [List.take_add_one, hx, outcomes, outcomes, Option.toList_some, List.zipIdx_append,
    List.filterMap_append, hn]
  cases hw : work x <;> simp [hw]

theorem flatMap_outcomes {γ : Type} (work : α → Option (List γ)) (items : List α) :
    (outcomes work items).flatMap (·.2) = items.flatMap fun x => (work x).getD [] := by
  -- over the items from any index on
  suffices h : ∀ k, ((items.zipIdx k).filterMap fun p => (work p.1).map (p.2, ·)).flatMap (·.2) =
      items.flatMap fun x => (work x).getD [] from h 0
  induction items with
  | nil => simp
  | cons x rest ih =>
    intro k
    cases hx : work x <;> simp [List.zipIdx_cons, hx, ih]

theorem sorted_eq_outcomes (h : s.results.Perm (outcomes work items)) :
    s.sorted = outcomes work items := by
  have hsorted : s.sorted.Pairwise fun a b => a.1 ≤ b.1 := by
    unfold Run.sorted
    simpa using @List.pairwise_mergeSort _ (fun a b : Nat × β => decide (a.1 ≤ b.1))
      (fun a b c hab hbc => by simp at *; omega) (fun a b => by simp; omega) s.results
  have hperm : s.sorted.Perm (outcomes work items) := (List.mergeSort_perm _ _).trans h
  refine hperm.eq_of_pairwise (fun a b ha hb hab hba => ?_) hsorted
    (pairwise_outcomes.imp Nat.le_of_lt)
  exact eq_of_mem_outcomes (hperm.subset ha) hb (Nat.le_antisymm hab hba)

/-! ### What every state of a run keeps -/

def Worker.owed (work : α → Option β) : Worker α → List (Nat × β)
  | .busy i x => ((work x).map (i, ·)).toList
  | _ => []

/-- What every state of a run over `items` keeps: the iterator has handed out a prefix of the
items, in order; the results pushed and those still owed are, in some order, the results of that
prefix; once a worker has stopped the iterator is empty; and there is a worker. -/
structure Inv (work : α → Option β) (items : List α) (s : Run α β) : Prop where
  pending_eq : s.pending = items.drop s.next
  next_le : s.next ≤ items.length
  perm : (s.results ++ s.workers.flatMap (Worker.owed work)).Perm
    (outcomes work (items.take s.next))
  drained : Worker.done ∈ s.workers → s.pending = []
  nonempty : s.workers ≠ []

theorem Inv.start {n : Nat} (hn : 0 < n) : Inv work items (Run.start items n) where
  pending_eq := rfl
  next_le := Nat.zero_le _
  perm := by simp [Run.start, Worker.owed, outcomes]
  drained h := by simp [Run.start] at h
  nonempty := by simp [Run.start]; omega

theorem mem_set_of_ne {l : List (Worker α)} {w : Nat} {a b : Worker α} (h : a ∈ l.set w b)
    (hne : a ≠ b) : a ∈ l := by
  obtain ⟨i, hi⟩ := List.mem_iff_getElem?.mp h
  rw [List.getElem?_set] at hi
  split at hi
  · split at hi
    · exact absurd (Option.some.inj hi).symm hne
    · cases hi
  · exact List.mem_of_getElem? hi

theorem Step.inv (hst : Step work s t) (hs : Inv work items s) : Inv work items t := by
  cases hst with
  | @take w x rest hw hp =>
    have hdrop : items.drop s.next = x :: rest := hs.pending_eq ▸ hp
    have hlt : s.next < items.length := by
      have := congrArg List.length hdrop
      simp at this
      omega
    refine ⟨?_, hlt, ?_, fun h => ?_, by simpa using hs.nonempty⟩
    · simp only
      rw [← List.drop_drop, hdrop]
      rfl
    · -- the taken item's result moves from the iterator to what its worker owes
      simp only
      rw [outcomes_take_succ hdrop]
      refine List.Perm.trans ?_ (hs.perm.append_right _)
      have := (perm_flatMap_set (Worker.owed work) (b := .busy s.next x) hw).append_left s.results
      simpa [Worker.owed, List.append_assoc] using this
    · have := hs.drained (mem_set_of_ne h (by simp))
      simp [hp] at this
  | @stop w hw hp =>
    refine ⟨hs.pending_eq, hs.next_le, ?_, fun _ => hp, by simpa using hs.nonempty⟩
    have := (perm_flatMap_set (Worker.owed work) (b := .done) hw).append_left s.results
    simp only [Worker.owed, List.append_nil] at this
    exact this.trans hs.perm
  | @finish w i x hw =>
    refine ⟨hs.pending_eq, hs.next_le, ?_, fun h => hs.drained (mem_set_of_ne h (by simp)),
      by simpa using hs.nonempty⟩
    -- the owed result is pushed
    have := (perm_flatMap_set (Worker.owed work) (b := .idle) hw).append_left s.results
    simp only [Worker.owed, List.append_nil] at this
    simpa only [List.append_assoc] using
      (List.perm_append_comm.append_left s.results).trans (this.trans hs.perm)

theorem Inv.results_perm (hs : Inv work items s) (hf : s.Finished) :
    s.results.Perm (outcomes work items) := by
  obtain ⟨w, hw⟩ := List.exists_mem_of_ne_nil _ hs.nonempty
  have hempty : items.drop s.next = [] := hs.pending_eq ▸ hs.drained (hf w hw ▸ hw)
  have hnext : s.next = items.length := Nat.le_antisymm hs.next_le (List.drop_eq_nil_iff.mp hempty)
  have howed : s.workers.flatMap (Worker.owed work) = [] :=
    List.flatMap_eq_nil_iff.mpr fun w hw => by rw [hf w hw]; rfl
  simpa [howed, hnext] using hs.perm

/-! ### Every run ends -/

def Worker.weight : Worker α → Nat
  | .idle => 2
  | .busy .. => 3
  | .done => 0

/-- The steps that may still be taken, at most. -/
def Run.measure (s : Run α β) : Nat := 3 * s.pending.length + (s.workers.map Worker.weight).sum

theorem Step.measure_lt (hst : Step work s t) : t.measure < s.measure := by
  cases hst with
  | @take w x rest hw hp =>
    have := sum_map_set Worker.weight (b := .busy s.next x) hw
    simp only [Run.measure, hp, List.length_cons, Worker.weight] at this ⊢
    omega
  | stop hw hp =>
    have := sum_map_set Worker.weight (b := .done) hw
    simp only [Run.measure, Worker.weight] at this ⊢
    omega
  | finish hw =>
    have := sum_map_set Worker.weight (b := .idle) hw
    simp only [Run.measure, Worker.weight] at this ⊢
    omega

theorem exists_step (hf : ¬ s.Finished) : ∃ t, Step work s t := by
  simp only [Run.Finished, not_forall] at hf
  obtain ⟨w, hw, hne⟩ := hf
  obtain ⟨i, hi⟩ := List.mem_iff_getElem?.mp hw
  cases w with
  | idle =>
    cases hp : s.pending with
    | nil => exact ⟨_, .stop hi hp⟩
    | cons x rest => exact ⟨_, .take hi hp⟩
  | busy j x => exact ⟨_, .finish hi⟩
  | done => exact absurd rfl hne

open Classical in
theorem ends_of_inv {P : Run α β → Prop} (hP : ∀ s, Inv work items s → s.Finished → P s)
    (s : Run α β) (hs : Inv work items s) : Ends work P s :=
  if hf : s.Finished then .finished hf (hP s hs hf)
  else .step (exists_step hf) fun t hst => ends_of_inv hP t (hst.inv hs)
termination_by s.measure
decreasing_by exact hst.measure_lt

theorem workerCount_pos (threads : Nat) (spawned : Nat → Bool) : 0 < workerCount threads spawned := by
  unfold workerCount
  split
  · exact Nat.one_pos
  · cases (List.range threads).countP spawned <;> simp

-- when no worker can be spawned, the task runs on the calling thread
example : workerCount 4 (fun _ => false) = 1 := by decide

end Scheduler

/-! ### The comparison of the common classes -/

theorem flatMap_commonChanges (old new : ClassMap) :
    (commonNames old new).flatMap (fun n => (commonChanges old new n).getD []) =
      old.entries.flatMap fun p => classChanges new p.1 p.2 := by
  -- a name of the old set stands for its entry, whose changes the task finds
  have hentry : ∀ p ∈ old.entries,
      (commonChanges old new p.1).getD [] = classChanges new p.1 p.2 := by
    intro p hp
    have hold : old.get? p.1 = some p.2 := ClassMap.get?_eq_some_iff.mpr hp
    unfold commonChanges classChanges
    cases hnew : new.get? p.1 with
    | none => simp [hold]
    | some c' =>
      by_cases hempty : (compareClass p.2 c').isEmpty = true
      · simp [hold, List.isEmpty_iff.mp hempty]
      · simp [hold, hempty]
  -- and a class that the new set lacks has none
  have hlacks : ∀ p ∈ old.entries, new.contains p.1 = false → classChanges new p.1 p.2 = [] := by
    intro p _ hnot
    simp only [ClassMap.contains, Option.isSome_eq_false_iff, Option.isNone_iff_eq_none] at hnot
    simp [classChanges, hnot]
  rw [commonNames, ClassMap.names, List.filter_map, List.flatMap_map,
    List.flatMap_congr fun p hp => hentry p (List.mem_of_mem_filter hp)]
  exact flatMap_filter_of_nil hlacks

theorem diffOutcome_eq_diffClasses {old new : ClassMap} {s : Scheduler.Run String (List Difference)}
    (h : s.sorted = Scheduler.outcomes (commonChanges old new) (commonNames old new)) :
    diffOutcome old new s = diffClasses old new := by
  simp only [diffOutcome, diffClasses, h, Scheduler.flatMap_outcomes, flatMap_commonChanges]

/-- On any number of threads, and whichever workers could be spawned, every interleaving of the
workers' steps ends; each common class is compared once, its differences pushed once when there
are any, and the differences are those of the sequential comparison. -/
theorem diffRun_ends_sequential (threads : Nat) (spawned : Nat → Bool) (old new : ClassMap) :
    Scheduler.Ends (commonChanges old new)
      (fun s => s.results.Perm (Scheduler.outcomes (commonChanges old new) (commonNames old new)) ∧
        diffOutcome old new s = diffClasses old new)
      (diffRun threads spawned old new) :=
  Scheduler.ends_of_inv (fun _ hs hf =>
      ⟨hs.results_perm hf, diffOutcome_eq_diffClasses (Scheduler.sorted_eq_outcomes
        (hs.results_perm hf))⟩)
    _ (Scheduler.Inv.start (Scheduler.workerCount_pos threads spawned))

end ClassPatch
