import ClassPatch.Delta.Compare

namespace ClassPatch

namespace Scheduler

/-- Where a worker is in its loop: about to call the task, inside a call with the item it took
and its index, or stopped after a call that found nothing to do. -/
inductive Worker (α : Type) where
  | idle
  | busy (index : Nat) (item : α)
  | done
  deriving DecidableEq, Repr

/-- What the workers share, and where each of them is. The iterator holds the items it has still
to give and the index of the next one; the results are in the order they were pushed. -/
structure Run (α β : Type) where
  pending : List α
  next : Nat
  results : List (Nat × β)
  workers : List (Worker α)

variable {α β : Type}

def Run.start (items : List α) (n : Nat) : Run α β :=
  { pending := items, next := 0, results := [], workers := List.replicate n .idle }

def Run.Finished (s : Run α β) : Prop := ∀ w ∈ s.workers, w = .done

def Run.sorted (s : Run α β) : List (Nat × β) := s.results.mergeSort fun a b => a.1 ≤ b.1

/-- One step of worker `w`, under the lock it needs; `work` gives the result that an item
pushes, if it has one. -/
inductive Step (work : α → Option β) : Run α β → Run α β → Prop
  /-- The worker takes the next item and its index from the iterator. -/
  | take {s : Run α β} {w : Nat} {x : α} {rest : List α} :
      s.workers[w]? = some .idle → s.pending = x :: rest →
      Step work s { s with pending := rest, next := s.next + 1,
                           workers := s.workers.set w (.busy s.next x) }
  /-- The worker finds the iterator empty: the task reports that it is done, and the worker
  stops. -/
  | stop {s : Run α β} {w : Nat} :
      s.workers[w]? = some .idle → s.pending = [] →
      Step work s { s with workers := s.workers.set w .done }
  /-- The worker finishes its item, pushing the index and the result when there is one, and
  calls the task again. -/
  | finish {s : Run α β} {w i : Nat} {x : α} :
      s.workers[w]? = some (.busy i x) →
      Step work s { s with results := s.results ++ ((work x).map (i, ·)).toList,
                           workers := s.workers.set w .idle }

/-- The results that a run over `items` pushes on one worker, in order: the index and the
result of each item that has one. -/
def outcomes (work : α → Option β) (items : List α) : List (Nat × β) :=
  items.zipIdx.filterMap fun p => (work p.1).map (p.2, ·)

/-- Every interleaving of steps from `s` ends: whatever order the workers take their steps in,
after finitely many of them every worker has stopped, in a state that satisfies `P`. -/
inductive Ends (work : α → Option β) (P : Run α β → Prop) : Run α β → Prop
  | finished {s : Run α β} : s.Finished → P s → Ends work P s
  | step {s : Run α β} :
      (∃ t, Step work s t) → (∀ t, Step work s t → Ends work P t) → Ends work P s

def workerCount (threads : Nat) (spawned : Nat → Bool) : Nat :=
  if threads ≤ 1 then 1
  else
    match (List.range threads).countP spawned with
    | 0 => 1
    | n => n

end Scheduler

/-- The names that both sets hold, in order. -/
def commonNames (old new : ClassMap) : List String := old.names.filter new.contains

/-- The task's work on a common class: the differences of its two versions, when there are
any. -/
def commonChanges (old new : ClassMap) (name : String) : Option (List Difference) :=
  match old.get? name, new.get? name with
  | some c, some c' =>
    let found := compareClass c c'
    if found.isEmpty then none else some found
  | _, _ => none

/-- The run that compares the common classes of two sets on the workers of `threads` threads. -/
def diffRun (threads : Nat) (spawned : Nat → Bool) (old new : ClassMap) :
    Scheduler.Run String (List Difference) :=
  .start (commonNames old new) (Scheduler.workerCount threads spawned)

/-- The differences between two sets of classes once the workers of run `s` are done: the
removed classes, the added classes, then the pushed differences in order of index. -/
def diffOutcome (old new : ClassMap) (s : Scheduler.Run String (List Difference)) :
    List Difference :=
  let removed := old.names.filter (!new.contains ·)
  let added := new.entries.filter (!old.contains ·.1)
  removed.map .classRemoved ++ added.map (fun p => .classAdded { cls := p.2 }) ++
    s.sorted.flatMap (·.2)

end ClassPatch
