import Ticketing.Library.EvictingWindow
import Ticketing.Library.StepRun

/-!
# The gate's retry queue

`GenericRetryQueue<T>` of `gate/include/GenericRetryQueue.hpp`. Its two member functions share a
`std::queue` under a mutex. `push` is one locked section. An iteration of `run` is three: it copies
the front under the lock, calls the handler without the lock, and pops under the lock when the
handler has returned true. The steps of a `Loop` are these locked sections and the return of the
handler, so that the runs of `Loop.step` are the interleavings of one thread in `run` with any
number of threads in `push`.

The code never looks into an item. The queue of a `Loop` holds each item with its place in the
order of the pushes, which is what a statement about "that very item" refers to.
-/

namespace Ticketing.Gate

open EvictingWindow StepRun

/-- The data members that the mutex guards. -/
structure GenericRetryQueue (T : Type*) where
  queue : List T
  maxSize : Nat

namespace GenericRetryQueue

variable {T : Type*}

/-- `std::queue::pop`, undefined on an empty queue. -/
def pop (q : GenericRetryQueue T) : Option (GenericRetryQueue T) :=
  match q.queue with
  | [] => none
  | _ :: rest => some { q with queue := rest }

/-- The locked section of `GenericRetryQueue::push`. -/
def push (q : GenericRetryQueue T) (item : T) : Option (GenericRetryQueue T) :=
  if q.maxSize ≤ q.queue.length then
    -- pop oldest item to make room
    q.pop.map fun q => { q with queue := q.queue ++ [item] }
  else
    some { q with queue := q.queue ++ [item] }

end GenericRetryQueue

/-- Where the thread in `GenericRetryQueue::run` is. -/
inductive Phase (T : Type*) where
  /-- at the condition variable, or asleep after a failure -/
  | waiting
  /-- the handler has been called with the copied item and has not returned -/
  | handling (item : T)
  /-- the handler has returned true and the pop is still to come -/
  | delivered (item : T)
  /-- a pop of an empty queue -/
  | undefined

/-- The queue, the position of the thread in `run`, and the history of the calls: what has been
pushed, what the handler has been called with and what it has returned true for, oldest first. -/
structure Loop (T : Type*) where
  q : GenericRetryQueue (Numbered T)
  phase : Phase (Numbered T)
  pushed : List T
  called : List (Numbered T)
  accepted : List (Numbered T)

inductive Action (T : Type*) where
  | push (item : T)
  | copyFront
  | handlerReturns (ok : Bool)
  | popFront
  deriving DecidableEq

namespace Loop

variable {T : Type*}

def init (T : Type*) (maxSize : Nat) : Loop T :=
  ⟨⟨[], maxSize⟩, .waiting, [], [], []⟩

/-- One locked section, or the return of the handler. -/
def step (s : Loop T) : Action T → Option (Loop T)
  | .push item =>
      match s.phase with
      | .undefined => none
      | _ =>
        match s.q.push ⟨s.pushed.length, item⟩ with
        | none => some { s with phase := .undefined }
        | some q => some { s with q := q, pushed := s.pushed ++ [item] }
  | .copyFront =>
      -- the wait ends only on a queue that is not empty
      match s.phase, s.q.queue with
      | .waiting, front :: _ =>
          some { s with phase := .handling front, called := s.called ++ [front] }
      | _, _ => none
  | .handlerReturns ok =>
      match s.phase with
      | .handling item =>
          if ok then
            some { s with phase := .delivered item, accepted := s.accepted ++ [item] }
          else
            some { s with phase := .waiting }
      | _ => none
  | .popFront =>
      match s.phase with
      | .delivered _ =>
        match s.q.pop with
        | none => some { s with phase := .undefined }
        | some q => some { s with q := q, phase := .waiting }
      | _ => none

theorem push_eq_some {q q' : GenericRetryQueue T} {item : T} (h : q.push item = some q') :
    q'.maxSize = q.maxSize ∧
      ((¬ q.maxSize ≤ q.queue.length ∧ q'.queue = q.queue ++ [item]) ∨
        (q.maxSize ≤ q.queue.length ∧
          ∃ front rest, q.queue = front :: rest ∧ q'.queue = rest ++ [item])) := by
  unfold GenericRetryQueue.push GenericRetryQueue.pop at h
  split at h
  · rename_i hfull
    split at h
    · simp only [Option.map_none, reduceCtorEq] at h
    · rename_i front rest hqueue
      simp only [Option.map_some, Option.some.injEq] at h
      subst h
      exact ⟨rfl, Or.inr ⟨hfull, front, rest, hqueue, rfl⟩⟩
  · rename_i hroom
    simp only [Option.some.injEq] at h
    subst h
    exact ⟨rfl, Or.inl ⟨hroom, rfl⟩⟩

theorem step_push {s s' : Loop T} {item : T} (h : s.step (.push item) = some s') :
    (∃ q, s.q.push ⟨s.pushed.length, item⟩ = some q ∧
        s' = { s with q := q, pushed := s.pushed ++ [item] }) ∨
      s.q.push ⟨s.pushed.length, item⟩ = none ∧ s' = { s with phase := .undefined } := by
  cases hpush : s.q.push ⟨s.pushed.length, item⟩ <;> cases hphase : s.phase <;> simp_all [step]

theorem step_copyFront {s s' : Loop T} (h : s.step .copyFront = some s') :
    ∃ front rest, s.phase = .waiting ∧ s.q.queue = front :: rest ∧
      s' = { s with phase := .handling front, called := s.called ++ [front] } := by
  cases hphase : s.phase <;> cases hqueue : s.q.queue <;> simp_all [step]

theorem step_handlerTrue {s s' : Loop T} (h : s.step (.handlerReturns true) = some s') :
    ∃ item, s.phase = .handling item ∧
      s' = { s with phase := .delivered item, accepted := s.accepted ++ [item] } := by
  cases hphase : s.phase <;> simp_all [step]

theorem step_handlerFalse {s s' : Loop T} (h : s.step (.handlerReturns false) = some s') :
    ∃ item, s.phase = .handling item ∧ s' = { s with phase := .waiting } := by
  cases hphase : s.phase <;> simp_all [step]

theorem step_popFront {s s' : Loop T} (h : s.step .popFront = some s') :
    ∃ item, s.phase = .delivered item ∧
      ((∃ front rest, s.q.queue = front :: rest ∧
          s' = { s with q := { s.q with queue := rest }, phase := .waiting }) ∨
        s.q.queue = [] ∧ s' = { s with phase := .undefined }) := by
  cases hphase : s.phase <;> cases hqueue : s.q.queue <;>
    simp_all [step, GenericRetryQueue.pop]

/-- Everything a step can do. -/
theorem step_cases {s s' : Loop T} {a : Action T} (h : s.step a = some s') :
    (∃ item q, a = .push item ∧ s.q.push ⟨s.pushed.length, item⟩ = some q ∧
        s' = { s with q := q, pushed := s.pushed ++ [item] }) ∨
      (∃ item, a = .push item ∧ s.q.push ⟨s.pushed.length, item⟩ = none ∧
        s' = { s with phase := .undefined }) ∨
      (∃ front rest, a = .copyFront ∧ s.phase = .waiting ∧ s.q.queue = front :: rest ∧
        s' = { s with phase := .handling front, called := s.called ++ [front] }) ∨
      (∃ item, a = .handlerReturns true ∧ s.phase = .handling item ∧
        s' = { s with phase := .delivered item, accepted := s.accepted ++ [item] }) ∨
      (∃ item, a = .handlerReturns false ∧ s.phase = .handling item ∧
        s' = { s with phase := .waiting }) ∨
      (∃ item front rest, a = .popFront ∧ s.phase = .delivered item ∧
        s.q.queue = front :: rest ∧
        s' = { s with q := { s.q with queue := rest }, phase := .waiting }) ∨
      (∃ item, a = .popFront ∧ s.phase = .delivered item ∧ s.q.queue = [] ∧
        s' = { s with phase := .undefined }) := by
  cases a with
  | push item =>
      rcases step_push h with ⟨q, hpush, rfl⟩ | ⟨hpush, rfl⟩
      · exact Or.inl ⟨item, q, rfl, hpush, rfl⟩
      · exact Or.inr (Or.inl ⟨item, rfl, hpush, rfl⟩)
  | copyFront =>
      obtain ⟨front, rest, hphase, hqueue, rfl⟩ := step_copyFront h
      exact Or.inr (Or.inr (Or.inl ⟨front, rest, rfl, hphase, hqueue, rfl⟩))
  | handlerReturns ok =>
      cases ok with
      | true =>
          obtain ⟨item, hphase, rfl⟩ := step_handlerTrue h
          exact Or.inr (Or.inr (Or.inr (Or.inl ⟨item, rfl, hphase, rfl⟩)))
      | false =>
          obtain ⟨item, hphase, rfl⟩ := step_handlerFalse h
          exact Or.inr (Or.inr (Or.inr (Or.inr (Or.inl ⟨item, rfl, hphase, rfl⟩))))
  | popFront =>
      obtain ⟨item, hphase, ⟨front, rest, hqueue, rfl⟩ | ⟨hqueue, rfl⟩⟩ := step_popFront h
      · exact Or.inr (Or.inr (Or.inr (Or.inr (Or.inr
          (Or.inl ⟨item, front, rest, rfl, hphase, hqueue, rfl⟩)))))
      · exact Or.inr (Or.inr (Or.inr (Or.inr (Or.inr (Or.inr ⟨item, rfl, hphase, hqueue, rfl⟩)))))

end Loop

end Ticketing.Gate
