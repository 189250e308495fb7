import Ticketing.Gate.RetryInvariant

/-!
# The bounds of the retry queue

Two locked sections pop without asking whether there is anything to pop. A push that finds the queue
full relies on the bound, which leaves room for an item. The pop after a successful call relies on
the wait of an earlier locked section: between the two the thread in `run` holds no lock, and pushes
may evict the very item that the wait found. They never leave the queue empty, and nobody else
shortens it.
-/

namespace Ticketing.Gate

open EvictingWindow StepRun

namespace Loop

variable {T : Type*} {capacity : Nat}

def UsesFront (s : Loop T) : Action T → Prop
  | .push _ => s.q.maxSize ≤ s.q.queue.length
  | .copyFront => True
  | .handlerReturns _ => False
  | .popFront => True

/-- A step that reads the front or pops finds the queue not empty. -/
def FrontPresent (s : Loop T) (a : Action T) (_ : Loop T) : Prop :=
  s.UsesFront a → s.q.queue ≠ []

/-- What holds outside the locked sections: the queue is within its bound, no pop has found it
empty, and a pop that is still to come will not either. -/
structure WithinBounds (maxSize : Nat) (s : Loop T) : Prop where
  length_le : s.q.queue.length ≤ maxSize
  defined : s.phase ≠ .undefined
  pop_finds : ∀ item, s.phase = .delivered item → s.q.queue ≠ []

theorem Inv.withinBounds {s : Loop T} {w : Window capacity} (h : Inv s w) :
    WithinBounds capacity s where
  length_le := h.represents.length_le
  defined := fun hundefined => h.phase_of_eq hundefined
  pop_finds := fun _ hdelivered => h.queue_ne_nil hdelivered

/-- Each section has its own reason: a full queue holds an item as there is room for one, the wait
has just looked, and the item in flight keeps the queue from running empty. -/
theorem Inv.frontPresent {s s' : Loop T} {w : Window capacity} (h : Inv s w)
    (hcapacity : 0 < capacity) {a : Action T} (hstep : s.step a = some s') :
    FrontPresent s a s' := by
  intro huses
  cases a with
  | push item =>
      change s.q.maxSize ≤ s.q.queue.length at huses
      rw [h.maxSize_eq] at huses
      exact List.ne_nil_of_length_pos (hcapacity.trans_le huses)
  | copyFront =>
      obtain ⟨front, rest, _, hqueue, _⟩ := step_copyFront hstep
      rw [hqueue]
      exact List.cons_ne_nil front rest
  | handlerReturns ok => exact huses.elim
  | popFront =>
      obtain ⟨item, hdelivered, _⟩ := step_popFront hstep
      exact h.queue_ne_nil hdelivered

/-- However pushes, calls of the handler and pops interleave, and whatever the handler returns, a
queue with room for one item stays within its bound and is never read or popped when empty. -/
theorem frontPresent_and_withinBounds (maxSize : Nat) (hmaxSize : 0 < maxSize)
    (actions : List (Action T)) :
    Along step FrontPresent (init T maxSize) actions ∧
      ∀ s, run step (init T maxSize) actions = some s → WithinBounds maxSize s := by
  constructor
  · apply along_of_invariant step (I := fun s => ∃ w : Window maxSize, Inv s w)
    · intro s a s' ⟨w, h⟩ hstep
      exact h.step hmaxSize hstep
    · intro s a s' ⟨w, h⟩ hstep
      exact h.frontPresent hmaxSize hstep
    · exact ⟨Window.empty maxSize, init_inv T maxSize⟩
  · intro s hrun
    obtain ⟨w, h⟩ := inv_of_run hmaxSize hrun
    exact h.withinBounds

theorem frontPresent_and_withinBounds_one :
    Along step FrontPresent (init Nat 1)
        [.push 7, .copyFront, .push 8, .handlerReturns true, .popFront] ∧
      WithinBounds 1 (⟨⟨[], 1⟩, .waiting, [7, 8], [⟨0, 7⟩], [⟨0, 7⟩]⟩ : Loop Nat) := by
  have h := frontPresent_and_withinBounds 1 Nat.one_pos
    ([.push 7, .copyFront, .push 8, .handlerReturns true, .popFront] : List (Action Nat))
  exact ⟨h.1, h.2 _ rfl⟩

end Loop

end Ticketing.Gate
