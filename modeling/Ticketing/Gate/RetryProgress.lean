import Ticketing.Gate.RetryInvariant

/-!
# How the retry queue gets rid of its items

Three steps of the thread in `run` take an item out of the queue, and each failure of the handler
adds two. So the thread does no more than the items that are there, the pushes and the failures
account for, and it comes to rest only at an empty queue. While nobody pushes, it hands over exactly
the items of the queue, in their order.
-/

namespace Ticketing.Gate

open EvictingWindow StepRun

variable {T : Type*} {capacity : Nat}

def Action.isPush : Action T → Bool
  | .push _ => true
  | _ => false

def Action.isFailure : Action T → Bool
  | .handlerReturns false => true
  | _ => false

namespace Loop

/-! ### Steps to go -/

/-- The steps that empty the queue if no call fails and nothing is pushed. -/
def rank (s : Loop T) : Nat :=
  match s.phase with
  | .waiting => 3 * s.q.queue.length
  | .handling _ => 3 * s.q.queue.length - 1
  | .delivered _ => 3 * s.q.queue.length - 2
  | .undefined => 0

theorem length_push {q q' : GenericRetryQueue T} {item : T} (h : q.push item = some q') :
    q'.queue.length ≤ q.queue.length + 1 := by
  rcases (push_eq_some h).2 with ⟨-, hqueue⟩ | ⟨-, front, rest, hold, hqueue⟩
  · rw [hqueue, List.length_append, List.length_singleton]
  · rw [hqueue, hold, List.length_append, List.length_singleton, List.length_cons]
    omega

theorem Inv.length_pos_of_handling {s : Loop T} {w : Window capacity} (h : Inv s w)
    {item : Numbered T} (hphase : s.phase = .handling item) : 0 < s.q.queue.length :=
  List.length_pos_iff.mpr (h.represents.ne_nil_iff.mpr (h.phase_of_eq hphase).1.nonempty)

theorem rank_step {s s' : Loop T} {w : Window capacity} (h : Inv s w) (hcapacity : 0 < capacity)
    {a : Action T} (hstep : s.step a = some s') :
    s'.rank + 1 ≤ s.rank + ((if a.isPush then 4 else 0) + (if a.isFailure then 2 else 0)) := by
  rcases step_cases hstep with ⟨item, q, rfl, hpush, rfl⟩ | ⟨item, rfl, hpush, rfl⟩ |
    ⟨front, rest, rfl, hphase, hqueue, rfl⟩ | ⟨item, rfl, hphase, rfl⟩ | ⟨item, rfl, hphase, rfl⟩ |
    ⟨item, front, rest, rfl, hphase, hqueue, rfl⟩ | ⟨item, rfl, hphase, hqueue, rfl⟩
  · have hlength := length_push hpush
    simp only [rank, Action.isPush, Action.isFailure, if_true]
    cases s.phase <;> dsimp only <;> omega
  · exact absurd hpush (push_ne_none (h.maxSize_eq ▸ hcapacity) _)
  · simp only [rank, hphase, hqueue, List.length_cons]
    omega
  · have hlength := h.length_pos_of_handling hphase
    simp only [rank, hphase]
    omega
  · have hlength := h.length_pos_of_handling hphase
    simp only [rank, hphase, Action.isFailure, if_true]
    omega
  · simp only [rank, hphase, hqueue, List.length_cons]
    omega
  · exact absurd hqueue (h.queue_ne_nil hphase)

/-- The thread in `run` never spins: from every state that a run leads to, the steps that follow are
at most three for each item in the queue, four for each push and two for each failure. -/
theorem steps_bounded (hcapacity : 0 < capacity) {s t : Loop T} {before later : List (Action T)}
    (hbefore : run step (init T capacity) before = some s) (hlater : run step s later = some t) :
    later.length ≤ 3 * s.q.queue.length +
      (4 * later.countP Action.isPush + 2 * later.countP Action.isFailure) := by
  have hbound := countP_le_of_rank step rank (fun _ => true) Action.isPush Action.isFailure 4 2
    (I := fun s => ∃ w : Window capacity, Inv s w)
    (fun _ _ _ ⟨_, h⟩ hstep => h.step hcapacity hstep)
    (fun _ _ _ ⟨_, h⟩ hstep => rank_step h hcapacity hstep) (inv_of_run hcapacity hbefore) hlater
  have hrank : s.rank ≤ 3 * s.q.queue.length := by
    rw [rank]
    cases s.phase <;> dsimp only <;> omega
  rw [List.countP_true] at hbound
  omega

theorem steps_bounded_two_items :
    ∃ s t : Loop Nat, run step (init Nat 2) [.push 7, .copyFront] = some s ∧
      run step s [.handlerReturns false, .push 8, .copyFront, .handlerReturns true, .popFront] =
        some t ∧ 5 ≤ 3 * s.q.queue.length + (4 * 1 + 2 * 1) := by
  have hbefore : run step (init Nat 2) [.push 7, .copyFront] =
      some ⟨⟨[⟨0, 7⟩], 2⟩, .handling ⟨0, 7⟩, [7], [⟨0, 7⟩], []⟩ := rfl
  have hlater : run step
      (⟨⟨[⟨0, 7⟩], 2⟩, .handling ⟨0, 7⟩, [7], [⟨0, 7⟩], []⟩ : Loop Nat)
      [.handlerReturns false, .push 8, .copyFront, .handlerReturns true, .popFront] =
      some ⟨⟨[⟨1, 8⟩], 2⟩, .waiting, [7, 8], [⟨0, 7⟩, ⟨0, 7⟩], [⟨0, 7⟩]⟩ := rfl
  exact ⟨_, _, hbefore, hlater, steps_bounded Nat.two_pos hbefore hlater⟩

/-! ### Rest -/

/-- Until the next push there is nothing left to do. -/
def Idle (s : Loop T) : Prop := ∀ a, (∀ item, a ≠ .push item) → s.step a = none

theorem Inv.of_stuck {s : Loop T} {w : Window capacity} (h : Inv s w)
    (hcopy : s.step .copyFront = none) (hfails : s.step (.handlerReturns false) = none)
    (hpop : s.step .popFront = none) : s.phase = .waiting ∧ s.q.queue = [] := by
  cases hphase : s.phase with
  | waiting =>
      cases hqueue : s.q.queue with
      | nil => exact ⟨rfl, rfl⟩
      | cons front rest => simp [Loop.step, hphase, hqueue] at hcopy
  | handling item => simp [Loop.step, hphase] at hfails
  | delivered item =>
      cases hqueue : s.q.queue with
      | nil => exact absurd hqueue (h.queue_ne_nil hphase)
      | cons front rest => simp [Loop.step, hphase, GenericRetryQueue.pop, hqueue] at hpop
  | undefined => exact (h.phase_of_eq hphase).elim

theorem idle_of_empty {s : Loop T} (hphase : s.phase = .waiting) (hqueue : s.q.queue = []) :
    Idle s := by
  intro a hne
  cases a with
  | push item => exact absurd rfl (hne item)
  | _ => simp [Loop.step, hphase, hqueue]

theorem pushed_eq_of_ne_push {s s' : Loop T} {a : Action T} (hstep : s.step a = some s')
    (hne : ∀ item, a ≠ .push item) : s'.pushed = s.pushed := by
  rcases step_cases hstep with ⟨item, q, rfl, -, rfl⟩ | ⟨item, rfl, -, rfl⟩ |
    ⟨front, rest, -, -, -, rfl⟩ | ⟨item, -, -, rfl⟩ | ⟨item, -, -, rfl⟩ |
    ⟨item, front, rest, -, -, -, rfl⟩ | ⟨item, -, -, -, rfl⟩
  · exact absurd rfl (hne item)
  · exact absurd rfl (hne item)
  all_goals rfl

/-- What the handler has still to be called with, if nothing else is pushed. -/
def pending (s : Loop T) : List (Numbered T) :=
  match s.phase with
  | .waiting | .handling _ => s.q.queue
  | .delivered _ => s.q.queue.tail
  | .undefined => []

/-- What is due is handed over in its order. The item in flight is the front of the queue, as it is
while nobody pushes. -/
structure InOrder (due : List (Numbered T)) (s : Loop T) : Prop where
  due_eq : s.accepted ++ s.pending = due
  front_handling : ∀ item, s.phase = .handling item → s.q.queue.head? = some item
  front_delivered : ∀ item, s.phase = .delivered item → s.q.queue.head? = some item

theorem inOrder_of_waiting {s : Loop T} (h : s.phase = .waiting) :
    InOrder (s.accepted ++ s.q.queue) s where
  due_eq := by rw [pending, h]
  front_handling := fun item hitem => nomatch h.symm.trans hitem
  front_delivered := fun item hitem => nomatch h.symm.trans hitem

theorem InOrder.next {due : List (Numbered T)} {s s' : Loop T} (h : InOrder due s) {a : Action T}
    (hquiet : ∀ item, a ≠ .push item) (hstep : s.step a = some s') : InOrder due s' := by
  have hdue := h.due_eq
  rcases step_cases hstep with ⟨item, q, rfl, hpush, rfl⟩ | ⟨item, rfl, hpush, rfl⟩ |
    ⟨front, rest, rfl, hphase, hqueue, rfl⟩ | ⟨item, rfl, hphase, rfl⟩ | ⟨item, rfl, hphase, rfl⟩ |
    ⟨item, front, rest, rfl, hphase, hqueue, rfl⟩ | ⟨item, rfl, hphase, hqueue, rfl⟩
  · exact absurd rfl (hquiet item)
  · exact absurd rfl (hquiet item)
  · rw [pending, hphase] at hdue
    refine ⟨hdue, fun item hitem => ?_, fun _ => nofun⟩
    obtain rfl := Phase.handling.inj hitem
    exact congrArg List.head? hqueue
  · obtain ⟨rest, hqueue⟩ := List.head?_eq_some_iff.mp (h.front_handling item hphase)
    rw [pending, hphase] at hdue
    refine ⟨?_, fun _ => nofun, fun item' hitem' => ?_⟩
    · simp only [pending, hqueue, List.tail_cons, List.append_assoc, List.singleton_append]
      exact hqueue ▸ hdue
    · exact Phase.delivered.inj hitem' ▸ h.front_handling item hphase
  · rw [pending, hphase] at hdue
    exact ⟨hdue, fun _ => nofun, fun _ => nofun⟩
  · rw [pending, hphase] at hdue
    dsimp only at hdue
    rw [hqueue, List.tail_cons] at hdue
    exact ⟨hdue, fun _ => nofun, fun _ => nofun⟩
  · have hfront := h.front_delivered item hphase
    rw [hqueue] at hfront
    exact nomatch hfront

/-- While nobody pushes, the thread in `run` hands over what is in the queue, in its order and
nothing else; it makes at most three steps for an item and two for a failure, and when it comes to
rest everything has been handed over. -/
theorem backlog_delivered (hcapacity : 0 < capacity) {s t : Loop T}
    {before later : List (Action T)} (hbefore : run step (init T capacity) before = some s)
    (hwaiting : s.phase = .waiting) (hquiet : ∀ item, .push item ∉ later)
    (hlater : run step s later = some t) :
    later.length ≤ 3 * s.q.queue.length + 2 * later.countP Action.isFailure ∧
      t.accepted <+: s.accepted ++ s.q.queue ∧
      (Idle t → t.accepted = s.accepted ++ s.q.queue ∧ t.q.queue = []) := by
  have hinorder := invariant_of_run_of_mem step (I := InOrder (s.accepted ++ s.q.queue))
    (fun u a ha u' hu hstep => hu.next (fun item hitem => hquiet item (hitem ▸ ha)) hstep)
    (inOrder_of_waiting hwaiting) hlater
  have hpushes : later.countP Action.isPush = 0 := by
    rw [List.countP_eq_zero]
    intro a ha
    cases a with
    | push item => exact absurd ha (hquiet item)
    | _ => exact nofun
  refine ⟨?_, hinorder.due_eq ▸ List.prefix_append _ _, fun hidle => ?_⟩
  · have hbound := steps_bounded hcapacity hbefore hlater
    omega
  · obtain ⟨w, hinv⟩ := inv_of_run hcapacity ((run_append step).mpr ⟨s, hbefore, hlater⟩)
    obtain ⟨hphase, hqueue⟩ := hinv.of_stuck (hidle _ nofun) (hidle _ nofun) (hidle _ nofun)
    have hdue := hinorder.due_eq
    rw [pending, hphase] at hdue
    dsimp only at hdue
    rw [hqueue, List.append_nil] at hdue
    exact ⟨hdue, hqueue⟩

theorem backlog_delivered_two_items :
    ∃ s t : Loop Nat, run step (init Nat 2) [.push 7, .push 8] = some s ∧
      run step s [.copyFront, .handlerReturns false, .copyFront, .handlerReturns true, .popFront,
        .copyFront, .handlerReturns true, .popFront] = some t ∧
      t.accepted = s.accepted ++ s.q.queue ∧ t.q.queue = [] := by
  have hbefore : run step (init Nat 2) [.push 7, .push 8] =
      some ⟨⟨[⟨0, 7⟩, ⟨1, 8⟩], 2⟩, .waiting, [7, 8], [], []⟩ := rfl
  have hlater : run step (⟨⟨[⟨0, 7⟩, ⟨1, 8⟩], 2⟩, .waiting, [7, 8], [], []⟩ : Loop Nat)
      [.copyFront, .handlerReturns false, .copyFront, .handlerReturns true, .popFront,
        .copyFront, .handlerReturns true, .popFront] =
      some ⟨⟨[], 2⟩, .waiting, [7, 8], [⟨0, 7⟩, ⟨0, 7⟩, ⟨1, 8⟩], [⟨0, 7⟩, ⟨1, 8⟩]⟩ := rfl
  exact ⟨_, _, hbefore, hlater,
    (backlog_delivered Nat.two_pos hbefore rfl (by simp) hlater).2.2 (idle_of_empty rfl rfl)⟩

end Loop

end Ticketing.Gate
