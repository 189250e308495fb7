import Ticketing.Gate.RetryInvariant

/-!
# What leaves the retry queue

An item should leave the queue for one of two reasons: the handler has returned true for it, or a
push needed its place. The pop at the end of an iteration of `run` does not check that the front is
still the item it has delivered, and a push on a full queue takes that item away while the handler
runs. The pop then drops the item behind it, which nobody has delivered. This module settles when
that happens: exactly when a pop comes after a push that found the queue full since the copy.
-/

namespace Ticketing.Gate

open EvictingWindow StepRun

namespace Loop

variable {T : Type*} {capacity : Nat}

/-- Every item that the step takes out had been handled, or was evicted by a push as the oldest of
a full queue; and a pop takes out the item that the handler was given. -/
structure Justified (s : Loop T) (a : Action T) (s' : Loop T) : Prop where
  removal : ∀ x ∈ s.q.queue, x ∉ s'.q.queue → x ∈ s.accepted ∨
    (∃ item, a = .push item) ∧ s.q.maxSize ≤ s.q.queue.length ∧ s.q.queue.head? = some x
  pop : ∀ item, a = .popFront → s.phase = .delivered item → s.q.queue.head? = some item

/-- Whether a push has found the queue full since the last copy, brought up to date by a step. -/
def evictedAfter (s : Loop T) (a : Action T) (evicted : Bool) : Bool :=
  match a with
  | .copyFront => false
  | .push _ => evicted || decide (s.q.maxSize ≤ s.q.queue.length)
  | _ => evicted

/-- No pop comes after a push that found the queue full since the item was copied. -/
def PopsUndisturbed (s : Loop T) (evicted : Bool) : List (Action T) → Prop
  | [] => True
  | a :: as => ∀ s', s.step a = some s' →
      (a = .popFront → evicted = false) ∧ PopsUndisturbed s' (s.evictedAfter a evicted) as

def Evicted (w : Window capacity) (evicted : Bool) : Phase (Numbered T) → Prop
  | .handling item => evicted = true ↔ item.number < w.lo
  | .delivered item => evicted = true ↔ item.number < w.lo
  | _ => True

theorem Evicted.push {w : Window capacity} {evicted : Bool} {s : Loop T} (h : Inv s w)
    (hevicted : Evicted w evicted s.phase) (hcapacity : 0 < capacity) (item : T) :
    Evicted (w.insert hcapacity) (s.evictedAfter (.push item) evicted) s.phase := by
  have hlength := h.represents.length_eq
  have hmax := h.maxSize_eq
  have hinflight : ∀ x : Numbered T, x.number ≤ w.lo → (evicted = true ↔ x.number < w.lo) →
      (s.evictedAfter (.push item) evicted = true ↔ x.number < (w.insert hcapacity).lo) := by
    intro x hle hx
    simp only [evictedAfter, Bool.or_eq_true, decide_eq_true_eq, hx, hlength, hmax]
    by_cases hfull : capacity ≤ w.hi - w.lo
    · rw [w.insert_lo_of_full hcapacity hfull]
      exact ⟨fun _ => by omega, fun _ => Or.inr hfull⟩
    · rw [w.insert_lo_of_room hcapacity hfull]
      exact ⟨fun h => h.resolve_right hfull, Or.inl⟩
  cases hp : s.phase with
  | waiting => trivial
  | handling x =>
      obtain ⟨hflight, _⟩ := h.phase_of_eq hp
      rw [hp] at hevicted
      exact hinflight x hflight.le_lo hevicted
  | delivered x =>
      obtain ⟨hflight, _⟩ := h.phase_of_eq hp
      rw [hp] at hevicted
      exact hinflight x hflight.le_lo hevicted
  | undefined => trivial

theorem Inv.step_evicted {s s' : Loop T} {w : Window capacity} {evicted : Bool} (h : Inv s w)
    (hevicted : Evicted w evicted s.phase) (hcapacity : 0 < capacity) {a : Action T}
    (hstep : s.step a = some s') :
    ∃ w' : Window capacity, Inv s' w' ∧ Evicted w' (s.evictedAfter a evicted) s'.phase := by
  rcases step_cases hstep with ⟨item, q, rfl, hpush, rfl⟩ | ⟨item, rfl, hpush, rfl⟩ |
    ⟨front, rest, rfl, hphase, hqueue, rfl⟩ | ⟨item, rfl, hphase, rfl⟩ | ⟨item, rfl, hphase, rfl⟩ |
    ⟨item, front, rest, rfl, hphase, hqueue, rfl⟩ | ⟨item, rfl, hphase, hqueue, rfl⟩
  · exact ⟨_, h.push hcapacity hpush, hevicted.push h hcapacity item⟩
  · exact absurd hpush (push_ne_none (h.maxSize_eq ▸ hcapacity) _)
  · refine ⟨w, h.copyFront hphase hqueue, ?_⟩
    have hrep := h.represents
    rw [hqueue] at hrep
    have hnumber := hrep.of_cons.1
    show false = true ↔ front.number < w.lo
    simp only [Bool.false_eq_true, hnumber, lt_irrefl]
  · rw [hphase] at hevicted
    exact ⟨w, h.handlerTrue hphase, hevicted⟩
  · exact ⟨w, h.handlerFalse hphase, trivial⟩
  · exact ⟨_, (h.popFront hphase hqueue).2, trivial⟩
  · exact absurd hqueue (h.queue_ne_nil hphase)

theorem justified_push {s : Loop T} {item : T} {q : GenericRetryQueue (Numbered T)}
    (hpush : s.q.push ⟨s.pushed.length, item⟩ = some q) :
    Justified s (.push item) { s with q := q, pushed := s.pushed ++ [item] } := by
  refine ⟨fun x hx hgone => Or.inr ⟨⟨item, rfl⟩, ?_⟩, fun _ => nofun⟩
  change x ∉ q.queue at hgone
  rcases (push_eq_some hpush).2 with ⟨_, hqueue⟩ | ⟨hfull, front, rest, hold, hqueue⟩
  · exact absurd (hqueue ▸ List.mem_append_left _ hx) hgone
  · rw [hold, List.mem_cons] at hx
    rcases hx with rfl | hx
    · exact ⟨hfull, hold ▸ rfl⟩
    · exact absurd (hqueue ▸ List.mem_append_left _ hx) hgone

theorem justified_of_queue_eq {s s' : Loop T} {a : Action T} (hqueue : s'.q.queue = s.q.queue)
    (ha : a ≠ .popFront) : Justified s a s' :=
  ⟨fun _ hx hgone => absurd (hqueue ▸ hx) hgone, fun _ hpop => absurd hpop ha⟩

theorem Inv.justified_popFront_iff {s : Loop T} {w : Window capacity} (h : Inv s w)
    {item front : Numbered T} {rest : List (Numbered T)} (hphase : s.phase = .delivered item)
    (hqueue : s.q.queue = front :: rest) :
    Justified s .popFront { s with q := { s.q with queue := rest }, phase := .waiting } ↔
      ¬ item.number < w.lo := by
  obtain ⟨hflight, haccepted, _⟩ := h.phase_of_eq hphase
  have hrep := h.represents
  rw [hqueue] at hrep
  have hnumber := hrep.of_cons.1
  constructor
  · intro hjustified hlt
    have hfront := hjustified.pop item rfl hphase
    rw [hqueue, List.head?_cons, Option.some.injEq] at hfront
    rw [← hfront, hnumber] at hlt
    exact lt_irrefl _ hlt
  · intro hle
    have hsame : front = item := by
      apply eq_of_mem_numbered (hrep.mem_log List.mem_cons_self) hflight.mem_log
      have := hflight.le_lo
      omega
    refine ⟨fun x hx hgone => Or.inl ?_, fun y _ hy => ?_⟩
    · rw [hqueue, List.mem_cons] at hx
      rcases hx with rfl | hx
      · exact hsame ▸ haccepted
      · exact absurd hx hgone
    · rw [hphase, Phase.delivered.injEq] at hy
      rw [hqueue, List.head?_cons, hsame, hy]

theorem Inv.justified_iff {s s' : Loop T} {w : Window capacity} {evicted : Bool} (h : Inv s w)
    (hevicted : Evicted w evicted s.phase) (hcapacity : 0 < capacity) {a : Action T}
    (hstep : s.step a = some s') : Justified s a s' ↔ (a = .popFront → evicted = false) := by
  rcases step_cases hstep with ⟨item, q, rfl, hpush, rfl⟩ | ⟨item, rfl, hpush, rfl⟩ |
    ⟨front, rest, rfl, hphase, hqueue, rfl⟩ | ⟨item, rfl, hphase, rfl⟩ | ⟨item, rfl, hphase, rfl⟩ |
    ⟨item, front, rest, rfl, hphase, hqueue, rfl⟩ | ⟨item, rfl, hphase, hqueue, rfl⟩
  · exact ⟨fun _ => nofun, fun _ => justified_push hpush⟩
  · exact absurd hpush (push_ne_none (h.maxSize_eq ▸ hcapacity) _)
  · exact ⟨fun _ => nofun, fun _ => justified_of_queue_eq rfl nofun⟩
  · exact ⟨fun _ => nofun, fun _ => justified_of_queue_eq rfl nofun⟩
  · exact ⟨fun _ => nofun, fun _ => justified_of_queue_eq rfl nofun⟩
  · rw [hphase] at hevicted
    change evicted = true ↔ _ at hevicted
    rw [h.justified_popFront_iff hphase hqueue, ← hevicted, Bool.not_eq_true]
    exact ⟨fun hfalse _ => hfalse, fun hfalse => hfalse rfl⟩
  · exact absurd hqueue (h.queue_ne_nil hphase)

theorem along_justified_iff {s : Loop T} {w : Window capacity} {evicted : Bool} (h : Inv s w)
    (hevicted : Evicted w evicted s.phase) (hcapacity : 0 < capacity) (actions : List (Action T)) :
    Along step Justified s actions ↔ PopsUndisturbed s evicted actions := by
  induction actions generalizing s w evicted with
  | nil => exact Iff.rfl
  | cons a as ih =>
      apply forall_congr'
      intro s'
      apply forall_congr'
      intro hstep
      obtain ⟨w', h', hevicted'⟩ := h.step_evicted hevicted hcapacity hstep
      rw [h.justified_iff hevicted hcapacity hstep, ih h' hevicted']

/-- Items leave the queue for a reason in exactly the runs where no pop comes after a push that
found the queue full since the item was copied. -/
theorem removals_justified_iff (capacity : Nat) (hcapacity : 0 < capacity)
    (actions : List (Action T)) :
    Along step Justified (init T capacity) actions ↔
      PopsUndisturbed (init T capacity) false actions :=
  along_justified_iff (init_inv T capacity) trivial hcapacity actions

/-- A push that lands while the handler runs, where there is room for the item and where there is
not. -/
theorem removals_justified_iff_push_while_handling :
    Along step Justified (init Nat 2)
        [.push 7, .copyFront, .push 8, .handlerReturns true, .popFront] ∧
      ¬ Along step Justified (init Nat 1)
        [.push 7, .copyFront, .push 8, .handlerReturns true, .popFront] := by
  rw [removals_justified_iff 2 Nat.two_pos, removals_justified_iff 1 Nat.one_pos]
  constructor
  · iterate 4
      rintro _ ⟨⟩
      refine ⟨nofun, ?_⟩
    rintro _ ⟨⟩
    exact ⟨fun _ => by decide, trivial⟩
  · intro h
    have hpop := (h _ rfl).2 _ rfl |>.2 _ rfl |>.2 _ rfl |>.2 _ rfl |>.1
    exact absurd (hpop rfl) (by decide)

/-- With one slot, a push that lands while the handler runs evicts the item in flight, and the pop
drops the pushed item, which the handler has never seen. -/
theorem removals_not_always_justified :
    ¬ ∀ (T : Type) (capacity : Nat) (actions : List (Action T)) (s : Loop T), 0 < capacity →
      run step (init T capacity) actions = some s →
      Along step Justified (init T capacity) actions := by
  intro hall
  have h := hall Nat 1 [.push 7, .copyFront, .push 8, .handlerReturns true, .popFront] _
    Nat.one_pos rfl
  have hpop := (h _ rfl).2 _ rfl |>.2 _ rfl |>.2 _ rfl |>.2 _ rfl |>.1
  rcases hpop.removal ⟨1, 8⟩ (by decide) (by decide) with hmem | ⟨⟨item, hpush⟩, _⟩
  · exact absurd hmem (by decide)
  · exact nomatch hpush

end Loop

end Ticketing.Gate
