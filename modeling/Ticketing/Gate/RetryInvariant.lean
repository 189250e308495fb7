import Ticketing.Gate.RetryQueue

/-!
# What holds in every state of the retry queue

The queue is a window of the log of pushes, `EvictingWindow.Represents`, and the position of the
item that the thread in `run` has in flight is known relative to that window. The item was the front
when it was copied. It is still the front unless a push has found the queue full since, and then it
is older than the front and the queue has stayed full: nothing but the thread in `run` itself
shortens the queue. Order, boundedness and the fate of every single item follow from this.
-/

namespace Ticketing.Gate

open EvictingWindow StepRun

namespace Loop

variable {T : Type*} {capacity : Nat}

/-- An item that the thread in `run` has copied and not yet dealt with. -/
structure InFlight (pushed : List T) (called : List (Numbered T)) (w : Window capacity)
    (item : Numbered T) : Prop where
  mem_log : item ∈ numbered pushed
  mem_called : item ∈ called
  le_lo : item.number ≤ w.lo
  nonempty : w.lo < w.hi
  full_of_lt : item.number < w.lo → w.hi - w.lo = capacity
  called_le : ∀ x ∈ called, x.number ≤ item.number

/-- What the position of the thread in `run` says about the calls made so far. -/
def PhaseInv (pushed : List T) (called accepted : List (Numbered T)) (w : Window capacity) :
    Phase (Numbered T) → Prop
  | .waiting => (∀ x ∈ called, x.number ≤ w.lo) ∧ ∀ x ∈ accepted, x.number < w.lo
  | .handling item =>
      InFlight pushed called w item ∧ ∀ x ∈ accepted, x.number < item.number
  | .delivered item =>
      InFlight pushed called w item ∧ item ∈ accepted ∧ ∀ x ∈ accepted, x.number ≤ item.number
  | .undefined => False

structure Inv (s : Loop T) (w : Window capacity) : Prop where
  maxSize_eq : s.q.maxSize = capacity
  represents : Represents s.q.queue s.pushed w
  called_mem : ∀ x ∈ s.called, x ∈ numbered s.pushed
  called_sorted : s.called.Pairwise (·.number ≤ ·.number)
  accepted_mem : ∀ x ∈ s.accepted, x ∈ s.called
  accepted_sorted : s.accepted.Pairwise (·.number < ·.number)
  phase : PhaseInv s.pushed s.called s.accepted w s.phase

theorem Inv.phase_of_eq {s : Loop T} {w : Window capacity} (h : Inv s w)
    {phase : Phase (Numbered T)} (hphase : s.phase = phase) :
    PhaseInv s.pushed s.called s.accepted w phase :=
  hphase ▸ h.phase

theorem init_inv (T : Type*) (capacity : Nat) :
    Inv (init T capacity) (Window.empty capacity) where
  maxSize_eq := rfl
  represents := Represents.empty capacity
  called_mem := by simp [init]
  called_sorted := List.Pairwise.nil
  accepted_mem := by simp [init]
  accepted_sorted := List.Pairwise.nil
  phase := by simp [init, PhaseInv]

/-! ### Pushes

A push changes the window and nothing about the calls, whatever the thread in `run` is doing. -/

theorem InFlight.push {pushed : List T} {called : List (Numbered T)} {w : Window capacity}
    {item : Numbered T} (h : InFlight pushed called w item) (hcapacity : 0 < capacity) (x : T) :
    InFlight (pushed ++ [x]) called (w.insert hcapacity) item where
  mem_log := mem_numbered_concat_of_mem h.mem_log
  mem_called := h.mem_called
  le_lo := h.le_lo.trans (w.lo_le_insert_lo hcapacity)
  nonempty := w.insert_nonempty hcapacity
  full_of_lt := by
    intro hlt
    have hsize := w.size_le
    by_cases hfull : capacity ≤ w.hi - w.lo
    · rw [w.insert_lo_of_full hcapacity hfull, w.insert_hi hcapacity]
      omega
    · rw [w.insert_lo_of_room hcapacity hfull] at hlt
      have := h.full_of_lt hlt
      omega
  called_le := h.called_le

theorem PhaseInv.push {pushed : List T} {called accepted : List (Numbered T)} {w : Window capacity}
    {phase : Phase (Numbered T)} (h : PhaseInv pushed called accepted w phase)
    (hcapacity : 0 < capacity) (x : T) :
    PhaseInv (pushed ++ [x]) called accepted (w.insert hcapacity) phase := by
  have hlo := w.lo_le_insert_lo hcapacity
  cases phase with
  | waiting => exact ⟨fun y hy => (h.1 y hy).trans hlo, fun y hy => (h.2 y hy).trans_le hlo⟩
  | handling item => exact ⟨h.1.push hcapacity x, h.2⟩
  | delivered item => exact ⟨h.1.push hcapacity x, h.2⟩
  | undefined => exact h

theorem Inv.push {s : Loop T} {w : Window capacity} (h : Inv s w) (hcapacity : 0 < capacity)
    {item : T} {q : GenericRetryQueue (Numbered T)}
    (hpush : s.q.push ⟨s.pushed.length, item⟩ = some q) :
    Inv { s with q := q, pushed := s.pushed ++ [item] } (w.insert hcapacity) := by
  obtain ⟨hmax, hcases⟩ := push_eq_some hpush
  refine ⟨hmax.trans h.maxSize_eq, ?_, fun x hx => mem_numbered_concat_of_mem (h.called_mem x hx),
    h.called_sorted, h.accepted_mem, h.accepted_sorted, h.phase.push hcapacity item⟩
  rw [h.maxSize_eq] at hcases
  have hrep := h.represents
  rcases hcases with ⟨hroom, hqueue⟩ | ⟨hfull, front, rest, hold, hqueue⟩
  · change Represents q.queue (s.pushed ++ [item]) _
    rw [hqueue]
    exact hrep.insert_of_room hcapacity hroom item
  · change Represents q.queue (s.pushed ++ [item]) _
    rw [hold] at hrep hfull
    rw [hqueue]
    exact hrep.insert_of_full hcapacity hfull item

theorem push_eq_none_iff {q : GenericRetryQueue T} {item : T} :
    q.push item = none ↔ q.maxSize = 0 ∧ q.queue = [] := by
  unfold GenericRetryQueue.push GenericRetryQueue.pop
  cases hqueue : q.queue with
  | nil => simp
  | cons front rest => split <;> simp

theorem push_ne_none {q : GenericRetryQueue T} (hcapacity : 0 < q.maxSize) (item : T) :
    q.push item ≠ none :=
  fun hnone => hcapacity.ne' (push_eq_none_iff.mp hnone).1

/-! ### The steps of the thread in `run` -/

theorem Inv.copyFront {s : Loop T} {w : Window capacity} (h : Inv s w) {front : Numbered T}
    {rest : List (Numbered T)} (hphase : s.phase = .waiting) (hqueue : s.q.queue = front :: rest) :
    Inv { s with phase := .handling front, called := s.called ++ [front] } w := by
  have hrep := h.represents
  obtain ⟨hcalled, haccepted⟩ := h.phase_of_eq hphase
  rw [hqueue] at hrep
  obtain ⟨hnumber, hlt, _⟩ := hrep.of_cons
  have hmem : front ∈ numbered s.pushed := hrep.mem_log List.mem_cons_self
  refine ⟨h.maxSize_eq, h.represents, ?_, ?_, ?_, h.accepted_sorted, ⟨?_, ?_⟩⟩
  · intro x hx
    rcases List.mem_append.mp hx with hx | hx
    · exact h.called_mem x hx
    · exact List.mem_singleton.mp hx ▸ hmem
  · refine List.pairwise_append.mpr ⟨h.called_sorted, List.pairwise_singleton _ _, ?_⟩
    intro x hx y hy
    rw [List.mem_singleton.mp hy, hnumber]
    exact hcalled x hx
  · exact fun x hx => List.mem_append_left _ (h.accepted_mem x hx)
  · refine ⟨hmem, List.mem_append_right _ List.mem_cons_self, hnumber.le, hlt,
      fun hold => absurd hold (by omega), ?_⟩
    intro x hx
    rcases List.mem_append.mp hx with hx | hx
    · exact hnumber ▸ hcalled x hx
    · exact (congrArg Numbered.number (List.mem_singleton.mp hx)).le
  · exact fun x hx => hnumber ▸ haccepted x hx

theorem Inv.handlerTrue {s : Loop T} {w : Window capacity} (h : Inv s w) {item : Numbered T}
    (hphase : s.phase = .handling item) :
    Inv { s with phase := .delivered item, accepted := s.accepted ++ [item] } w := by
  obtain ⟨hflight, haccepted⟩ := h.phase_of_eq hphase
  refine ⟨h.maxSize_eq, h.represents, h.called_mem, h.called_sorted, ?_, ?_,
    ⟨hflight, List.mem_append_right _ List.mem_cons_self, ?_⟩⟩
  · intro x hx
    rcases List.mem_append.mp hx with hx | hx
    · exact h.accepted_mem x hx
    · exact List.mem_singleton.mp hx ▸ hflight.mem_called
  · refine List.pairwise_append.mpr ⟨h.accepted_sorted, List.pairwise_singleton _ _, ?_⟩
    intro x hx y hy
    rw [List.mem_singleton.mp hy]
    exact haccepted x hx
  · intro x hx
    rcases List.mem_append.mp hx with hx | hx
    · exact (haccepted x hx).le
    · exact (congrArg Numbered.number (List.mem_singleton.mp hx)).le

theorem Inv.handlerFalse {s : Loop T} {w : Window capacity} (h : Inv s w) {item : Numbered T}
    (hphase : s.phase = .handling item) : Inv { s with phase := .waiting } w := by
  obtain ⟨hflight, haccepted⟩ := h.phase_of_eq hphase
  exact ⟨h.maxSize_eq, h.represents, h.called_mem, h.called_sorted, h.accepted_mem,
    h.accepted_sorted, fun x hx => (hflight.called_le x hx).trans hflight.le_lo,
    fun x hx => (haccepted x hx).trans_le hflight.le_lo⟩

/-- The pop takes the front, which may be younger than the item that was delivered. -/
theorem Inv.popFront {s : Loop T} {w : Window capacity} (h : Inv s w) {item front : Numbered T}
    {rest : List (Numbered T)} (hphase : s.phase = .delivered item)
    (hqueue : s.q.queue = front :: rest) :
    ∃ hnonempty : w.lo < w.hi,
      Inv { s with q := { s.q with queue := rest }, phase := .waiting } (w.remove hnonempty) := by
  obtain ⟨hflight, _, haccepted⟩ := h.phase_of_eq hphase
  have hrep := h.represents
  rw [hqueue] at hrep
  have hle := hflight.le_lo
  refine ⟨hflight.nonempty, h.maxSize_eq, hrep.remove, h.called_mem, h.called_sorted,
    h.accepted_mem, h.accepted_sorted, ?_, ?_⟩
  · intro x hx
    have := hflight.called_le x hx
    rw [Window.remove_lo]
    omega
  · intro x hx
    have := haccepted x hx
    rw [Window.remove_lo]
    omega

/-- The pop after a successful call finds an item, although nobody looks again. -/
theorem Inv.queue_ne_nil {s : Loop T} {w : Window capacity} (h : Inv s w) {item : Numbered T}
    (hphase : s.phase = .delivered item) : s.q.queue ≠ [] := by
  obtain ⟨hflight, _⟩ := h.phase_of_eq hphase
  exact h.represents.ne_nil_iff.mpr hflight.nonempty

/-- The handler has returned true for the last item pushed, as soon as the queue is empty. -/
def Drained (s : Loop T) : Prop :=
  s.q.queue = [] → ∀ x ∈ numbered s.pushed, x.number + 1 = s.pushed.length → x ∈ s.accepted

/-- The pop that empties the queue takes the delivered item, if there is room for two: an item that
was evicted in flight leaves the queue full behind it. -/
theorem Inv.drained_popFront {s : Loop T} {w : Window capacity} (h : Inv s w)
    (hcapacity : 2 ≤ capacity) {item front : Numbered T} {rest : List (Numbered T)}
    (hphase : s.phase = .delivered item) (hqueue : s.q.queue = front :: rest) :
    Drained { s with q := { s.q with queue := rest }, phase := .waiting } := by
  obtain ⟨hflight, haccepted, _⟩ := h.phase_of_eq hphase
  have hlength := h.represents.length_eq
  have hhi := h.represents.hi_eq
  have hle := hflight.le_lo
  have hfull := hflight.full_of_lt
  intro hempty x hx hlast
  change rest = [] at hempty
  change x.number + 1 = s.pushed.length at hlast
  rw [hqueue, hempty, List.length_singleton] at hlength
  have hsame : x = item := by
    apply eq_of_mem_numbered hx hflight.mem_log
    by_cases hlt : item.number < w.lo
    · have := hfull hlt
      omega
    · omega
  exact hsame ▸ haccepted

theorem Inv.drained_step {s s' : Loop T} {w : Window capacity} (h : Inv s w)
    (hcapacity : 2 ≤ capacity) {a : Action T} (hstep : s.step a = some s') : Drained s' := by
  have hcapacity' : 0 < capacity := Nat.lt_of_lt_of_le Nat.two_pos hcapacity
  rcases step_cases hstep with ⟨item, q, rfl, hpush, rfl⟩ | ⟨item, rfl, hpush, rfl⟩ |
    ⟨front, rest, rfl, hphase, hqueue, rfl⟩ | ⟨item, rfl, hphase, rfl⟩ | ⟨item, rfl, hphase, rfl⟩ |
    ⟨item, front, rest, rfl, hphase, hqueue, rfl⟩ | ⟨item, rfl, hphase, hqueue, rfl⟩
  · intro hempty
    have hrep := (h.push hcapacity' hpush).represents
    exact absurd hempty (hrep.ne_nil_iff.mpr (w.insert_nonempty hcapacity'))
  · exact absurd hpush (push_ne_none (h.maxSize_eq ▸ hcapacity') _)
  · intro hempty
    exact absurd (hqueue.symm.trans hempty) (List.cons_ne_nil _ _)
  · intro hempty
    obtain ⟨hflight, _⟩ := h.phase_of_eq hphase
    exact absurd hempty (h.represents.ne_nil_iff.mpr hflight.nonempty)
  · intro hempty
    obtain ⟨hflight, _⟩ := h.phase_of_eq hphase
    exact absurd hempty (h.represents.ne_nil_iff.mpr hflight.nonempty)
  · exact h.drained_popFront hcapacity hphase hqueue
  · exact absurd hqueue (h.queue_ne_nil hphase)

/-! ### Runs -/

theorem Inv.step {s s' : Loop T} {w : Window capacity} (h : Inv s w) (hcapacity : 0 < capacity)
    {a : Action T} (hstep : s.step a = some s') : ∃ w' : Window capacity, Inv s' w' := by
  rcases step_cases hstep with ⟨item, q, rfl, hpush, rfl⟩ | ⟨item, rfl, hpush, rfl⟩ |
    ⟨front, rest, rfl, hphase, hqueue, rfl⟩ | ⟨item, rfl, hphase, rfl⟩ | ⟨item, rfl, hphase, rfl⟩ |
    ⟨item, front, rest, rfl, hphase, hqueue, rfl⟩ | ⟨item, rfl, hphase, hqueue, rfl⟩
  · exact ⟨_, h.push hcapacity hpush⟩
  · exact absurd hpush (push_ne_none (h.maxSize_eq ▸ hcapacity) _)
  · exact ⟨w, h.copyFront hphase hqueue⟩
  · exact ⟨w, h.handlerTrue hphase⟩
  · exact ⟨w, h.handlerFalse hphase⟩
  · exact ⟨_, (h.popFront hphase hqueue).2⟩
  · exact absurd hqueue (h.queue_ne_nil hphase)

theorem inv_of_run {actions : List (Action T)} {s : Loop T} (hcapacity : 0 < capacity)
    (hrun : run step (init T capacity) actions = some s) : ∃ w : Window capacity, Inv s w :=
  invariant_of_run step (I := fun s => ∃ w : Window capacity, Inv s w)
    (fun _ _ _ ⟨_, h⟩ hstep => h.step hcapacity hstep) ⟨_, init_inv T capacity⟩ hrun

end Loop

end Ticketing.Gate
