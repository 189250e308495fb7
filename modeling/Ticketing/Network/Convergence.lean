import Ticketing.Network.Reporting

/-!
# What the back office knows of a gate

The reports of a gate reach the back office in the order of its snapshots, and when its retry queue
is empty the back office has the last one. Both are read off one invariant of a gate beside the
report that is kept for it: the kept report is that of the last snapshot in the history `stored`,
the history is in order, and every snapshot the handler has returned true for is in it.
-/

namespace Ticketing.Network

open EvictingWindow StepRun BackOffice Gate

/-- What holds of a gate named `gateId` and of the reports of the back office, which held `initial`
when the gate started. -/
structure NodeInv (capacity : Nat) (gateId : String) (initial reports : Reports) (n : GateNode) :
    Prop where
  gateId_eq : n.processor.gateId = gateId
  loop : ∃ w : Window capacity, Loop.Inv n.retryQ w
  drained : 2 ≤ capacity → Loop.Drained n.retryQ
  stored_called : ∀ x ∈ n.stored, x ∈ n.retryQ.called
  stored_sorted : n.stored.Pairwise (·.number ≤ ·.number)
  accepted_stored : ∀ x ∈ n.retryQ.accepted, x ∈ n.stored
  answer_stored : ∀ item status, n.retryQ.phase = .handling item → n.answer = some status →
    status.code = .ok → item ∈ n.stored
  report_eq : reports gateId =
    (n.stored.getLast?.map fun x => validationReport gateId x.value).or (initial gateId)

variable {capacity : Nat} {gateId : String} {initial reports : Reports} {n n' : GateNode}

theorem NodeInv.init (capacity : Nat) (gateId : String) (initial : Reports) :
    NodeInv capacity gateId initial initial (GateNode.init gateId capacity) where
  gateId_eq := rfl
  loop := ⟨_, Loop.init_inv ValidationStats capacity⟩
  drained := fun _ _ _ hx => absurd hx List.not_mem_nil
  stored_called := fun _ hx => absurd hx List.not_mem_nil
  stored_sorted := List.Pairwise.nil
  accepted_stored := fun _ hx => absurd hx List.not_mem_nil
  answer_stored := fun _ _ hphase => nomatch hphase
  report_eq := rfl

theorem NodeInv.of_reports_eq (h : NodeInv capacity gateId initial reports n) {reports' : Reports}
    (heq : reports' gateId = reports gateId) : NodeInv capacity gateId initial reports' n :=
  { h with report_eq := heq.trans h.report_eq }

/-! ### The steps of one gate -/

theorem NodeInv.record (h : NodeInv capacity gateId initial reports n) (hcapacity : 0 < capacity)
    {v : TicketValidation} (hstep : n.record v = some n') :
    NodeInv capacity gateId initial reports n' := by
  obtain ⟨q, hq, rfl⟩ := Option.map_eq_some_iff.mp hstep
  obtain ⟨w, hloop⟩ := h.loop
  have hphase : q.called = n.retryQ.called ∧ q.accepted = n.retryQ.accepted ∧
      q.phase = n.retryQ.phase := by
    rcases Loop.step_push hq with ⟨q', _, rfl⟩ | ⟨hpush, _⟩
    · exact ⟨rfl, rfl, rfl⟩
    · exact absurd hpush (Loop.push_ne_none (hloop.maxSize_eq ▸ hcapacity) _)
  obtain ⟨hcalled, haccepted, hphase⟩ := hphase
  exact {
    gateId_eq := h.gateId_eq
    loop := hloop.step hcapacity hq
    drained := fun htwo => hloop.drained_step htwo hq
    stored_called := fun x hx => hcalled ▸ h.stored_called x hx
    stored_sorted := h.stored_sorted
    accepted_stored := fun x hx => h.accepted_stored x (haccepted ▸ hx)
    answer_stored := fun item status hitem => h.answer_stored item status (hphase ▸ hitem)
    report_eq := h.report_eq }

theorem NodeInv.copyFront (h : NodeInv capacity gateId initial reports n) (hcapacity : 0 < capacity)
    (hstep : n.copyFront = some n') : NodeInv capacity gateId initial reports n' := by
  obtain ⟨q, hq, rfl⟩ := Option.map_eq_some_iff.mp hstep
  obtain ⟨w, hloop⟩ := h.loop
  have hcalls : (∀ x ∈ n.retryQ.called, x ∈ q.called) ∧ q.accepted = n.retryQ.accepted := by
    obtain ⟨front, rest, _, _, rfl⟩ := Loop.step_copyFront hq
    exact ⟨fun x hx => List.mem_append_left _ hx, rfl⟩
  exact {
    gateId_eq := h.gateId_eq
    loop := hloop.step hcapacity hq
    drained := fun htwo => hloop.drained_step htwo hq
    stored_called := fun x hx => hcalls.1 x (h.stored_called x hx)
    stored_sorted := h.stored_sorted
    accepted_stored := fun x hx => h.accepted_stored x (hcalls.2 ▸ hx)
    answer_stored := fun _ _ _ hanswer => nomatch hanswer
    report_eq := h.report_eq }

/-- The answer to the call in flight: the back office keeps the report of the snapshot, unless it
refuses it. -/
theorem NodeInv.answered (h : NodeInv capacity gateId initial reports n) {reports' : Reports}
    (hstep : n.answered reports = some (n', reports')) :
    NodeInv capacity gateId initial reports' n' := by
  obtain ⟨item, status, hphase, hstatus, rfl, rfl⟩ := GateNode.answered_cases hstep
  obtain ⟨w, hloop⟩ := h.loop
  obtain ⟨hflight, _⟩ := hloop.phase_of_eq hphase
  by_cases hok : status.code = .ok
  · simp only [if_pos hok]
    refine ⟨h.gateId_eq, h.loop, h.drained, ?_, ?_, ?_, ?_, ?_⟩
    · intro x hx
      rcases List.mem_append.mp hx with hx | hx
      · exact h.stored_called x hx
      · exact List.mem_singleton.mp hx ▸ hflight.mem_called
    · refine List.pairwise_append.mpr ⟨h.stored_sorted, List.pairwise_singleton _ _, ?_⟩
      intro x hx y hy
      rw [List.mem_singleton.mp hy]
      exact hflight.called_le x (h.stored_called x hx)
    · exact fun x hx => List.mem_append_left _ (h.accepted_stored x hx)
    · intro item' status' hitem' _ _
      rw [hphase, Phase.handling.injEq] at hitem'
      exact hitem' ▸ List.mem_append_right _ List.mem_cons_self
    · have hself := submitReport_self (hstatus ▸ hok)
      simp only [List.getLast?_append, List.getLast?_singleton, Option.some_or, Option.map_some]
      rw [← h.gateId_eq]
      exact hself
  · simp only [if_neg hok]
    refine ⟨h.gateId_eq, h.loop, h.drained, h.stored_called, h.stored_sorted, h.accepted_stored,
      ?_, ?_⟩
    · intro item' status' _ hanswer hcode
      exact absurd (Option.some.inj hanswer ▸ hcode) hok
    · rw [submitReport_refused (hstatus ▸ hok)]
      exact h.report_eq

theorem NodeInv.callReturns (h : NodeInv capacity gateId initial reports n)
    (hcapacity : 0 < capacity) {ok : Bool} (hstep : n.callReturns ok = some n') :
    NodeInv capacity gateId initial reports n' := by
  unfold GateNode.callReturns at hstep
  split at hstep
  · exact nomatch hstep
  · rename_i hanswer
    obtain ⟨q, hq, rfl⟩ := Option.map_eq_some_iff.mp hstep
    obtain ⟨w, hloop⟩ := h.loop
    have hcalls : q.called = n.retryQ.called ∧ (∀ item, q.phase ≠ .handling item) ∧
        ∀ x ∈ q.accepted, x ∈ n.stored := by
      cases ok with
      | true =>
          obtain ⟨item, hphase, rfl⟩ := Loop.step_handlerTrue hq
          refine ⟨rfl, fun _ => nofun, fun x hx => ?_⟩
          have hcode : n.answer.map Status.code = some .ok := by
            by_contra hno
            exact hanswer ⟨rfl, hno⟩
          obtain ⟨status, hstatus, hcode⟩ := Option.map_eq_some_iff.mp hcode
          rcases List.mem_append.mp hx with hx | hx
          · exact h.accepted_stored x hx
          · exact List.mem_singleton.mp hx ▸ h.answer_stored item status hphase hstatus hcode
      | false =>
          obtain ⟨item, _, rfl⟩ := Loop.step_handlerFalse hq
          exact ⟨rfl, fun _ => nofun, h.accepted_stored⟩
    exact {
      gateId_eq := h.gateId_eq
      loop := hloop.step hcapacity hq
      drained := fun htwo => hloop.drained_step htwo hq
      stored_called := fun x hx => hcalls.1 ▸ h.stored_called x hx
      stored_sorted := h.stored_sorted
      accepted_stored := hcalls.2.2
      answer_stored := fun item _ hitem => absurd hitem (hcalls.2.1 item)
      report_eq := h.report_eq }

theorem NodeInv.popFront (h : NodeInv capacity gateId initial reports n) (hcapacity : 0 < capacity)
    (hstep : n.popFront = some n') : NodeInv capacity gateId initial reports n' := by
  obtain ⟨q, hq, rfl⟩ := Option.map_eq_some_iff.mp hstep
  obtain ⟨w, hloop⟩ := h.loop
  have hcalls : q.called = n.retryQ.called ∧ q.accepted = n.retryQ.accepted ∧
      ∀ item, q.phase ≠ .handling item := by
    obtain ⟨item, _, ⟨front, rest, _, rfl⟩ | ⟨_, rfl⟩⟩ := Loop.step_popFront hq
    · exact ⟨rfl, rfl, fun _ => nofun⟩
    · exact ⟨rfl, rfl, fun _ => nofun⟩
  exact {
    gateId_eq := h.gateId_eq
    loop := hloop.step hcapacity hq
    drained := fun htwo => hloop.drained_step htwo hq
    stored_called := fun x hx => hcalls.1 ▸ h.stored_called x hx
    stored_sorted := h.stored_sorted
    accepted_stored := fun x hx => h.accepted_stored x (hcalls.2.1 ▸ hx)
    answer_stored := fun item _ hitem => absurd hitem (hcalls.2.2 item)
    report_eq := h.report_eq }

/-! ### Runs of the whole network -/

variable {GateName : Type*} [DecidableEq GateName] {ids : GateName → String}

/-- Every gate is as it should be, and no two share a name. -/
theorem nodeInv_step (hcapacity : 0 < capacity) (hids : Function.Injective ids)
    {s s' : State GateName} {e : Event GateName}
    (h : ∀ g, NodeInv capacity (ids g) initial s.reports (s.gates g)) (hstep : step s e = some s') :
    ∀ g, NodeInv capacity (ids g) initial s'.reports (s'.gates g) := by
  rcases step_cases hstep with ⟨g, n, rfl, hn⟩ | ⟨g, n, reports', rfl, hn⟩
  · refine State.forall_gates_setGate (P := fun g n => NodeInv capacity (ids g) initial s.reports n)
      ?_ fun g' _ => h g'
    rcases hn with ⟨v, hn⟩ | hn | ⟨ok, hn⟩ | hn
    · exact (h g).record hcapacity hn
    · exact (h g).copyFront hcapacity hn
    · exact (h g).callReturns hcapacity hn
    · exact (h g).popFront hcapacity hn
  · refine State.forall_gates_setGate (P := fun g n => NodeInv capacity (ids g) initial reports' n)
      ((h g).answered hn) fun g' hne => (h g').of_reports_eq ?_
    obtain ⟨item, status, -, -, rfl, -⟩ := GateNode.answered_cases hn
    apply submitReport_of_ne
    rw [validationReport, (h g).gateId_eq]
    exact fun heq => hne (hids heq)

theorem nodeInv_of_run (hcapacity : 0 < capacity) (hids : Function.Injective ids)
    {s : State GateName} {events : List (Event GateName)}
    (hrun : run step (init ids capacity initial) events = some s) :
    ∀ g, NodeInv capacity (ids g) initial s.reports (s.gates g) :=
  invariant_of_run step
    (I := fun s => ∀ g, NodeInv capacity (ids g) initial s.reports (s.gates g))
    (fun _ _ _ h hstep => nodeInv_step hcapacity hids h hstep)
    (fun g => NodeInv.init capacity (ids g) initial) hrun

theorem number_le_of_getLast? {l : List (Numbered ValidationStats)}
    (hsorted : l.Pairwise (·.number ≤ ·.number)) {x last : Numbered ValidationStats} (hx : x ∈ l)
    (hlast : l.getLast? = some last) : x.number ≤ last.number := by
  obtain ⟨front, rfl⟩ := List.getLast?_eq_some_iff.mp hlast
  rcases List.mem_append.mp hx with hx | hx
  · exact (List.pairwise_append.mp hsorted).2.2 x hx last List.mem_cons_self
  · exact (congrArg Numbered.number (List.mem_singleton.mp hx)).le

theorem NodeInv.stored_mem (h : NodeInv capacity gateId initial reports n)
    {x : Numbered ValidationStats} (hx : x ∈ n.stored) : x ∈ numbered n.retryQ.pushed := by
  obtain ⟨w, hloop⟩ := h.loop
  exact hloop.called_mem x (h.stored_called x hx)

theorem NodeInv.getLast?_stored (h : NodeInv capacity gateId initial reports n)
    (hcapacity : 2 ≤ capacity) (hempty : n.retryQ.q.queue = []) {last : ValidationStats}
    (hlast : n.retryQ.pushed.getLast? = some last) :
    n.stored.getLast?.map Numbered.value = some last := by
  obtain ⟨front, hpushed⟩ := List.getLast?_eq_some_iff.mp hlast
  have hmem : (⟨front.length, last⟩ : Numbered ValidationStats) ∈ numbered n.retryQ.pushed := by
    rw [hpushed, numbered_concat]
    exact List.mem_append_right _ List.mem_cons_self
  have hlength : n.retryQ.pushed.length = front.length + 1 := by
    rw [hpushed, List.length_append, List.length_singleton]
  have hstored := h.accepted_stored _ (h.drained hcapacity hempty _ hmem hlength.symm)
  obtain ⟨y, hy⟩ : ∃ y, n.stored.getLast? = some y :=
    ⟨_, List.getLast?_eq_some_getLast (List.ne_nil_of_mem hstored)⟩
  have hymem := h.stored_mem (List.mem_of_getLast? hy)
  have hle := number_le_of_getLast? h.stored_sorted hstored hy
  have hlt := number_lt_of_mem_numbered hymem
  have hsame : (⟨front.length, last⟩ : Numbered ValidationStats) = y := by
    apply eq_of_mem_numbered hmem hymem
    dsimp only at hle ⊢
    omega
  rw [hy, ← hsame, Option.map_some]

/-- Gate statistics converge: whenever a gate that has pushed a snapshot has an empty retry queue,
the report kept for it carries the counts of the last snapshot. -/
theorem report_of_empty_queue (ids : GateName → String) (hids : Function.Injective ids)
    (initial : Reports) (events : List (Event GateName)) (s : State GateName)
    (hrun : run step (init ids maxSizeOfValidationQ initial) events = some s) (g : GateName)
    (last : ValidationStats) (hlast : (s.gates g).retryQ.pushed.getLast? = some last)
    (hempty : (s.gates g).retryQ.q.queue = []) :
    ∃ report, s.reports (ids g) = some report ∧ report.machineId = ids g ∧
      report.totalProcessed = last.total.toInt32 ∧ report.validCount = last.valid.toInt32 ∧
      report.invalidCount = last.invalid.toInt32 := by
  have hcapacity : 0 < maxSizeOfValidationQ := by decide
  have hnode := nodeInv_of_run hcapacity hids hrun g
  obtain ⟨x, hx, hvalue⟩ :=
    Option.map_eq_some_iff.mp (hnode.getLast?_stored (by decide) hempty hlast)
  refine ⟨validationReport (ids g) last, ?_, rfl, rfl, rfl, rfl⟩
  rw [hnode.report_eq, hx, Option.map_some, Option.some_or, hvalue]

def twoGates (b : Bool) : String := if b then "GATE-1" else "GATE-2"

theorem twoGates_injective : Function.Injective twoGates := by
  intro a b
  cases a <;> cases b <;> simp [twoGates]

/-- Both gates record a transaction and the first one delivers its snapshot. -/
def oneDelivery : List (Event Bool) :=
  [.record true ⟨ascii "a", .online, .valid, 0⟩, .copyFront true, .answer true,
    .record false ⟨ascii "b", .offline, .invalid, 0⟩, .callReturns true true, .copyFront false,
    .popFront true]

theorem report_of_empty_queue_two_gates :
    ∃ s, run step (init twoGates maxSizeOfValidationQ fun _ => none) oneDelivery = some s ∧
      ∃ report, s.reports "GATE-1" = some report ∧ report.machineId = "GATE-1" ∧
        report.totalProcessed = 1 ∧ report.validCount = 1 ∧ report.invalidCount = 0 :=
  ⟨_, rfl, report_of_empty_queue twoGates twoGates_injective (fun _ => none) oneDelivery _ rfl true
    ⟨1, 1, 0, 1, 0⟩ rfl rfl⟩

/-! ### The order of the reports -/

theorem stored_prefix_step {s s' : State GateName} {e : Event GateName}
    (hstep : step s e = some s') (g : GateName) : (s.gates g).stored <+: (s'.gates g).stored := by
  rcases step_cases hstep with ⟨g', n, rfl, hn⟩ | ⟨g', n, reports', rfl, hn⟩
  · refine State.forall_gates_setGate (P := fun g n => (s.gates g).stored <+: n.stored) ?_
      (fun g' _ => List.prefix_rfl) g
    exact GateNode.stored_eq_of_own_step hn ▸ List.prefix_rfl
  · refine State.forall_gates_setGate (P := fun g n => (s.gates g).stored <+: n.stored) ?_
      (fun g' _ => List.prefix_rfl) g
    obtain ⟨item, status, -, -, -, rfl⟩ := GateNode.answered_cases hn
    dsimp only
    split
    · exact List.prefix_append _ _
    · exact List.prefix_rfl

theorem stored_prefix_run {s t : State GateName} {events : List (Event GateName)}
    (hrun : run step s events = some t) (g : GateName) :
    (s.gates g).stored <+: (t.gates g).stored :=
  invariant_of_run step (I := fun t => (s.gates g).stored <+: (t.gates g).stored)
    (fun _ _ _ h hstep => h.trans (stored_prefix_step hstep g)) List.prefix_rfl hrun

/-- The handler is called with the items in the order of the pushes and returns true at most once
for each, for any results. So the report of a gate always stems from one of its snapshots, and never
from an earlier one than a report that was kept before. -/
theorem reports_in_order (capacity : Nat) (hcapacity : 0 < capacity) :
    (∀ (T : Type) (actions : List (Action T)) (s : Loop T),
      run Loop.step (Loop.init T capacity) actions = some s →
      (∀ x ∈ s.called, s.pushed[x.number]? = some x.value) ∧
        s.called.Pairwise (·.number ≤ ·.number) ∧
        (∀ x ∈ s.accepted, x ∈ s.called) ∧ s.accepted.Pairwise (·.number < ·.number)) ∧
    ∀ (GateName : Type) [DecidableEq GateName] (ids : GateName → String)
      (events : List (Event GateName)) (s : State GateName) (g : GateName),
      Function.Injective ids → run step (init ids capacity fun _ => none) events = some s →
      s.reports (ids g) =
          (s.gates g).stored.getLast?.map (fun x => validationReport (ids g) x.value) ∧
        (∀ x ∈ (s.gates g).stored, (s.gates g).retryQ.pushed[x.number]? = some x.value) ∧
        ∀ (later : List (Event GateName)) (t : State GateName), run step s later = some t →
          ∀ x, (s.gates g).stored.getLast? = some x →
            ∃ y, (t.gates g).stored.getLast? = some y ∧ x.number ≤ y.number ∧
              t.reports (ids g) = some (validationReport (ids g) y.value) := by
  constructor
  · intro T actions s hrun
    obtain ⟨w, h⟩ := Loop.inv_of_run hcapacity hrun
    exact ⟨fun x hx => mem_numbered_iff.mp (h.called_mem x hx), h.called_sorted, h.accepted_mem,
      h.accepted_sorted⟩
  · intro GateName _ ids events s g hids hrun
    have hnode := nodeInv_of_run hcapacity hids hrun g
    refine ⟨hnode.report_eq.trans Option.or_none,
      fun x hx => mem_numbered_iff.mp (hnode.stored_mem hx), ?_⟩
    intro later t hlater x hx
    have hrun' : run step (init ids capacity fun _ => none) (events ++ later) = some t :=
      (run_append step).mpr ⟨s, hrun, hlater⟩
    have hnode' := nodeInv_of_run hcapacity hids hrun' g
    have hmem : x ∈ (t.gates g).stored :=
      (stored_prefix_run hlater g).subset (List.mem_of_getLast? hx)
    obtain ⟨y, hy⟩ : ∃ y, (t.gates g).stored.getLast? = some y :=
      ⟨_, List.getLast?_eq_some_getLast (List.ne_nil_of_mem hmem)⟩
    refine ⟨y, hy, number_le_of_getLast? hnode'.stored_sorted hmem hy, ?_⟩
    rw [hnode'.report_eq, hy, Option.map_some, Option.some_or]

def oneMore : List (Event Bool) :=
  [.record true ⟨ascii "c", .offline, .valid, 1⟩, .copyFront true, .answer true,
    .callReturns true false]

theorem reports_in_order_one_slot :
    (∃ s, run Loop.step (Loop.init Nat 1)
        [.push 7, .copyFront, .push 8, .handlerReturns true, .popFront, .push 9, .copyFront] =
          some s ∧
      s.called.Pairwise (·.number ≤ ·.number) ∧ s.accepted.Pairwise (·.number < ·.number)) ∧
    ∃ s t, run step (init twoGates 1 fun _ => none) oneDelivery = some s ∧
      run step s oneMore = some t ∧
      ∃ y, (t.gates true).stored.getLast? = some y ∧ 0 ≤ y.number ∧
        t.reports "GATE-1" = some (validationReport "GATE-1" y.value) := by
  constructor
  · refine ⟨_, rfl, ?_⟩
    have h := (reports_in_order 1 Nat.one_pos).1 Nat
      [.push 7, .copyFront, .push 8, .handlerReturns true, .popFront, .push 9, .copyFront] _ rfl
    exact ⟨h.2.1, h.2.2.2⟩
  · refine ⟨_, _, rfl, rfl, ?_⟩
    have h := (reports_in_order 1 Nat.one_pos).2 Bool twoGates oneDelivery _ true
      twoGates_injective rfl
    exact h.2.2 oneMore _ rfl ⟨0, 1, 1, 0, 1, 0⟩ rfl

end Ticketing.Network
