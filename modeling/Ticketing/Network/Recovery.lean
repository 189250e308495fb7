import Ticketing.Network.Restarts

/-!
# How the back office learns the truth again

Four steps take a snapshot from the retry queue of a gate to the back office, and each failure adds
three. After a finite number of failures a gate that records nothing more comes to rest, and it
rests only at an empty queue. If the gate has recorded a validation since it and the back office were
last started, and since a call that the gate had given up was last run after all, the report that is
kept then counts all the validations of the gate, whatever has happened before and whatever the
other gates go through meanwhile.
-/

namespace Ticketing.Network

open EvictingWindow StepRun BackOffice Gate

variable {GateName : Type*} [DecidableEq GateName]

/-! ### Steps to go -/

/-- The steps that empty the queue if no call fails and nothing is recorded. -/
def GateNode.rank (n : GateNode) : Nat :=
  match n.retryQ.phase with
  | .waiting => 4 * n.retryQ.q.queue.length
  | .handling _ => 4 * n.retryQ.q.queue.length - (if n.answer.isSome then 2 else 1)
  | .delivered _ => 4 * n.retryQ.q.queue.length - 3
  | .undefined => 0

def Occurrence.isStepOf (g : GateName) : Occurrence GateName → Bool
  | .usual e => e.gate = g
  | _ => false

def Occurrence.isRecordOf (g : GateName) : Occurrence GateName → Bool
  | .usual (.record g' _) => g' = g
  | _ => false

def Occurrence.isFailureOf (g : GateName) : Occurrence GateName → Bool
  | .usual (.callReturns g' false) => g' = g
  | _ => false

section Node

variable {capacity : Nat} {gateId : String} {n n' : GateNode}

theorem GateNode.rank_le (n : GateNode) : n.rank ≤ 4 * n.retryQ.q.queue.length := by
  rw [rank]
  cases n.retryQ.phase <;> dsimp only <;> omega

theorem GateInv.rank_record (h : GateInv capacity gateId n) (hcapacity : 0 < capacity)
    {v : TicketValidation} (hstep : n.record v = some n') : n'.rank + 1 ≤ n.rank + 5 := by
  obtain ⟨reports, hnode⟩ := h.node
  obtain ⟨w, hloop⟩ := hnode.loop
  obtain ⟨q, hq, rfl⟩ := Option.map_eq_some_iff.mp hstep
  rcases Loop.step_push hq with ⟨q', hpush, rfl⟩ | ⟨hpush, -⟩
  · have hlength := Loop.length_push hpush
    simp only [GateNode.rank]
    cases n.retryQ.phase <;> dsimp only <;> omega
  · exact absurd hpush (Loop.push_ne_none (hloop.maxSize_eq ▸ hcapacity) _)

theorem GateNode.rank_copyFront (hstep : n.copyFront = some n') : n'.rank + 1 ≤ n.rank := by
  obtain ⟨q, hq, rfl⟩ := Option.map_eq_some_iff.mp hstep
  obtain ⟨front, rest, hphase, hqueue, rfl⟩ := Loop.step_copyFront hq
  simp only [rank, hphase, hqueue, List.length_cons, Option.isSome_none, Bool.false_eq_true,
    if_false]
  omega

theorem GateInv.rank_answered (h : GateInv capacity gateId n) {reports reports' : Reports}
    (hstep : n.answered reports = some (n', reports')) : n'.rank + 1 ≤ n.rank := by
  obtain ⟨other, hnode⟩ := h.node
  obtain ⟨w, hloop⟩ := hnode.loop
  have hnone : n.answer = none := by
    unfold GateNode.answered at hstep
    split at hstep
    · assumption
    · exact nomatch hstep
  obtain ⟨item, status, hphase, -, -, rfl⟩ := GateNode.answered_cases hstep
  have hlength := hloop.length_pos_of_handling hphase
  simp only [GateNode.rank, hphase, hnone, Option.isSome_none, Option.isSome_some,
    Bool.false_eq_true, if_false, if_true]
  omega

theorem GateInv.rank_callReturns (h : GateInv capacity gateId n) {ok : Bool}
    (hstep : n.callReturns ok = some n') : n'.rank + 1 ≤ n.rank + (if ok then 0 else 3) := by
  obtain ⟨reports, hnode⟩ := h.node
  obtain ⟨w, hloop⟩ := hnode.loop
  rw [GateNode.callReturns] at hstep
  split at hstep
  · cases hstep
  · rename_i hanswer
    obtain ⟨q, hq, rfl⟩ := Option.map_eq_some_iff.mp hstep
    cases ok with
    | true =>
        obtain ⟨item, hphase, rfl⟩ := Loop.step_handlerTrue hq
        have hlength := hloop.length_pos_of_handling hphase
        have hsome : n.answer.isSome = true := by
          by_contra hnone
          rw [Bool.not_eq_true, Option.isSome_eq_false_iff, Option.isNone_iff_eq_none] at hnone
          apply hanswer
          simp [hnone]
        simp only [GateNode.rank, hphase, hsome, if_true]
        omega
    | false =>
        obtain ⟨item, hphase, rfl⟩ := Loop.step_handlerFalse hq
        have hlength := hloop.length_pos_of_handling hphase
        simp only [GateNode.rank, hphase, Bool.false_eq_true, if_false]
        split <;> omega

theorem GateInv.rank_popFront (h : GateInv capacity gateId n) (hstep : n.popFront = some n') :
    n'.rank + 1 ≤ n.rank := by
  obtain ⟨reports, hnode⟩ := h.node
  obtain ⟨w, hloop⟩ := hnode.loop
  obtain ⟨q, hq, rfl⟩ := Option.map_eq_some_iff.mp hstep
  obtain ⟨item, hphase, ⟨front, rest, hqueue, rfl⟩ | ⟨hqueue, -⟩⟩ := Loop.step_popFront hq
  · simp only [GateNode.rank, hphase, hqueue, List.length_cons]
    omega
  · exact absurd hqueue (hloop.queue_ne_nil hphase)

end Node

variable {capacity : Nat} {ids : GateName → String} {w w' : World GateName}

/-- What an event can add to the steps of its gate, itself included. -/
def Event.charge : Event GateName → Nat
  | .record _ _ => 5
  | .callReturns _ ok => if ok then 0 else 3
  | _ => 0

theorem WorldInv.rank_step (h : WorldInv capacity ids w) (hcapacity : 0 < capacity)
    {e : Event GateName} {s : State GateName} (hstep : step w.network e = some s) :
    ∃ n, s.gates = (w.network.setGate e.gate n).gates ∧
      n.rank + 1 ≤ (w.network.gates e.gate).rank + e.charge := by
  cases e with
  | record g v =>
      obtain ⟨n, hn, rfl⟩ := Option.map_eq_some_iff.mp hstep
      exact ⟨n, rfl, (h.gates g).rank_record hcapacity hn⟩
  | copyFront g =>
      obtain ⟨n, hn, rfl⟩ := Option.map_eq_some_iff.mp hstep
      exact ⟨n, rfl, GateNode.rank_copyFront hn⟩
  | answer g =>
      obtain ⟨⟨n, reports⟩, hn, rfl⟩ := Option.map_eq_some_iff.mp hstep
      exact ⟨n, rfl, (h.gates g).rank_answered hn⟩
  | callReturns g ok =>
      obtain ⟨n, hn, rfl⟩ := Option.map_eq_some_iff.mp hstep
      exact ⟨n, rfl, (h.gates g).rank_callReturns hn⟩
  | popFront g =>
      obtain ⟨n, hn, rfl⟩ := Option.map_eq_some_iff.mp hstep
      exact ⟨n, rfl, (h.gates g).rank_popFront hn⟩

theorem WorldInv.rank_advance (h : WorldInv capacity ids w) (hcapacity : 0 < capacity)
    (g : GateName) {o : Occurrence GateName} (hstep : Network.advance capacity w o = some w') :
    (w'.network.gates g).rank + (if o.isStepOf g then 1 else 0) ≤
      (w.network.gates g).rank +
        ((if o.isRecordOf g then 5 else 0) + (if o.isFailureOf g then 3 else 0)) := by
  cases o with
  | usual e =>
      obtain ⟨s, hs, rfl⟩ := Option.map_eq_some_iff.mp hstep
      obtain ⟨n, hgates, hrank⟩ := h.rank_step hcapacity hs
      simp only [hgates, State.setGate]
      by_cases hg : e.gate = g
      · subst hg
        rw [Function.update_self]
        cases e with
        | callReturns g ok =>
            cases ok <;> simpa [Event.charge, Event.gate, Occurrence.isStepOf,
              Occurrence.isRecordOf, Occurrence.isFailureOf] using hrank
        | _ =>
            simpa [Event.charge, Event.gate, Occurrence.isStepOf, Occurrence.isRecordOf,
              Occurrence.isFailureOf] using hrank
      · rw [Function.update_of_ne (Ne.symm hg), Occurrence.isStepOf, decide_eq_false hg]
        simp
  | backOfficeRestarts =>
      obtain rfl := Option.some.inj hstep
      exact Nat.le_add_right _ _
  | gateRestarts g' =>
      obtain rfl := Option.some.inj hstep
      simp only [World.restartGate, State.setGate]
      by_cases hg : g = g'
      · subst hg
        rw [Function.update_self]
        exact Nat.zero_le _
      · rw [Function.update_of_ne hg]
        exact Nat.le_add_right _ _
  | late report =>
      rw [Network.advance] at hstep
      split at hstep
      · obtain rfl := Option.some.inj hstep
        exact Nat.le_add_right _ _
      · cases hstep

/-- However the gates and the back office stop and start: a gate and the answers to its calls take
no more steps than four for each snapshot in its queue, five for each validation and three for each
failure. -/
theorem gate_steps_bounded (hcapacity : 0 < capacity) (hids : Function.Injective ids)
    {before later : List (Occurrence GateName)}
    (hbefore : run (advance capacity) (World.start ids capacity) before = some w)
    (hlater : run (advance capacity) w later = some w') (g : GateName) :
    later.countP (Occurrence.isStepOf g) ≤ 4 * (w.network.gates g).retryQ.q.queue.length +
      (5 * later.countP (Occurrence.isRecordOf g) +
        3 * later.countP (Occurrence.isFailureOf g)) := by
  have hbound := countP_le_of_rank (advance capacity) (fun w => (w.network.gates g).rank)
    (Occurrence.isStepOf g) (Occurrence.isRecordOf g) (Occurrence.isFailureOf g) 5 3
    (I := WorldInv capacity ids) (fun _ _ _ h hstep => h.advance hcapacity hids hstep)
    (fun _ _ _ h hstep => h.rank_advance hcapacity g hstep)
    (worldInv_of_run hcapacity hids hbefore) hlater
  have hrank := (w.network.gates g).rank_le
  omega

theorem gate_steps_bounded_one_failure :
    ∃ w w' : World Bool,
      run (advance maxSizeOfValidationQ) w [.usual (.copyFront true),
        .usual (.callReturns true false), .backOfficeRestarts, .usual (.copyFront true),
        .usual (.answer true)] = some w' ∧
      4 ≤ 4 * (w.network.gates true).retryQ.q.queue.length + (5 * 0 + 3 * 1) := by
  have hcapacity : 0 < maxSizeOfValidationQ := by decide
  obtain ⟨w', hw'⟩ : ∃ w', run (advance maxSizeOfValidationQ)
      (World.start twoGates maxSizeOfValidationQ)
      ([.usual (.record true ⟨ascii "a", .online, .valid, 0⟩)] ++ [.usual (.copyFront true),
        .usual (.callReturns true false), .backOfficeRestarts, .usual (.copyFront true),
        .usual (.answer true)]) = some w' := ⟨_, rfl⟩
  obtain ⟨w, hbefore, hlater⟩ := (run_append _).mp hw'
  exact ⟨w, w', hlater, gate_steps_bounded hcapacity twoGates_injective hbefore hlater true⟩

/-! ### Rest -/

/-- Until the next validation nothing is left to do, neither for the gate nor for its calls. -/
def AtRest (w : World GateName) (g : GateName) : Prop :=
  ∀ e : Event GateName, e.gate = g → (∀ v, e ≠ .record g v) → step w.network e = none

theorem WorldInv.queue_of_atRest (h : WorldInv capacity ids w) {g : GateName} (hrest : AtRest w g) :
    (w.network.gates g).retryQ.q.queue = [] := by
  obtain ⟨reports, hnode⟩ := (h.gates g).node
  obtain ⟨window, hloop⟩ := hnode.loop
  have hcopy := hrest (.copyFront g) rfl fun _ => nofun
  have hfails := hrest (.callReturns g false) rfl fun _ => nofun
  have hpop := hrest (.popFront g) rfl fun _ => nofun
  simp only [step, GateNode.copyFront, GateNode.callReturns, GateNode.popFront,
    Option.map_eq_none_iff, Bool.false_eq_true, false_and, if_false] at hcopy hfails hpop
  exact (hloop.of_stuck hcopy hfails hpop).2

theorem atRest_of_empty {g : GateName} (hphase : (w.network.gates g).retryQ.phase = .waiting)
    (hqueue : (w.network.gates g).retryQ.q.queue = []) : AtRest w g := by
  intro e hgate hne
  have hidle := Loop.idle_of_empty hphase hqueue
  cases e with
  | record g' v =>
      obtain rfl : g' = g := hgate
      exact absurd rfl (hne v)
  | copyFront g' =>
      obtain rfl : g' = g := hgate
      rw [step, GateNode.copyFront, hidle .copyFront (by simp)]
      rfl
  | answer g' =>
      obtain rfl : g' = g := hgate
      rw [step, GateNode.answered, hphase]
      rfl
  | callReturns g' ok =>
      obtain rfl : g' = g := hgate
      rw [step, GateNode.callReturns, hidle (.handlerReturns ok) (by simp)]
      split <;> rfl
  | popFront g' =>
      obtain rfl : g' = g := hgate
      rw [step, GateNode.popFront, hidle .popFront (by simp)]
      rfl

/-! ### Since a validation

What is kept for a gate does not depend on the time before, as soon as the gate has delivered a
snapshot that the back office has not forgotten. -/

/-- The gate has recorded more than `p` validations, and delivered `old` snapshots before; if it has
delivered any since, the latest is the one that is kept. -/
structure Since (ids : GateName → String) (g : GateName) (p : Nat)
    (old : List (Numbered ValidationStats)) (s : State GateName) : Prop where
  recorded : p < (s.gates g).processor.lastValidations.length
  stored : ∃ more, (s.gates g).stored = old ++ more ∧
    ∀ x, more.getLast? = some x → s.reports (ids g) = some (validationReport (ids g) x.value)

variable {g : GateName} {p : Nat} {old : List (Numbered ValidationStats)} {s : State GateName}

omit [DecidableEq GateName] in
theorem Since.of_eq (h : Since ids g p old w.network) (hgate : s.gates g = w.network.gates g)
    (hreports : s.reports (ids g) = w.network.reports (ids g)) : Since ids g p old s where
  recorded := hgate ▸ h.recorded
  stored := by
    rw [hgate, hreports]
    exact h.stored

theorem Since.own_step (h : Since ids g p old w.network) (hinv : WorldInv capacity ids w)
    (hcapacity : 0 < capacity) {n : GateNode}
    (hn : (∃ v, (w.network.gates g).record v = some n) ∨ (w.network.gates g).copyFront = some n ∨
      (∃ ok, (w.network.gates g).callReturns ok = some n) ∨
      (w.network.gates g).popFront = some n) :
    Since ids g p old (w.network.setGate g n) := by
  have hstored := GateNode.stored_eq_of_own_step hn
  have hgrown := ((hinv.gates g).own_step hcapacity hn).2
  constructor
  · simp only [State.setGate, Function.update_self]
    exact h.recorded.trans_le hgrown.length_le
  · simp only [State.setGate, Function.update_self]
    rw [hstored]
    exact h.stored

theorem Since.answered (h : Since ids g p old w.network) (hinv : WorldInv capacity ids w)
    {n : GateNode} {reports : Reports}
    (hn : (w.network.gates g).answered w.network.reports = some (n, reports)) :
    Since ids g p old { w.network.setGate g n with reports := reports } := by
  obtain ⟨item, status, -, hstatus, rfl, rfl⟩ := GateNode.answered_cases hn
  obtain ⟨more, hstored, hkept⟩ := h.stored
  constructor
  · simp only [State.setGate, Function.update_self]
    exact h.recorded
  · simp only [State.setGate, Function.update_self]
    by_cases hok : status.code = .ok
    · refine ⟨more ++ [item], ?_, fun x hx => ?_⟩
      · rw [if_pos hok, hstored, List.append_assoc]
      · rw [List.getLast?_concat, Option.some.injEq] at hx
        subst hx
        have hself := submitReport_self (hstatus ▸ hok)
        rw [(hinv.gates g).gateId_eq] at hself ⊢
        exact hself
    · rw [if_neg hok, submitReport_refused (hstatus ▸ hok)]
      exact ⟨more, hstored, hkept⟩

theorem Since.next (h : Since ids g p old w.network) (hinv : WorldInv capacity ids w)
    (hcapacity : 0 < capacity) (hids : Function.Injective ids) {o : Occurrence GateName}
    (hback : o ≠ .backOfficeRestarts) (hgate : o ≠ .gateRestarts g)
    (hlate : ∀ report, o = .late report → report.machineId ≠ ids g)
    (hstep : advance capacity w o = some w') : Since ids g p old w'.network := by
  cases o with
  | usual e =>
      obtain ⟨s, hs, rfl⟩ := Option.map_eq_some_iff.mp hstep
      rcases step_cases hs with ⟨g', n, rfl, hn⟩ | ⟨g', n, reports, rfl, hn⟩
      · by_cases hg : g = g'
        · subst hg
          exact h.own_step hinv hcapacity hn
        · exact h.of_eq (Function.update_of_ne hg _ _) rfl
      · by_cases hg : g = g'
        · subst hg
          exact h.answered hinv hn
        · apply h.of_eq (Function.update_of_ne hg _ _)
          obtain ⟨item, status, -, -, rfl, -⟩ := GateNode.answered_cases hn
          apply submitReport_of_ne
          rw [validationReport, (hinv.gates g').gateId_eq]
          exact fun heq => hg (hids heq)
  | backOfficeRestarts => exact absurd rfl hback
  | gateRestarts g' =>
      obtain rfl := Option.some.inj hstep
      have hg : g ≠ g' := fun heq => hgate (heq ▸ rfl)
      exact h.of_eq (Function.update_of_ne hg _ _) rfl
  | late report =>
      rw [advance] at hstep
      split at hstep
      · obtain rfl := Option.some.inj hstep
        exact h.of_eq rfl (submitReport_of_ne (hlate report rfl).symm)
      · cases hstep

omit [DecidableEq GateName] in
theorem Since.report_of_empty (h : Since ids g p old w.network) (hinv : WorldInv capacity ids w)
    (hcapacity : 2 ≤ capacity) (hold : ∀ x ∈ old, x.number < p)
    (hempty : (w.network.gates g).retryQ.q.queue = []) :
    w.network.reports (ids g) =
      some (validationReport (ids g) (tally (w.network.gates g).processor.lastValidations)) := by
  obtain ⟨reports, hnode⟩ := (hinv.gates g).node
  obtain ⟨more, hstored, hkept⟩ := h.stored
  have hrecorded := h.recorded
  have hpushed := (hinv.gates g).pushed_eq
  have hlast := getLast?_snapshots (List.ne_nil_of_length_pos (Nat.zero_lt_of_lt hrecorded))
  rw [← hpushed] at hlast
  have hlength : (w.network.gates g).retryQ.pushed.length =
      (w.network.gates g).processor.lastValidations.length := by
    rw [hpushed, snapshots, List.length_map, List.length_range]
  -- the last snapshot has been accepted, and not before the validation
  obtain ⟨front, hfront⟩ := List.getLast?_eq_some_iff.mp hlast
  have hmem : (⟨front.length, tally (w.network.gates g).processor.lastValidations⟩ :
      Numbered ValidationStats) ∈ numbered (w.network.gates g).retryQ.pushed := by
    rw [hfront, numbered_concat]
    exact List.mem_append_right _ List.mem_cons_self
  have hnumber : front.length + 1 = (w.network.gates g).retryQ.pushed.length := by
    rw [hfront, List.length_append, List.length_singleton]
  have haccepted := hnode.accepted_stored _ (hnode.drained hcapacity hempty _ hmem hnumber)
  rw [hstored] at haccepted
  have hmore : more ≠ [] := by
    rintro rfl
    rw [List.append_nil] at haccepted
    have hlt := hold _ haccepted
    dsimp only at hlt
    omega
  obtain ⟨x, hx⟩ : ∃ x, more.getLast? = some x := ⟨_, List.getLast?_eq_some_getLast hmore⟩
  have hvalue := hnode.getLast?_stored hcapacity hempty hlast
  rw [hstored, List.getLast?_append, hx, Option.some_or, Option.map_some, Option.some.injEq]
    at hvalue
  rw [hkept x hx, hvalue]

theorem since_record (hinv : WorldInv capacity ids w) (hcapacity : 0 < capacity)
    {v : TicketValidation} (hstep : advance capacity w (.usual (.record g v)) = some w') :
    ∃ p old, (∀ x ∈ old, x.number < p) ∧ Since ids g p old w'.network := by
  obtain ⟨s, hs, rfl⟩ := Option.map_eq_some_iff.mp hstep
  obtain ⟨n, hn, rfl⟩ := Option.map_eq_some_iff.mp hs
  obtain ⟨-, hrecorded, -⟩ := (hinv.gates g).record hcapacity hn
  obtain ⟨reports, hnode⟩ := (hinv.gates g).node
  have hstored := GateNode.stored_eq_of_own_step (Or.inl ⟨v, hn⟩)
  refine ⟨(w.network.gates g).processor.lastValidations.length, (w.network.gates g).stored,
    fun x hx => ?_, ?_, ⟨[], ?_, fun x hx => nomatch hx⟩⟩
  · have hlt := number_lt_of_mem_numbered (hnode.stored_mem hx)
    rwa [(hinv.gates g).pushed_eq, snapshots, List.length_map, List.length_range] at hlt
  · simp only [State.setGate, Function.update_self, hrecorded, List.length_append,
      List.length_singleton]
    exact Nat.lt_succ_self _
  · simp only [State.setGate, Function.update_self, hstored, List.append_nil]

/-- Let a gate record a validation, in any state that the network can get into, however often the
gates and the back office have been started again by then and whatever calls have been given up.
From then on let neither this gate nor the back office be started again, and none of the calls that
were given up for this gate be run after all. Whenever the gate comes to rest, `GetReport` answers
with the counts of all the validations of the gate. -/
theorem report_recovers (hids : Function.Injective ids) (hid : ids g ≠ "")
    {before : List (Occurrence GateName)}
    (hbefore : run (advance maxSizeOfValidationQ) (World.start ids maxSizeOfValidationQ) before =
      some w)
    {v : TicketValidation} {later : List (Occurrence GateName)}
    (hback : .backOfficeRestarts ∉ later) (hgate : .gateRestarts g ∉ later)
    (hlate : ∀ report, .late report ∈ later → report.machineId ≠ ids g)
    (hlater : run (advance maxSizeOfValidationQ) w (.usual (.record g v) :: later) = some w')
    (hrest : AtRest w' g) :
    getReport w'.network.reports (some (ids g)) = (⟨.ok, ""⟩,
      some (validationReport (ids g) (tally (w'.network.gates g).processor.lastValidations))) := by
  have hcapacity : 0 < maxSizeOfValidationQ := by decide
  have hinv := worldInv_of_run hcapacity hids hbefore
  obtain ⟨w₁, hrecord, hrun⟩ := (run_cons_eq_some _).mp hlater
  obtain ⟨p, old, hold, hsince⟩ := since_record hinv hcapacity hrecord
  have hsteps := invariant_of_run_of_mem (advance maxSizeOfValidationQ)
    (I := fun w => WorldInv maxSizeOfValidationQ ids w ∧ Since ids g p old w.network)
    (fun u o ho u' hu hstep => ⟨hu.1.advance hcapacity hids hstep,
      hu.2.next hu.1 hcapacity hids (fun heq => hback (heq ▸ ho)) (fun heq => hgate (heq ▸ ho))
        (fun report heq => hlate report (heq ▸ ho)) hstep⟩)
    ⟨hinv.advance hcapacity hids hrecord, hsince⟩ hrun
  have hreport := hsteps.2.report_of_empty hsteps.1 (by decide) hold
    (hsteps.1.queue_of_atRest hrest)
  simp only [getReport, if_neg hid, hreport]

/-- The back office forgets the first report of a gate while the call returns. The next validation
makes up for it, although the gate gives up a call and the other gate is started again meanwhile. -/
theorem report_recovers_after_restart :
    ∃ w w' : World Bool,
      run (advance maxSizeOfValidationQ) (World.start twoGates maxSizeOfValidationQ)
        [.usual (.record true ⟨ascii "a", .online, .valid, 0⟩), .usual (.copyFront true),
          .usual (.answer true), .backOfficeRestarts] = some w ∧
      run (advance maxSizeOfValidationQ) w
        [.usual (.record true ⟨ascii "b", .offline, .invalid, 1⟩), .usual (.callReturns true true),
          .usual (.popFront true), .usual (.copyFront true), .usual (.callReturns true false),
          .usual (.copyFront true), .gateRestarts false, .usual (.answer true),
          .usual (.callReturns true true), .usual (.popFront true)] = some w' ∧
      w'.orphans = [validationReport "GATE-1" ⟨2, 1, 1, 1, 1⟩] ∧
      getReport w'.network.reports (some "GATE-1") =
        (⟨.ok, ""⟩, some (validationReport "GATE-1" ⟨2, 1, 1, 1, 1⟩)) := by
  obtain ⟨w', hw'⟩ : ∃ w', run (advance maxSizeOfValidationQ)
      (World.start twoGates maxSizeOfValidationQ)
      ([.usual (.record true ⟨ascii "a", .online, .valid, 0⟩), .usual (.copyFront true),
        .usual (.answer true), .backOfficeRestarts] ++
      [.usual (.record true ⟨ascii "b", .offline, .invalid, 1⟩), .usual (.callReturns true true),
        .usual (.popFront true), .usual (.copyFront true), .usual (.callReturns true false),
        .usual (.copyFront true), .gateRestarts false, .usual (.answer true),
        .usual (.callReturns true true), .usual (.popFront true)]) = some w' := ⟨_, rfl⟩
  obtain ⟨w, hbefore, hlater⟩ := (run_append _).mp hw'
  have hrest : AtRest w' true := by
    rw [← Option.some.inj hw']
    exact atRest_of_empty rfl rfl
  have hreport := report_recovers twoGates_injective (by decide) hbefore (by simp) (by simp)
    (by simp) hlater hrest
  refine ⟨w, w', hbefore, hlater, ?_, hreport.trans ?_⟩
  · rw [← Option.some.inj hw']
    rfl
  · rw [← Option.some.inj hw']
    rfl

end Ticketing.Network
