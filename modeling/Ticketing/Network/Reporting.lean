import Ticketing.BackOffice.Reports
import Ticketing.Gate.RetryInvariant
import Ticketing.Gate.TicketProcessor

/-!
# Gates that report to one back office

Every gate records transactions, which push snapshots of its counters into its retry queue, and has
one thread that takes them from the queue to the back office. The handler of the queue is
`send_validation_stats_to_server`, a remote call. Between the call and its return the back office
may or may not have run `SubmitReport`; a call that returns success has been answered, one that
fails may have been answered too. The steps of different gates interleave in any order.
-/

namespace Ticketing.Network

open EvictingWindow StepRun BackOffice Gate

/-- `MAX_SIZE_OF_VALIDATION_Q` -/
def maxSizeOfValidationQ : Nat := 10

/-- The report that `send_validation_stats_to_server` makes. -/
def validationReport (gateId : String) (v : ValidationStats) : GateTicketsValidationReport where
  machineId := gateId
  totalProcessed := v.total.toInt32
  validCount := v.valid.toInt32
  invalidCount := v.invalid.toInt32

/-- A gate. Of a call in flight it has the answer, once the back office has given one; `stored` is
the history of the snapshots that the back office has accepted from it, oldest first. -/
structure GateNode where
  processor : TicketProcessor
  retryQ : Loop ValidationStats
  answer : Option Status := none
  stored : List (Numbered ValidationStats) := []

structure State (GateName : Type*) where
  gates : GateName → GateNode
  reports : Reports

inductive Event (GateName : Type*) where
  | record (g : GateName) (v : TicketValidation)
  | copyFront (g : GateName)
  /-- the back office runs `SubmitReport` for the call in flight -/
  | answer (g : GateName)
  | callReturns (g : GateName) (ok : Bool)
  | popFront (g : GateName)

namespace GateNode

def init (gateId : String) (maxSize : Nat) : GateNode where
  processor := { gateId := gateId }
  retryQ := Loop.init ValidationStats maxSize

def record (n : GateNode) (v : TicketValidation) : Option GateNode :=
  let (p, _, snapshot) := n.processor.recordTransaction v
  (n.retryQ.step (.push snapshot)).map fun q => { n with processor := p, retryQ := q }

def copyFront (n : GateNode) : Option GateNode :=
  (n.retryQ.step .copyFront).map fun q => { n with retryQ := q, answer := none }

def answered (n : GateNode) (reports : Reports) : Option (GateNode × Reports) :=
  match n.retryQ.phase, n.answer with
  | .handling item, none =>
      let (status, reports) :=
        submitReport reports (some (validationReport n.processor.gateId item.value))
      let stored := if status.code = .ok then n.stored ++ [item] else n.stored
      some ({ n with answer := some status, stored := stored }, reports)
  | _, _ => none

/-- Success needs the answer `OK`; a failure can come at any time. -/
def callReturns (n : GateNode) (ok : Bool) : Option GateNode :=
  if ok = true ∧ n.answer.map Status.code ≠ some .ok then none
  else (n.retryQ.step (.handlerReturns ok)).map fun q => { n with retryQ := q }

def popFront (n : GateNode) : Option GateNode :=
  (n.retryQ.step .popFront).map fun q => { n with retryQ := q }

theorem stored_eq_of_own_step {n n' : GateNode} (h : (∃ v, n.record v = some n') ∨
    n.copyFront = some n' ∨ (∃ ok, n.callReturns ok = some n') ∨ n.popFront = some n') :
    n'.stored = n.stored := by
  rcases h with ⟨v, h⟩ | h | ⟨ok, h⟩ | h
  · obtain ⟨q, _, rfl⟩ := Option.map_eq_some_iff.mp h
    rfl
  · obtain ⟨q, _, rfl⟩ := Option.map_eq_some_iff.mp h
    rfl
  · unfold callReturns at h
    split at h
    · exact nomatch h
    · obtain ⟨q, _, rfl⟩ := Option.map_eq_some_iff.mp h
      rfl
  · obtain ⟨q, _, rfl⟩ := Option.map_eq_some_iff.mp h
    rfl

theorem answered_cases {n n' : GateNode} {reports reports' : Reports}
    (h : n.answered reports = some (n', reports')) :
    ∃ item status, n.retryQ.phase = .handling item ∧
      status = (submitReport reports (some (validationReport n.processor.gateId item.value))).1 ∧
      reports' = (submitReport reports (some (validationReport n.processor.gateId item.value))).2 ∧
      n' = { n with
        answer := some status
        stored := if status.code = .ok then n.stored ++ [item] else n.stored } := by
  unfold answered at h
  split at h
  · rename_i item hphase _
    simp only [Option.some.injEq, Prod.mk.injEq] at h
    exact ⟨item, _, hphase, rfl, h.2.symm, h.1.symm⟩
  · exact nomatch h

end GateNode

variable {GateName : Type*} [DecidableEq GateName]

/-- Gates that have just started, beside a back office with these reports. -/
def init (ids : GateName → String) (maxSize : Nat) (reports : Reports) : State GateName :=
  ⟨fun g => GateNode.init (ids g) maxSize, reports⟩

def State.setGate (s : State GateName) (g : GateName) (n : GateNode) : State GateName :=
  { s with gates := Function.update s.gates g n }

theorem State.forall_gates_setGate {s : State GateName} {g : GateName} {n : GateNode}
    {P : GateName → GateNode → Prop} (hself : P g n) (hother : ∀ g', g' ≠ g → P g' (s.gates g')) :
    ∀ g', P g' ((s.setGate g n).gates g') :=
  (Function.forall_update_iff s.gates P).mpr ⟨hself, hother⟩

def step (s : State GateName) : Event GateName → Option (State GateName)
  | .record g v => ((s.gates g).record v).map (s.setGate g)
  | .copyFront g => (s.gates g).copyFront.map (s.setGate g)
  | .answer g =>
      ((s.gates g).answered s.reports).map fun (n, reports) =>
        { s.setGate g n with reports := reports }
  | .callReturns g ok => ((s.gates g).callReturns ok).map (s.setGate g)
  | .popFront g => (s.gates g).popFront.map (s.setGate g)

/-- A step either acts on one gate and leaves the reports alone, or is an answer to one gate. -/
theorem step_cases {s s' : State GateName} {e : Event GateName} (h : step s e = some s') :
    (∃ g n, s' = s.setGate g n ∧
      ((∃ v, (s.gates g).record v = some n) ∨ (s.gates g).copyFront = some n ∨
        (∃ ok, (s.gates g).callReturns ok = some n) ∨ (s.gates g).popFront = some n)) ∨
      ∃ g n reports, s' = { s.setGate g n with reports := reports } ∧
        (s.gates g).answered s.reports = some (n, reports) := by
  cases e with
  | record g v =>
      obtain ⟨n, hn, rfl⟩ := Option.map_eq_some_iff.mp h
      exact Or.inl ⟨g, n, rfl, Or.inl ⟨v, hn⟩⟩
  | copyFront g =>
      obtain ⟨n, hn, rfl⟩ := Option.map_eq_some_iff.mp h
      exact Or.inl ⟨g, n, rfl, Or.inr (Or.inl hn)⟩
  | answer g =>
      obtain ⟨⟨n, reports⟩, hn, rfl⟩ := Option.map_eq_some_iff.mp h
      exact Or.inr ⟨g, n, reports, rfl, hn⟩
  | callReturns g ok =>
      obtain ⟨n, hn, rfl⟩ := Option.map_eq_some_iff.mp h
      exact Or.inl ⟨g, n, rfl, Or.inr (Or.inr (Or.inl ⟨ok, hn⟩))⟩
  | popFront g =>
      obtain ⟨n, hn, rfl⟩ := Option.map_eq_some_iff.mp h
      exact Or.inl ⟨g, n, rfl, Or.inr (Or.inr (Or.inr hn))⟩

end Ticketing.Network
