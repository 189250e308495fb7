import Ticketing.Gate.Accounting
import Ticketing.Gate.RetryProgress
import Ticketing.Network.Convergence

/-!
# Processes that stop and start again

Neither the counters of a gate nor the reports of the back office are on any disk. A gate that is
started again counts from zero, with a new and empty retry queue, and a back office that is started
again has no report of anyone. A call that its gate no longer waits for, because it has failed or
because the gate has stopped meanwhile, may still be run by the back office at any later time, even
after calls that the gate has made since. Or it is never run.

Whatever of this happens, what the back office says about a gate has been true of one of its
processes; and once a gate is left alone for long enough it is told the truth again.
-/

namespace Ticketing.Network

open EvictingWindow StepRun BackOffice Gate

/-- The network, with the calls that nobody waits for any more and, as a history, what the processes
of each gate that have stopped had recorded, the latest first. -/
structure World (GateName : Type*) where
  network : State GateName
  orphans : List GateTicketsValidationReport := []
  ended : GateName → List (List TicketValidation) := fun _ => []

inductive Occurrence (GateName : Type*) where
  | usual (e : Event GateName)
  | backOfficeRestarts
  | gateRestarts (g : GateName)
  /-- the back office runs `SubmitReport` for a call that nobody waits for any more -/
  | late (report : GateTicketsValidationReport)

/-- The report of the call that is in flight without an answer. -/
def GateNode.unanswered (n : GateNode) : Option GateTicketsValidationReport :=
  match n.retryQ.phase, n.answer with
  | .handling item, none => some (validationReport n.processor.gateId item.value)
  | _, _ => none

def Event.gate {GateName : Type*} : Event GateName → GateName
  | .record g _ | .copyFront g | .answer g | .callReturns g _ | .popFront g => g

variable {GateName : Type*} [DecidableEq GateName]

def World.start (ids : GateName → String) (maxSize : Nat) : World GateName where
  network := init ids maxSize fun _ => none

def World.restartGate (maxSize : Nat) (w : World GateName) (g : GateName) : World GateName :=
  let n := w.network.gates g
  { network := w.network.setGate g (GateNode.init n.processor.gateId maxSize)
    orphans := n.unanswered.toList ++ w.orphans
    ended := Function.update w.ended g (n.processor.lastValidations :: w.ended g) }

/-- The call that a gate gives up with the event. -/
def World.givenUp (w : World GateName) : Event GateName → Option GateTicketsValidationReport
  | .callReturns g false => (w.network.gates g).unanswered
  | _ => none

def advance (maxSize : Nat) (w : World GateName) : Occurrence GateName → Option (World GateName)
  | .usual e => (step w.network e).map fun s =>
      { w with network := s, orphans := (w.givenUp e).toList ++ w.orphans }
  | .backOfficeRestarts => some { w with network := { w.network with reports := fun _ => none } }
  | .gateRestarts g => some (w.restartGate maxSize g)
  | .late report =>
      if report ∈ w.orphans then
        some { w with
          network := { w.network with
            reports := (submitReport w.network.reports (some report)).2 }
          orphans := w.orphans.erase report }
      else none

def snapshots (vs : List TicketValidation) : List ValidationStats :=
  (List.range vs.length).map fun i => tally (vs.take (i + 1))

theorem snapshots_concat (vs : List TicketValidation) (v : TicketValidation) :
    snapshots (vs ++ [v]) = snapshots vs ++ [tally (vs ++ [v])] := by
  rw [snapshots, List.length_append, List.length_singleton, map_take_concat, snapshots]

theorem getLast?_snapshots {vs : List TicketValidation} (h : vs ≠ []) :
    (snapshots vs).getLast? = some (tally vs) := by
  rw [← List.dropLast_concat_getLast h, snapshots_concat, List.getLast?_concat]

/-! ### One gate

The invariant of a gate in the network speaks of the report that is kept for it as well. With the
back office coming and going there need not be such a report; but what the invariant says of the
gate alone remains, beside some reports or other. -/

structure GateInv (capacity : Nat) (gateId : String) (n : GateNode) : Prop where
  node : ∃ reports, NodeInv capacity gateId (fun _ => none) reports n
  stats_eq : n.processor.stats = tally n.processor.lastValidations
  pushed_eq : n.retryQ.pushed = snapshots n.processor.lastValidations

variable {capacity : Nat} {gateId : String} {n n' : GateNode}

theorem GateInv.init (capacity : Nat) (gateId : String) :
    GateInv capacity gateId (GateNode.init gateId capacity) where
  node := ⟨_, NodeInv.init capacity gateId fun _ => none⟩
  stats_eq := rfl
  pushed_eq := rfl

theorem GateInv.gateId_eq (h : GateInv capacity gateId n) : n.processor.gateId = gateId := by
  obtain ⟨reports, hnode⟩ := h.node
  exact hnode.gateId_eq

theorem GateInv.record (h : GateInv capacity gateId n) (hcapacity : 0 < capacity)
    {v : TicketValidation} (hstep : n.record v = some n') :
    GateInv capacity gateId n' ∧
      n'.processor.lastValidations = n.processor.lastValidations ++ [v] ∧
      n'.retryQ.pushed.length = n.retryQ.pushed.length + 1 := by
  obtain ⟨reports, hnode⟩ := h.node
  have hnode' := hnode.record hcapacity hstep
  obtain ⟨w, hloop⟩ := hnode.loop
  obtain ⟨q, hq, rfl⟩ := Option.map_eq_some_iff.mp hstep
  have hstats : n.processor.stats.record v = tally (n.processor.lastValidations ++ [v]) := by
    rw [tally_concat, h.stats_eq]
  rcases Loop.step_push hq with ⟨q', -, rfl⟩ | ⟨hpush, -⟩
  · refine ⟨⟨⟨reports, hnode'⟩, hstats, ?_⟩, rfl, ?_⟩
    · show n.retryQ.pushed ++ [n.processor.stats.record v] =
        snapshots (n.processor.lastValidations ++ [v])
      rw [snapshots_concat, ← hstats, h.pushed_eq]
    · exact List.length_append
  · exact absurd hpush (Loop.push_ne_none (hloop.maxSize_eq ▸ hcapacity) _)

theorem GateInv.of_same_records (h : GateInv capacity gateId n) {reports : Reports}
    (hnode : NodeInv capacity gateId (fun _ => none) reports n')
    (hprocessor : n'.processor = n.processor) (hpushed : n'.retryQ.pushed = n.retryQ.pushed) :
    GateInv capacity gateId n' :=
  ⟨⟨reports, hnode⟩, hprocessor ▸ h.stats_eq, by rw [hpushed, hprocessor, h.pushed_eq]⟩

theorem GateInv.copyFront (h : GateInv capacity gateId n) (hcapacity : 0 < capacity)
    (hstep : n.copyFront = some n') : GateInv capacity gateId n' := by
  obtain ⟨reports, hnode⟩ := h.node
  have hnode' := hnode.copyFront hcapacity hstep
  obtain ⟨q, hq, rfl⟩ := Option.map_eq_some_iff.mp hstep
  exact h.of_same_records hnode' rfl (Loop.pushed_eq_of_ne_push hq fun _ => nofun)

theorem GateInv.callReturns (h : GateInv capacity gateId n) (hcapacity : 0 < capacity) {ok : Bool}
    (hstep : n.callReturns ok = some n') : GateInv capacity gateId n' := by
  obtain ⟨reports, hnode⟩ := h.node
  have hnode' := hnode.callReturns hcapacity hstep
  rw [GateNode.callReturns] at hstep
  split at hstep
  · exact nomatch hstep
  · obtain ⟨q, hq, rfl⟩ := Option.map_eq_some_iff.mp hstep
    exact h.of_same_records hnode' rfl (Loop.pushed_eq_of_ne_push hq fun _ => nofun)

theorem GateInv.popFront (h : GateInv capacity gateId n) (hcapacity : 0 < capacity)
    (hstep : n.popFront = some n') : GateInv capacity gateId n' := by
  obtain ⟨reports, hnode⟩ := h.node
  have hnode' := hnode.popFront hcapacity hstep
  obtain ⟨q, hq, rfl⟩ := Option.map_eq_some_iff.mp hstep
  exact h.of_same_records hnode' rfl (Loop.pushed_eq_of_ne_push hq fun _ => nofun)

theorem GateNode.answered_other {reports reports' : Reports}
    (h : n.answered reports = some (n', reports')) (other : Reports) :
    ∃ other', n.answered other = some (n', other') := by
  unfold GateNode.answered at h ⊢
  split at h
  · simp only [Option.some.injEq, Prod.mk.injEq] at h ⊢
    rw [submitReport_status other reports]
    exact ⟨_, h.1, rfl⟩
  · exact nomatch h

theorem GateInv.answered (h : GateInv capacity gateId n) {reports reports' : Reports}
    (hstep : n.answered reports = some (n', reports')) : GateInv capacity gateId n' := by
  obtain ⟨other, hnode⟩ := h.node
  obtain ⟨other', hother⟩ := GateNode.answered_other hstep other
  have hnode' := hnode.answered hother
  obtain ⟨item, status, -, -, -, rfl⟩ := GateNode.answered_cases hstep
  exact h.of_same_records hnode' rfl rfl

theorem GateInv.own_step (h : GateInv capacity gateId n) (hcapacity : 0 < capacity)
    (hstep : (∃ v, n.record v = some n') ∨ n.copyFront = some n' ∨
      (∃ ok, n.callReturns ok = some n') ∨ n.popFront = some n') :
    GateInv capacity gateId n' ∧
      n.processor.lastValidations <+: n'.processor.lastValidations := by
  rcases hstep with ⟨v, hstep⟩ | hstep | ⟨ok, hstep⟩ | hstep
  · obtain ⟨h', hrecorded, -⟩ := h.record hcapacity hstep
    exact ⟨h', hrecorded ▸ List.prefix_append _ _⟩
  · refine ⟨h.copyFront hcapacity hstep, ?_⟩
    obtain ⟨q, -, rfl⟩ := Option.map_eq_some_iff.mp hstep
    exact List.prefix_rfl
  · refine ⟨h.callReturns hcapacity hstep, ?_⟩
    rw [GateNode.callReturns] at hstep
    split at hstep
    · exact nomatch hstep
    · obtain ⟨q, -, rfl⟩ := Option.map_eq_some_iff.mp hstep
      exact List.prefix_rfl
  · refine ⟨h.popFront hcapacity hstep, ?_⟩
    obtain ⟨q, -, rfl⟩ := Option.map_eq_some_iff.mp hstep
    exact List.prefix_rfl

/-! ### What the reports say -/

/-- What the processes of the gate have recorded, that of the present one first. -/
def World.lives (w : World GateName) (g : GateName) : List (List TicketValidation) :=
  (w.network.gates g).processor.lastValidations :: w.ended g

/-- The report counts the validations of some process up to one of them. -/
def Genuine (gateId : String) (lives : List (List TicketValidation))
    (report : GateTicketsValidationReport) : Prop :=
  ∃ vs ∈ lives, ∃ k < vs.length, report = validationReport gateId (tally (vs.take (k + 1)))

/-- Every list is still there, perhaps longer. -/
def Extends (lives lives' : List (List TicketValidation)) : Prop :=
  ∀ vs ∈ lives, ∃ vs' ∈ lives', vs <+: vs'

theorem Genuine.of_extends {lives lives' : List (List TicketValidation)}
    {report : GateTicketsValidationReport} (h : Genuine gateId lives report)
    (hextends : Extends lives lives') : Genuine gateId lives' report := by
  obtain ⟨vs, hvs, k, hk, hreport⟩ := h
  obtain ⟨vs', hvs', more, rfl⟩ := hextends vs hvs
  refine ⟨_, hvs', k, ?_, ?_⟩
  · rw [List.length_append]
    omega
  · rw [List.take_append_of_le_length hk]
    exact hreport

theorem GateInv.genuine_of_handling (h : GateInv capacity gateId n)
    {item : Numbered ValidationStats} (hphase : n.retryQ.phase = .handling item)
    (ended : List (List TicketValidation)) :
    Genuine gateId (n.processor.lastValidations :: ended)
      (validationReport n.processor.gateId item.value) := by
  obtain ⟨reports, hnode⟩ := h.node
  obtain ⟨w, hloop⟩ := hnode.loop
  have hpushed := mem_numbered_iff.mp (hloop.phase_of_eq hphase).1.mem_log
  rw [h.pushed_eq, snapshots, List.getElem?_map, Option.map_eq_some_iff] at hpushed
  obtain ⟨k, hk, hvalue⟩ := hpushed
  have hlt := List.mem_range.mp (List.mem_of_getElem? hk)
  exact ⟨_, List.mem_cons_self, k, hlt, by rw [h.gateId_eq, hvalue]⟩

theorem GateInv.genuine_of_unanswered (h : GateInv capacity gateId n)
    {report : GateTicketsValidationReport} (hreport : n.unanswered = some report)
    (ended : List (List TicketValidation)) :
    Genuine gateId (n.processor.lastValidations :: ended) report := by
  rw [GateNode.unanswered] at hreport
  split at hreport
  · rename_i item hphase _
    obtain rfl := Option.some.inj hreport
    exact h.genuine_of_handling hphase ended
  · cases hreport

structure WorldInv (capacity : Nat) (ids : GateName → String) (w : World GateName) : Prop where
  gates : ∀ g, GateInv capacity (ids g) (w.network.gates g)
  kept : ∀ g report, w.network.reports (ids g) = some report → Genuine (ids g) (w.lives g) report
  orphans : ∀ report ∈ w.orphans, ∃ g, Genuine (ids g) (w.lives g) report

variable {ids : GateName → String} {w w' : World GateName}

omit [DecidableEq GateName] in
theorem worldInv_start (capacity : Nat) (ids : GateName → String) :
    WorldInv capacity ids (World.start ids capacity) where
  gates := fun g => GateInv.init capacity (ids g)
  kept := fun _ _ h => nomatch h
  orphans := fun _ h => absurd h List.not_mem_nil

theorem lives_extends {g : GateName} {n : GateNode} {s : State GateName}
    (hgates : s.gates = (w.network.setGate g n).gates)
    (hgrown : (w.network.gates g).processor.lastValidations <+: n.processor.lastValidations)
    (g' : GateName) : Extends (w.lives g') (World.lives { w with network := s } g') := by
  have hgrown' : (w.network.gates g').processor.lastValidations <+:
      (s.gates g').processor.lastValidations := by
    rw [hgates]
    exact State.forall_gates_setGate
      (P := fun g n => (w.network.gates g).processor.lastValidations <+:
        n.processor.lastValidations) hgrown (fun _ _ => List.prefix_rfl) g'
  intro vs hvs
  rcases List.mem_cons.mp hvs with rfl | hvs
  · exact ⟨_, List.mem_cons_self, hgrown'⟩
  · exact ⟨vs, List.mem_cons_of_mem _ hvs, List.prefix_rfl⟩

omit [DecidableEq GateName] in
theorem WorldInv.genuine_of_givenUp (h : WorldInv capacity ids w) {e : Event GateName}
    {report : GateTicketsValidationReport} (hreport : report ∈ (w.givenUp e).toList) :
    ∃ g, Genuine (ids g) (w.lives g) report := by
  rw [Option.mem_toList] at hreport
  unfold World.givenUp at hreport
  split at hreport
  · rename_i g
    exact ⟨g, (h.gates g).genuine_of_unanswered hreport (w.ended g)⟩
  · cases hreport

theorem WorldInv.usual (h : WorldInv capacity ids w) (hcapacity : 0 < capacity)
    (hids : Function.Injective ids) {e : Event GateName} {s : State GateName}
    (hstep : step w.network e = some s) :
    WorldInv capacity ids
      { w with network := s, orphans := (w.givenUp e).toList ++ w.orphans } := by
  have horphans : ∀ report ∈ (w.givenUp e).toList ++ w.orphans,
      ∃ g, Genuine (ids g) (w.lives g) report := by
    intro report hreport
    rcases List.mem_append.mp hreport with hreport | hreport
    · exact h.genuine_of_givenUp hreport
    · exact h.orphans report hreport
  rcases step_cases hstep with ⟨g, n, rfl, hn⟩ | ⟨g, n, reports, rfl, hn⟩
  · obtain ⟨hgate, hgrown⟩ := (h.gates g).own_step hcapacity hn
    have hlives := lives_extends (w := w) (s := w.network.setGate g n) rfl hgrown
    refine ⟨State.forall_gates_setGate (P := fun g n => GateInv capacity (ids g) n) hgate
      fun g' _ => h.gates g', fun g' report hreport => ?_, fun report hreport => ?_⟩
    · exact (h.kept g' report hreport).of_extends (hlives g')
    · obtain ⟨g', hgenuine⟩ := horphans report hreport
      exact ⟨g', hgenuine.of_extends (hlives g')⟩
  · have hgate := (h.gates g).answered hn
    obtain ⟨item, status, hphase, -, rfl, hanswered⟩ := GateNode.answered_cases hn
    have hgenuine := (h.gates g).genuine_of_handling hphase (w.ended g)
    have hgrown : (w.network.gates g).processor.lastValidations <+:
        n.processor.lastValidations := hanswered ▸ List.prefix_rfl
    have hlives := lives_extends (w := w)
      (s := { w.network.setGate g n with reports := (submitReport w.network.reports
        (some (validationReport (w.network.gates g).processor.gateId item.value))).2 }) rfl hgrown
    refine ⟨State.forall_gates_setGate (P := fun g n => GateInv capacity (ids g) n) hgate
      fun g' _ => h.gates g', fun g' report hreport => ?_, fun report hreport => ?_⟩
    · rcases submitReport_eq_some hreport with hold | ⟨hid, rfl⟩
      · exact (h.kept g' report hold).of_extends (hlives g')
      · obtain rfl := hids (hid.trans (h.gates g).gateId_eq)
        exact hgenuine.of_extends (hlives _)
    · obtain ⟨g', hgenuine'⟩ := horphans report hreport
      exact ⟨g', hgenuine'.of_extends (hlives g')⟩

/-- What the process that stops has recorded goes to the history, and the call that it leaves behind
is about that. -/
theorem WorldInv.restartGate (h : WorldInv capacity ids w) (g : GateName) :
    WorldInv capacity ids (w.restartGate capacity g) := by
  have hlives : ∀ g', Extends (w.lives g') ((w.restartGate capacity g).lives g') := by
    intro g' vs hvs
    refine ⟨vs, ?_, List.prefix_rfl⟩
    by_cases hg : g' = g
    · subst hg
      simp only [World.lives, World.restartGate, Function.update_self]
      exact List.mem_cons_of_mem _ hvs
    · simp only [World.lives, World.restartGate, State.setGate, Function.update_of_ne hg]
      exact hvs
  refine ⟨State.forall_gates_setGate (P := fun g n => GateInv capacity (ids g) n) ?_
    fun g' _ => h.gates g', fun g' report hreport => ?_, fun report hreport => ?_⟩
  · rw [(h.gates g).gateId_eq]
    exact GateInv.init capacity (ids g)
  · exact (h.kept g' report hreport).of_extends (hlives g')
  · rcases List.mem_append.mp hreport with hreport | hreport
    · have hgenuine := (h.gates g).genuine_of_unanswered (Option.mem_toList.mp hreport) (w.ended g)
      exact ⟨g, hgenuine.of_extends (hlives g)⟩
    · obtain ⟨g', hgenuine⟩ := h.orphans report hreport
      exact ⟨g', hgenuine.of_extends (hlives g')⟩

theorem WorldInv.advance (h : WorldInv capacity ids w) (hcapacity : 0 < capacity)
    (hids : Function.Injective ids) {o : Occurrence GateName}
    (hstep : advance capacity w o = some w') : WorldInv capacity ids w' := by
  cases o with
  | usual e =>
      obtain ⟨s, hs, rfl⟩ := Option.map_eq_some_iff.mp hstep
      exact h.usual hcapacity hids hs
  | backOfficeRestarts =>
      obtain rfl := Option.some.inj hstep
      exact ⟨h.gates, fun _ _ hreport => (nomatch hreport), h.orphans⟩
  | gateRestarts g =>
      obtain rfl := Option.some.inj hstep
      exact h.restartGate g
  | late report =>
      rw [Network.advance] at hstep
      split at hstep
      · rename_i horphan
        obtain rfl := Option.some.inj hstep
        refine ⟨h.gates, fun g kept hkept => ?_, fun other hother => ?_⟩
        · rcases submitReport_eq_some hkept with hold | ⟨hid, rfl⟩
          · exact h.kept g kept hold
          · obtain ⟨g', hgenuine⟩ := h.orphans _ horphan
            obtain ⟨vs, -, k, -, rfl⟩ := id hgenuine
            obtain rfl := hids hid
            exact hgenuine
        · exact h.orphans other (List.mem_of_mem_erase hother)
      · exact nomatch hstep

theorem worldInv_of_run (hcapacity : 0 < capacity) (hids : Function.Injective ids)
    {occurrences : List (Occurrence GateName)}
    (hrun : run (advance capacity) (World.start ids capacity) occurrences = some w) :
    WorldInv capacity ids w :=
  invariant_of_run (advance capacity) (I := WorldInv capacity ids)
    (fun _ _ _ h hstep => h.advance hcapacity hids hstep) (worldInv_start capacity ids) hrun

/-- Whatever processes stop and start again, and however late the calls that were given up are run:
what `GetReport` answers about a gate are the counts of all that one of its processes had recorded
by some time. -/
theorem reports_genuine (hcapacity : 0 < capacity) (hids : Function.Injective ids)
    {occurrences : List (Occurrence GateName)}
    (hrun : run (advance capacity) (World.start ids capacity) occurrences = some w) (g : GateName)
    {status : Status} {report : GateTicketsValidationReport}
    (hget : getReport w.network.reports (some (ids g)) = (status, some report)) :
    ∃ vs ∈ w.lives g, ∃ k < vs.length,
      report = validationReport (ids g) (tally (vs.take (k + 1))) := by
  apply (worldInv_of_run hcapacity hids hrun).kept g report
  rw [getReport] at hget
  split at hget
  · cases hget
  · split at hget
    · cases hget
    · rename_i kept hkept
      rw [hkept, Option.some.inj (congrArg Prod.snd hget)]

/-- A gate stops while it waits for an answer, and is started again before its call is run. -/
def lateCall : List (Occurrence Bool) :=
  [.usual (.record true ⟨ascii "a", .online, .valid, 0⟩), .usual (.copyFront true),
    .gateRestarts true, .late (validationReport "GATE-1" ⟨1, 1, 0, 1, 0⟩)]

theorem reports_genuine_late_call :
    ∃ w, run (advance maxSizeOfValidationQ) (World.start twoGates maxSizeOfValidationQ) lateCall =
        some w ∧
      (w.network.gates true).processor.lastValidations = [] ∧
      ∃ vs ∈ w.lives true, ∃ k < vs.length,
        validationReport "GATE-1" ⟨1, 1, 0, 1, 0⟩ =
          validationReport "GATE-1" (tally (vs.take (k + 1))) := by
  have hcapacity : 0 < maxSizeOfValidationQ := by decide
  obtain ⟨w, hw⟩ : ∃ w, run (advance maxSizeOfValidationQ)
      (World.start twoGates maxSizeOfValidationQ) lateCall = some w := ⟨_, rfl⟩
  have hget : getReport w.network.reports (some (twoGates true)) =
      (⟨.ok, ""⟩, some (validationReport "GATE-1" ⟨1, 1, 0, 1, 0⟩)) := by
    rw [← Option.some.inj hw]
    rfl
  refine ⟨w, hw, ?_, reports_genuine hcapacity twoGates_injective hw true hget⟩
  rw [← Option.some.inj hw]
  rfl

end Ticketing.Network
