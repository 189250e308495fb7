import Ticketing.BackOffice.Overlap
import Ticketing.BackOffice.Server

/-!
# What becomes of the tickets of overlapping calls when writes fail

Up to here the writes of overlapping calls have succeeded. Now every save may end as `persist` can:
the file is not opened, it is cut short, or all is well. The calls notice none of it: they return a
ticket in any case. So the tickets that have been returned are those that have been saved, in one
order, and each is stored or lost as its own write has ended, until a write stops short. That write
loses all tickets at once and is the last: no call returns a ticket after it, neither one that has
yet to read the largest id nor one whose ticket waits to be saved.
-/

namespace Ticketing.BackOffice.Concurrent

open StepRun

variable {F : Type} [Double F] {c : Codec F} {CallName : Type*} [DecidableEq CallName]
  {requests : CallName → CreateRequest}

/-- A step of the calls as before, but for what becomes of the write where the step saves. -/
def stepUnder (c : Codec F) (requests : CallName → CreateRequest) (s : Concurrent CallName) :
    CallStep CallName × Write → Option (Concurrent CallName)
  | (.save k, write) =>
      match s.phase k with
      | .hasTicket t =>
          match BackOffice.save c s.file t write with
          | .ok file' =>
              some { s.setPhase k (.returned (.noErr, encodeTicket c t)) with file := file' }
          | .error e => some (s.setPhase k (.threw e))
      | _ => none
  | (a, _) => step c requests s a

theorem stepUnder_completes (s : Concurrent CallName) (a : CallStep CallName) :
    stepUnder c requests s (a, .completes) = step c requests s a := by
  cases a <;> rfl

theorem stepUnder_save {s : Concurrent CallName} {k : CallName} {t : Ticket}
    (hphase : s.phase k = .hasTicket t) {write : Write} {file' : TicketFile}
    (hsave : BackOffice.save c s.file t write = .ok file') :
    stepUnder c requests s (.save k, write) =
      some { s.setPhase k (.returned (.noErr, encodeTicket c t)) with file := file' } := by
  simp only [stepUnder, hphase, hsave]

structure Saved (CallName : Type*) where
  call : CallName
  ticket : Ticket
  write : Write

/-- The write has truncated the file and not written all of it. -/
def StopsShort (write : Write) : Prop := ∃ written, write = .stopsShort written

def kept (saves : List (Saved CallName)) : List Ticket :=
  (saves.filter fun r => r.write = .completes).map Saved.ticket

/-- What the saves make of a store that has these tickets first. -/
def Leave (tickets : List Ticket) (saves : List (Saved CallName)) : Store → Prop
  | some stored => stored = tickets ++ kept saves ∧ ∀ r ∈ saves, ¬ StopsShort r.write
  | none => ∃ earlier last, saves = earlier ++ [last] ∧ StopsShort last.write ∧
      ∀ r ∈ earlier, ¬ StopsShort r.write

/-- The calls that have returned a ticket are those that have saved one, and the file is what these
saves leave. -/
structure Accounted (c : Codec F) (requests : CallName → CreateRequest) (tickets : List Ticket)
    (s : Concurrent CallName) (saves : List (Saved CallName)) : Prop
    extends Issued c requests s (saves.map fun r => (r.call, r.ticket)) where
  backs : ∃ store, Backs c s.file store ∧ Leave tickets saves store

/-! ### One save -/

omit [DecidableEq CallName] in
theorem Leave.save {tickets stored : List Ticket} {saves : List (Saved CallName)}
    (h : Leave tickets saves (some stored)) (k : CallName) (t : Ticket) (write : Write) :
    Leave tickets (saves ++ [⟨k, t, write⟩]) (Store.save stored t write) := by
  obtain ⟨rfl, hwhole⟩ := h
  have hall (hwrite : ¬ StopsShort write) : ∀ r ∈ saves ++ [⟨k, t, write⟩], ¬ StopsShort r.write :=
    List.forall_mem_append.mpr ⟨hwhole, List.forall_mem_singleton.mpr hwrite⟩
  cases write with
  | openFails =>
      refine ⟨?_, hall fun ⟨_, hwrite⟩ => by cases hwrite⟩
      simp [kept, List.filter_append]
  | stopsShort written => exact ⟨saves, _, rfl, ⟨written, rfl⟩, hwhole⟩
  | completes =>
      refine ⟨?_, hall fun ⟨_, hwrite⟩ => by cases hwrite⟩
      simp [kept, List.filter_append]

inductive MovesOn (r : CreateRequest) : CallPhase → CallPhase → Prop
  | passes : MovesOn r .started .checked
  | refused {result : TicketErrorCode × Bytes} (hrefused : result.1 ≠ .noErr) :
      MovesOn r .started (.returned result)
  | reads (last : Int64) : MovesOn r .checked (.hasTicket (newTicket r last))
  | readThrows (e : JsonError) : MovesOn r .checked (.threw e)
  | saveThrows (t : Ticket) (e : JsonError) : MovesOn r (.hasTicket t) (.threw e)

omit [Double F] in
theorem Issued.moveOn {s : Concurrent CallName} {saves : List (CallName × Ticket)}
    (h : Issued c requests s saves) {k : CallName} {p : CallPhase}
    (hmoves : MovesOn (requests k) (s.phase k) p) : Issued c requests (s.setPhase k p) saves := by
  generalize hold : s.phase k = old at hmoves
  apply h.setPhase
  · intro result hresult
    rw [← hold, hresult] at hmoves
    cases hmoves
  · rintro encoded rfl
    cases hmoves with
    | refused hrefused => exact hrefused rfl
  · rintro t rfl
    cases hmoves with
    | reads last => exact ⟨last, rfl⟩

/-- A step either saves a ticket in a store that is not lost or does no more than move one call on
that has not come to its end yet. -/
theorem stepUnder_cases (hc : c.Lawful) {s s' : Concurrent CallName} {store : Store}
    (hbacks : Backs c s.file store) {a : CallStep CallName} {write : Write}
    (h : stepUnder c requests s (a, write) = some s') :
    (∃ k p, s' = s.setPhase k p ∧ MovesOn (requests k) (s.phase k) p) ∨
    ∃ k t stored file', a = .save k ∧ s.phase k = .hasTicket t ∧ store = some stored ∧
      Backs c file' (Store.save stored t write) ∧
      s' = { s.setPhase k (.returned (.noErr, encodeTicket c t)) with file := file' } := by
  cases a with
  | check k clock =>
      left
      change step c requests s (.check k clock) = some s' at h
      rw [step] at h
      split at h
      · rename_i hphase
        split at h
        · rename_i refused hcheck
          refine ⟨k, _, (Option.some.inj h).symm, ?_⟩
          rw [hphase]
          exact .refused (checkRequest_ne_noErr hcheck)
        · refine ⟨k, _, (Option.some.inj h).symm, ?_⟩
          rw [hphase]
          exact .passes
      · cases h
  | getLastTicketId k =>
      left
      change step c requests s (.getLastTicketId k) = some s' at h
      rw [step] at h
      split at h
      · rename_i hphase
        split at h
        · refine ⟨k, _, (Option.some.inj h).symm, ?_⟩
          rw [hphase]
          exact .reads _
        · refine ⟨k, _, (Option.some.inj h).symm, ?_⟩
          rw [hphase]
          exact .readThrows _
      · cases h
  | save k =>
      rw [stepUnder] at h
      split at h
      · rename_i t hphase
        cases store with
        | none =>
            left
            have hthrows : BackOffice.save c s.file t write = .error .parseError := by
              rw [BackOffice.save, hbacks.load_eq]
              rfl
            rw [hthrows] at h
            refine ⟨k, _, (Option.some.inj h).symm, ?_⟩
            rw [hphase]
            exact .saveThrows t _
        | some stored =>
            right
            have hholds : Holds c s.file stored := hbacks
            obtain ⟨file', hsave, hbacks'⟩ := hholds.save_backs hc t write
            rw [hsave] at h
            exact ⟨k, t, stored, file', rfl, hphase, rfl, hbacks', (Option.some.inj h).symm⟩
      · cases h

/-! ### Over a run -/

omit [Double F] [DecidableEq CallName] in
theorem init_accounted {file : TicketFile} {tickets : List Ticket} (hfile : Holds c file tickets) :
    Accounted c requests tickets (init CallName file) [] where
  toIssued := init_issued file
  backs := ⟨some tickets, hfile, (List.append_nil tickets).symm,
    fun _ hmem => absurd hmem List.not_mem_nil⟩

theorem Accounted.next (hc : c.Lawful) {tickets : List Ticket} {s s' : Concurrent CallName}
    {saves : List (Saved CallName)} (h : Accounted c requests tickets s saves)
    {a : CallStep CallName × Write} (hstep : stepUnder c requests s a = some s') :
    ∃ more : List (Saved CallName), Accounted c requests tickets s' (saves ++ more) ∧
      (more.map fun r => (CallStep.save r.call, r.write)).Sublist [a] := by
  obtain ⟨a, write⟩ := a
  obtain ⟨store, hbacks, hleave⟩ := h.backs
  rcases stepUnder_cases hc hbacks hstep with ⟨k, p, rfl, hmoves⟩ |
    ⟨k, t, stored, file', rfl, hphase, rfl, hbacks', rfl⟩
  · refine ⟨[], ?_, List.nil_sublist _⟩
    rw [List.append_nil]
    exact ⟨h.moveOn hmoves, store, hbacks, hleave⟩
  · refine ⟨[⟨k, t, write⟩], ⟨?_, _, hbacks', hleave.save k t write⟩, List.Sublist.refl _⟩
    rw [List.map_append]
    exact h.toIssued.save hphase file'

theorem Accounted.of_run (hc : c.Lawful) {tickets : List Ticket} {s s' : Concurrent CallName}
    {saves : List (Saved CallName)} (h : Accounted c requests tickets s saves)
    {steps : List (CallStep CallName × Write)}
    (hrun : run (stepUnder c requests) s steps = some s') :
    ∃ more : List (Saved CallName), Accounted c requests tickets s' (saves ++ more) ∧
      (more.map fun r => (CallStep.save r.call, r.write)).Sublist steps := by
  induction steps generalizing s saves with
  | nil =>
      rw [run_nil, Option.some.injEq] at hrun
      refine ⟨[], ?_, List.nil_sublist _⟩
      rw [List.append_nil, ← hrun]
      exact h
  | cons a steps ih =>
      obtain ⟨s₁, hstep, hrest⟩ := (run_cons_eq_some _).mp hrun
      obtain ⟨first, hfirst, hsteps⟩ := h.next hc hstep
      obtain ⟨rest, hall, hsteps'⟩ := ih hfirst hrest
      refine ⟨first ++ rest, ?_, ?_⟩
      · rw [← List.append_assoc]
        exact hall
      · rw [List.map_append, ← List.singleton_append]
        exact hsteps.append hsteps'

/-- However calls overlap and whatever becomes of their writes, the calls that have returned a
ticket are those that have saved one, each once, with what it has asked for. As long as no write has
stopped short, the store has the tickets whose writes have completed, in the order of the saves, and
no others. A write that stops short loses all of them, and no call returns a ticket after it. -/
theorem returned_tickets_accounted (hc : c.Lawful) {file : TicketFile} {tickets : List Ticket}
    (hfile : Holds c file tickets) {steps : List (CallStep CallName × Write)}
    {s : Concurrent CallName}
    (hrun : run (stepUnder c requests) (init CallName file) steps = some s) :
    ∃ saves : List (Saved CallName),
      (saves.map fun r => (CallStep.save r.call, r.write)).Sublist steps ∧
      (saves.map Saved.call).Nodup ∧
      (∀ r ∈ saves, AskedFor (requests r.call) r.ticket ∧
        s.phase r.call = .returned (.noErr, encodeTicket c r.ticket)) ∧
      (∀ k encoded, s.phase k = .returned (.noErr, encoded) → k ∈ saves.map Saved.call) ∧
      ((findAll c s.file = .ok (tickets ++ kept saves) ∧ ∀ r ∈ saves, ¬ StopsShort r.write) ∨
        (findAll c s.file = .error .parseError ∧ ∃ earlier last, saves = earlier ++ [last] ∧
          StopsShort last.write ∧ ∀ r ∈ earlier, ¬ StopsShort r.write)) := by
  obtain ⟨saves, h, hsteps⟩ := (init_accounted hfile).of_run hc hrun
  rw [List.nil_append] at h
  have hissued (r : Saved CallName) (hr : r ∈ saves) :
      (r.call, r.ticket) ∈ saves.map fun r => (r.call, r.ticket) := List.mem_map_of_mem hr
  refine ⟨saves, hsteps, ?_, fun r hr => ⟨h.asked _ _ (Or.inl (hissued r hr)),
    h.returned _ _ (hissued r hr)⟩, fun k encoded hk => ?_, ?_⟩
  · have honce := h.once
    rwa [List.map_map] at honce
  · obtain ⟨t, hmem⟩ := h.saved k encoded hk
    obtain ⟨r, hr, hpair⟩ := List.mem_map.mp hmem
    exact List.mem_map.mpr ⟨r, hr, congrArg Prod.fst hpair⟩
  · obtain ⟨store, hbacks, hleave⟩ := h.backs
    cases store with
    | some stored =>
        have hholds : Holds c s.file stored := hbacks
        obtain ⟨rfl, hwhole⟩ := hleave
        exact Or.inl ⟨hholds.findAll_eq, hwhole⟩
    | none =>
        refine Or.inr ⟨?_, hleave⟩
        rw [findAll, hbacks.load_eq]
        rfl

theorem returned_tickets_accounted_two_calls :
    ∃ s : Concurrent Bool, ∃ saves : List (Saved Bool),
      run (stepUnder referenceCodec fun _ => ⟨1, 5, 1000⟩) (init Bool none)
        [(.check false ⟨1000, 1001⟩, .completes), (.check true ⟨1000, 1001⟩, .completes),
          (.getLastTicketId false, .completes), (.getLastTicketId true, .completes),
          (.save false, .openFails), (.save true, .completes)] = some s ∧
      (saves.map Saved.call).Nodup ∧
      ((findAll referenceCodec s.file = .ok ([] ++ kept saves) ∧
          ∀ r ∈ saves, ¬ StopsShort r.write) ∨
        (findAll referenceCodec s.file = .error .parseError ∧ ∃ earlier last,
          saves = earlier ++ [last] ∧ StopsShort last.write ∧
            ∀ r ∈ earlier, ¬ StopsShort r.write)) := by
  have hnew := holds_none referenceCodec
  obtain ⟨file', hsave, -⟩ := hnew.save_completes referenceCodec_lawful ⟨1, 1000, 1, 5⟩
  have hfailed := hnew.save_openFails referenceCodec_lawful ⟨1, 1000, 1, 5⟩
  obtain ⟨s, hrun⟩ : ∃ s, run (stepUnder referenceCodec fun _ => ⟨1, 5, 1000⟩) (init Bool none)
      [(.check false ⟨1000, 1001⟩, .completes), (.check true ⟨1000, 1001⟩, .completes),
        (.getLastTicketId false, .completes), (.getLastTicketId true, .completes),
        (.save false, .openFails), (.save true, .completes)] = some s := by
    simp only [run_cons_eq_some]
    exact ⟨_, _, rfl, _, rfl, _, rfl, _, rfl, _, stepUnder_save rfl hfailed, _,
      (stepUnder_completes _ _).trans (step_save rfl hsave), rfl⟩
  obtain ⟨saves, -, honce, -, -, hstored⟩ :=
    returned_tickets_accounted referenceCodec_lawful hnew hrun
  exact ⟨s, saves, hrun, honce, hstored⟩

end Ticketing.BackOffice.Concurrent
