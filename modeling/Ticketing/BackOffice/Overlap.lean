import Ticketing.BackOffice.Concurrency

/-!
# What overlapping calls can rely on

Calls of `create_ticket_base64` that overlap may issue the same id. This module is about what they
cannot do. No ticket gets lost and none is stored twice: the store is at every moment the tickets of
the calls that have come to their end, in the order in which these have saved them. A call that
begins to look for an id after another has returned issues a larger one, so that an id is shared
only by calls that overlap, and by no more of them than there are at one time between the reading of
the largest id and the saving. And a call that nobody gets in between of issues a text that leads to
its own ticket for good, whatever other calls do before, meanwhile and afterwards.
-/

namespace Ticketing.BackOffice.Concurrent

open StepRun

variable {F : Type} [Double F] {c : Codec F} {CallName : Type*} [DecidableEq CallName]
  {requests : CallName → CreateRequest}

theorem holds_unique {file : TicketFile} {tickets tickets' : List Ticket}
    (h : Holds c file tickets) (h' : Holds c file tickets') : tickets = tickets' :=
  Except.ok.inj (h.findAll_eq.symm.trans h'.findAll_eq)

/-! ### The tickets of the calls that have returned -/

def savers : List (CallStep CallName) → List CallName
  | [] => []
  | .save k :: steps => k :: savers steps
  | .check _ _ :: steps => savers steps
  | .getLastTicketId _ :: steps => savers steps

def AskedFor (r : CreateRequest) (t : Ticket) : Prop := ∃ last, t = newTicket r last

/-- These are the calls that have returned a ticket, with their tickets. -/
structure Issued (c : Codec F) (requests : CallName → CreateRequest) (s : Concurrent CallName)
    (saves : List (CallName × Ticket)) : Prop where
  once : (saves.map Prod.fst).Nodup
  returned : ∀ k t, (k, t) ∈ saves → s.phase k = .returned (.noErr, encodeTicket c t)
  saved : ∀ k encoded, s.phase k = .returned (.noErr, encoded) → ∃ t, (k, t) ∈ saves
  asked : ∀ k t, (k, t) ∈ saves ∨ s.phase k = .hasTicket t → AskedFor (requests k) t

omit [Double F] [DecidableEq CallName] in
theorem init_issued (file : TicketFile) : Issued c requests (init CallName file) [] where
  once := List.nodup_nil
  returned _ _ hmem := absurd hmem List.not_mem_nil
  saved _ _ := nofun
  asked _ _ hmem := hmem.elim (fun hmem => absurd hmem List.not_mem_nil) nofun

omit [Double F] in
theorem Issued.setPhase {s : Concurrent CallName} {saves : List (CallName × Ticket)}
    (h : Issued c requests s saves) {k : CallName} {p : CallPhase}
    (hopen : ∀ result, s.phase k ≠ .returned result)
    (hreturned : ∀ encoded, p ≠ .returned (.noErr, encoded))
    (hasked : ∀ t, p = .hasTicket t → AskedFor (requests k) t) :
    Issued c requests (s.setPhase k p) saves where
  once := h.once
  returned k' t hmem := by
    have hphase := h.returned k' t hmem
    have hne : k' ≠ k := fun heq => hopen _ (heq ▸ hphase)
    exact (Function.update_of_ne hne _ _).trans hphase
  saved k' encoded hk' := by
    rcases of_phase_setPhase hk' with ⟨-, hp⟩ | ⟨-, hold⟩
    · exact absurd hp (hreturned encoded)
    · exact h.saved k' encoded hold
  asked k' t hmem := by
    rcases hmem with hmem | hk'
    · exact h.asked k' t (Or.inl hmem)
    · rcases of_phase_setPhase hk' with ⟨rfl, hp⟩ | ⟨-, hold⟩
      · exact hasked t hp
      · exact h.asked k' t (Or.inr hold)

omit [Double F] in
theorem Issued.save {s : Concurrent CallName} {saves : List (CallName × Ticket)}
    (h : Issued c requests s saves) {k : CallName} {t : Ticket}
    (hphase : s.phase k = .hasTicket t) (file' : TicketFile) :
    Issued c requests { s.setPhase k (.returned (.noErr, encodeTicket c t)) with file := file' }
      (saves ++ [(k, t)]) where
  once := by
    rw [List.map_append, List.map_singleton, ← List.concat_eq_append, List.nodup_concat]
    refine ⟨fun hmem => ?_, h.once⟩
    obtain ⟨⟨k', t'⟩, hsaved, rfl⟩ := List.mem_map.mp hmem
    rw [h.returned k' t' hsaved] at hphase
    exact nomatch hphase
  returned k' t' hmem := by
    rcases List.mem_append.mp hmem with hmem | hmem
    · have hold := h.returned k' t' hmem
      have hne : k' ≠ k := by
        rintro rfl
        rw [hold] at hphase
        exact nomatch hphase
      exact (Function.update_of_ne hne _ _).trans hold
    · cases List.mem_singleton.mp hmem
      exact Function.update_self k _ s.phase
  saved k' encoded hk' := by
    rcases of_phase_setPhase hk' with ⟨rfl, -⟩ | ⟨-, hold⟩
    · exact ⟨t, List.mem_append_right _ List.mem_cons_self⟩
    · obtain ⟨t', hmem⟩ := h.saved k' encoded hold
      exact ⟨t', List.mem_append_left _ hmem⟩
  asked k' t' hmem := by
    rcases hmem with hmem | hk'
    · rcases List.mem_append.mp hmem with hmem | hmem
      · exact h.asked k' t' (Or.inl hmem)
      · cases List.mem_singleton.mp hmem
        exact h.asked k t (Or.inr hphase)
    · rcases of_phase_setPhase hk' with ⟨-, hp⟩ | ⟨-, hold⟩
      · exact nomatch hp
      · exact h.asked k' t' (Or.inr hold)

/-- The store is the first tickets with those of the calls in `saves` behind them, which are the
calls that have returned one. -/
structure Recorded (c : Codec F) (requests : CallName → CreateRequest) (tickets : List Ticket)
    (s : Concurrent CallName) (saves : List (CallName × Ticket)) : Prop
    extends Issued c requests s saves where
  holds : Holds c s.file (tickets ++ saves.map Prod.snd)

omit [Double F] [DecidableEq CallName] in
theorem init_recorded {file : TicketFile} {tickets : List Ticket} (hfile : Holds c file tickets) :
    Recorded c requests tickets (init CallName file) [] where
  toIssued := init_issued file
  holds := by
    rw [List.map_nil, List.append_nil]
    exact hfile

omit [Double F] in
theorem Recorded.save {tickets : List Ticket} {s : Concurrent CallName}
    {saves : List (CallName × Ticket)} (h : Recorded c requests tickets s saves) {k : CallName}
    {t : Ticket} (hphase : s.phase k = .hasTicket t) {file' : TicketFile}
    (hfile' : Holds c file' (tickets ++ saves.map Prod.snd ++ [t])) :
    Recorded c requests tickets
      { s.setPhase k (.returned (.noErr, encodeTicket c t)) with file := file' }
      (saves ++ [(k, t)]) where
  toIssued := h.toIssued.save hphase file'
  holds := by
    rw [List.map_append, ← List.append_assoc]
    exact hfile'

omit [Double F] in
theorem hasTicket_setPhase {s : Concurrent CallName} {k : CallName}
    (hk : ∀ t, s.phase k ≠ .hasTicket t) (p : CallPhase) {k' : CallName} {t : Ticket}
    (ht : s.phase k' = .hasTicket t) : (s.setPhase k p).phase k' = .hasTicket t := by
  have hne : k' ≠ k := fun heq => hk t (heq ▸ ht)
  exact (Function.update_of_ne hne _ _).trans ht

theorem Recorded.next (hc : c.Lawful) {tickets : List Ticket} {s s' : Concurrent CallName}
    {saves : List (CallName × Ticket)} (h : Recorded c requests tickets s saves)
    {a : CallStep CallName} (hstep : step c requests s a = some s') :
    ∃ more, Recorded c requests tickets s' (saves ++ more) ∧ more.map Prod.fst = savers [a] ∧
      ∀ k t, s.phase k = .hasTicket t → s'.phase k = .hasTicket t ∨ (k, t) ∈ more := by
  rcases step_cases hc h.holds hstep with ⟨k, clock, p, rfl, hphase, rfl, hp⟩ |
    ⟨k, rfl, hphase, rfl⟩ | ⟨k, t, file', rfl, hphase, hfile', rfl⟩
  · refine ⟨[], ?_, rfl, fun k' t ht => Or.inl (hasTicket_setPhase (by rw [hphase]; nofun) p ht)⟩
    rw [List.append_nil]
    refine ⟨h.setPhase (fun result hresult => nomatch hphase.symm.trans hresult) ?_ ?_, h.holds⟩
    · rintro encoded rfl
      rcases hp with hp | ⟨refused, hp, hne⟩
      · exact nomatch hp
      · exact hne (congrArg Prod.fst (CallPhase.returned.inj hp).symm)
    · rintro t rfl
      rcases hp with hp | ⟨refused, hp, -⟩ <;> exact nomatch hp
  · refine ⟨[], ?_, rfl, fun k' t ht => Or.inl (hasTicket_setPhase (by rw [hphase]; nofun) _ ht)⟩
    rw [List.append_nil]
    refine ⟨h.setPhase (fun result hresult => nomatch hphase.symm.trans hresult)
      (fun _ => nofun) ?_, h.holds⟩
    intro t ht
    exact ⟨_, (CallPhase.hasTicket.inj ht).symm⟩
  · refine ⟨[(k, t)], h.save hphase hfile', rfl, fun k' u hu => ?_⟩
    by_cases hk : k' = k
    · subst hk
      rw [hphase, CallPhase.hasTicket.injEq] at hu
      exact Or.inr (hu ▸ List.mem_cons_self)
    · exact Or.inl ((Function.update_of_ne hk _ _).trans hu)

omit [DecidableEq CallName] in
theorem savers_cons (a : CallStep CallName) (steps : List (CallStep CallName)) :
    savers (a :: steps) = savers [a] ++ savers steps := by
  cases a <;> rfl

theorem Recorded.of_run (hc : c.Lawful) {tickets : List Ticket} {s s' : Concurrent CallName}
    {saves : List (CallName × Ticket)} (h : Recorded c requests tickets s saves)
    {steps : List (CallStep CallName)} (hrun : run (step c requests) s steps = some s') :
    ∃ more, Recorded c requests tickets s' (saves ++ more) ∧ more.map Prod.fst = savers steps ∧
      ∀ k t, s.phase k = .hasTicket t → s'.phase k = .hasTicket t ∨ (k, t) ∈ more := by
  induction steps generalizing s saves with
  | nil =>
      rw [run_nil, Option.some.injEq] at hrun
      refine ⟨[], ?_, rfl, fun k t ht => Or.inl (hrun ▸ ht)⟩
      rw [List.append_nil, ← hrun]
      exact h
  | cons a steps ih =>
      obtain ⟨s₁, hstep, hrest⟩ := (run_cons_eq_some _).mp hrun
      obtain ⟨first, hfirst, hnames, hwaits⟩ := h.next hc hstep
      obtain ⟨rest, hall, hnames', hwaits'⟩ := ih hfirst hrest
      refine ⟨first ++ rest, ?_, ?_, fun k t ht => ?_⟩
      · rw [← List.append_assoc]
        exact hall
      · rw [List.map_append, hnames, hnames', ← savers_cons]
      · rcases hwaits k t ht with ht | hmem
        · exact (hwaits' k t ht).imp_right (List.mem_append_right _)
        · exact Or.inr (List.mem_append_left _ hmem)

/-- In every interleaving the store is the first tickets with one ticket behind them for each call
that has saved, in the order of the saves. These are the calls that have returned a ticket: each has
asked for it and has been given its text. -/
theorem stored_exactly_once (hc : c.Lawful) {file : TicketFile} {tickets : List Ticket}
    (hfile : Holds c file tickets) {steps : List (CallStep CallName)} {s : Concurrent CallName}
    (hrun : run (step c requests) (init CallName file) steps = some s) :
    ∃ saves : List (CallName × Ticket),
      findAll c s.file = .ok (tickets ++ saves.map Prod.snd) ∧
      saves.map Prod.fst = savers steps ∧ (savers steps).Nodup ∧
      (∀ k t, (k, t) ∈ saves → AskedFor (requests k) t ∧
        s.phase k = .returned (.noErr, encodeTicket c t)) ∧
      ∀ k encoded, s.phase k = .returned (.noErr, encoded) → k ∈ savers steps := by
  obtain ⟨saves, h, hnames, -⟩ := (init_recorded hfile).of_run hc hrun
  rw [List.nil_append] at h
  refine ⟨saves, h.holds.findAll_eq, hnames, hnames ▸ h.once,
    fun k t hmem => ⟨h.asked k t (Or.inl hmem), h.returned k t hmem⟩, fun k encoded hk => ?_⟩
  obtain ⟨t, hmem⟩ := h.saved k encoded hk
  exact hnames ▸ List.mem_map_of_mem hmem

/-- A call comes to its end while another has only begun. -/
theorem stored_exactly_once_one_of_two :
    ∃ s : Concurrent Bool, ∃ saves : List (Bool × Ticket),
      findAll referenceCodec s.file = .ok ([] ++ saves.map Prod.snd) ∧
      saves.map Prod.fst = [false] ∧
      ∀ k t, (k, t) ∈ saves → AskedFor ⟨1, 5, 1000⟩ t := by
  have hnew := holds_none referenceCodec
  obtain ⟨file', hsave, -⟩ := hnew.save_completes referenceCodec_lawful ⟨1, 1000, 1, 5⟩
  obtain ⟨s, hrun⟩ : ∃ s, run (step referenceCodec fun _ => ⟨1, 5, 1000⟩) (init Bool none)
      [.check true ⟨1000, 1001⟩, .check false ⟨1000, 1001⟩, .getLastTicketId false,
        .save false] = some s := by
    simp only [run_cons_eq_some]
    exact ⟨_, _, rfl, _, rfl, _, rfl, _, step_save rfl hsave, rfl⟩
  obtain ⟨saves, hfind, hnames, -, hsaves, -⟩ :=
    stored_exactly_once referenceCodec_lawful hnew hrun
  exact ⟨s, saves, hfind, hnames, fun k t hmem => (hsaves k t hmem).1⟩

/-! ### Ids in real time -/

theorem Inv.next (hc : c.Lawful) {n : Nat} {s s' : Concurrent CallName} {tickets : List Ticket}
    {a : CallStep CallName} (h : Inv c (n + reads [a]) s tickets)
    (hstep : Concurrent.step c requests s a = some s') : ∃ tickets', Inv c n s' tickets' := by
  rcases step_cases hc h.holds hstep with ⟨k, clock, p, rfl, hphase, rfl, hp⟩ |
    ⟨k, rfl, hphase, rfl⟩ | ⟨k, t, file', rfl, hphase, hfile', rfl⟩
  · refine ⟨tickets, h.setPhase k ?_⟩
    rintro t rfl
    rcases hp with hp | ⟨refused, hp, -⟩ <;> exact nomatch hp
  · refine ⟨tickets, (h.mono (Nat.le_add_right n 1)).setPhase k fun t ht => ?_⟩
    rw [← CallPhase.hasTicket.inj ht]
    exact waits_newTicket h.room (requests k)
  · exact ⟨_, h.save hphase hfile' fun _ => nofun⟩

theorem Inv.of_run (hc : c.Lawful) {n : Nat} {s s' : Concurrent CallName} {tickets : List Ticket}
    {steps : List (CallStep CallName)} (h : Inv c (n + reads steps) s tickets)
    (hrun : run (Concurrent.step c requests) s steps = some s') :
    ∃ tickets', Inv c n s' tickets' := by
  induction steps generalizing s tickets with
  | nil =>
      rw [run_nil, Option.some.injEq] at hrun
      exact ⟨tickets, hrun ▸ h⟩
  | cons a steps ih =>
      obtain ⟨s₁, hstep, hrest⟩ := (run_cons_eq_some _).mp hrun
      rw [reads_cons, ← Nat.add_assoc] at h
      obtain ⟨tickets₁, h₁⟩ := h.next hc hstep
      exact ih h₁ hrest

omit [Double F] [DecidableEq CallName] in
theorem reads_append (steps steps' : List (CallStep CallName)) :
    reads (steps ++ steps') = reads steps + reads steps' := by
  induction steps with
  | nil => exact (Nat.zero_add _).symm
  | cons a steps ih =>
      rw [List.cons_append, reads_cons, ih, reads_cons a steps]
      omega

theorem Recorded.read (hc : c.Lawful) {n : Nat} {tickets ledger : List Ticket}
    {s s' : Concurrent CallName} {saves : List (CallName × Ticket)}
    (h : Recorded c requests tickets s saves) (hinv : Inv c (n + 1) s ledger) {k : CallName}
    (hstep : step c requests s (.getLastTicketId k) = some s') :
    ∃ t, s'.phase k = .hasTicket t ∧
      lastId (tickets ++ saves.map Prod.snd) < t.ticketId := by
  have hledger := holds_unique hinv.holds h.holds
  subst hledger
  rcases step_cases hc h.holds hstep with ⟨k', clock, p, ha, -⟩ | ⟨k', ha, -, rfl⟩ |
    ⟨k', t, file', ha, -⟩
  · exact nomatch ha
  · cases ha
    exact ⟨_, Function.update_self k _ s.phase, hinv.room.lastId_lt_next⟩
  · exact nomatch ha

/-- A call that asks for the largest id after another call has returned a ticket returns one with a
larger id, whatever happens before, in between and afterwards. -/
theorem ids_increase_in_real_time (hc : c.Lawful) {file : TicketFile} {tickets : List Ticket}
    (hfile : Holds c file tickets) {k k' : CallName} {before after : List (CallStep CallName)}
    (hroom : Room (reads (before ++ .getLastTicketId k' :: after)) tickets)
    {s s' : Concurrent CallName}
    (hbefore : run (step c requests) (init CallName file) before = some s)
    (hafter : run (step c requests) s (.getLastTicketId k' :: after) = some s')
    {encoded encoded' : Bytes} (hk : s.phase k = .returned (.noErr, encoded))
    (hk' : s'.phase k' = .returned (.noErr, encoded')) :
    ∃ t t', encoded = encodeTicket c t ∧ encoded' = encodeTicket c t' ∧
      t.ticketId < t'.ticketId := by
  have hreads : reads (before ++ .getLastTicketId k' :: after) =
      (reads after + 1) + reads before := by
    rw [reads_append, reads, Nat.add_comm]
  obtain ⟨saves, h, -, -⟩ := (init_recorded hfile).of_run hc hbefore
  obtain ⟨ledger, hinv⟩ := (init_inv hfile (hreads ▸ hroom)).of_run hc hbefore
  obtain ⟨s₁, hstep, hrest⟩ := (run_cons_eq_some _).mp hafter
  obtain ⟨t', ht', hlt⟩ := h.read hc hinv hstep
  obtain ⟨first, h₁, hfirst, -⟩ := h.next hc hstep
  obtain ⟨rest, h₂, -, hwaits⟩ := h₁.of_run hc hrest
  obtain ⟨t, ht⟩ := h.saved k encoded hk
  have hencoded := h.returned k t ht
  rw [hk, CallPhase.returned.injEq, Prod.mk.injEq] at hencoded
  have hmem : (k', t') ∈ rest := by
    rcases hwaits k' t' ht' with hphase | hmem
    · cases hk'.symm.trans hphase
    · exact hmem
  have hencoded' := h₂.returned k' t' (List.mem_append_right _ hmem)
  rw [hk', CallPhase.returned.injEq, Prod.mk.injEq] at hencoded'
  refine ⟨t, t', hencoded.2, hencoded'.2, lt_of_le_of_lt ?_ hlt⟩
  exact KeyedLog.key_le_largest 0
    (List.mem_append_right tickets (List.mem_map_of_mem (f := Prod.snd) ht))

def alone (k : CallName) (clock : CreateClock) : List (CallStep CallName) :=
  [.check k clock, .getLastTicketId k, .save k]

theorem run_alone (hc : c.Lawful) {s : Concurrent CallName} {tickets : List Ticket}
    (h : Holds c s.file tickets) (requests : CallName → CreateRequest) (k : CallName)
    (clock : CreateClock) (hphase : s.phase k = .started)
    (hcheck : checkRequest (requests k) clock = none) :
    ∃ file', Holds c file' (tickets ++ [newTicket (requests k) (lastId tickets)]) ∧
      createTicketBase64 c s.file (requests k) clock .completes =
        .ok ((.noErr, encodeTicket c (newTicket (requests k) (lastId tickets))), file') ∧
      run (step c requests) s (alone k clock) = some { s.setPhase k (.returned (.noErr,
        encodeTicket c (newTicket (requests k) (lastId tickets)))) with file := file' } := by
  obtain ⟨file', hsave, hfile'⟩ := h.save_completes hc (newTicket (requests k) (lastId tickets))
  refine ⟨file', hfile', h.createTicketBase64_eq hcheck hsave, ?_⟩
  have hchecked : step c requests s (.check k clock) = some (s.setPhase k .checked) := by
    simp only [step, hphase, hcheck]
  have hread : step c requests (s.setPhase k .checked) (.getLastTicketId k) =
      some (s.setPhase k (.hasTicket (newTicket (requests k) (lastId tickets)))) := by
    rw [step_getLastTicketId (s := s.setPhase k _) (Function.update_self k _ s.phase) h]
    simp only [setPhase, Function.update_idem]
  have hsaved : step c requests
      (s.setPhase k (.hasTicket (newTicket (requests k) (lastId tickets)))) (.save k) = some
        { s.setPhase k (.returned (.noErr,
          encodeTicket c (newTicket (requests k) (lastId tickets)))) with file := file' } := by
    rw [step_save (s := s.setPhase k _) (Function.update_self k _ s.phase) hsave]
    simp only [setPhase, Function.update_idem]
  simp only [alone, run_cons_eq_some]
  exact ⟨_, hchecked, _, hread, _, hsaved, rfl⟩

theorem ids_increase_in_real_time_two_calls :
    ∃ s s', run (step referenceCodec fun _ => ⟨1, 5, 1000⟩) (init Bool none)
        (alone false ⟨1000, 1001⟩ ++ [.check true ⟨1000, 1001⟩]) = some s ∧
      run (step referenceCodec fun _ => ⟨1, 5, 1000⟩) s [.getLastTicketId true, .save true] =
        some s' ∧
      ∃ t t', s.phase false = .returned (.noErr, encodeTicket referenceCodec t) ∧
        s'.phase true = .returned (.noErr, encodeTicket referenceCodec t') ∧
        t.ticketId < t'.ticketId := by
  have hnew : Holds referenceCodec (init Bool none).file [] := holds_none referenceCodec
  obtain ⟨file₁, hfile₁, -, hrun₁⟩ := run_alone referenceCodec_lawful hnew (fun _ => ⟨1, 5, 1000⟩)
    false ⟨1000, 1001⟩ rfl rfl
  obtain ⟨file₂, -, -, hrun₂⟩ := run_alone referenceCodec_lawful
    (s := ⟨file₁, Function.update (fun _ => .started) false (.returned (.noErr, _))⟩) hfile₁
    (fun _ => ⟨1, 5, 1000⟩) true ⟨1000, 1001⟩ rfl rfl
  obtain ⟨s, hcheck, hafter⟩ := (run_cons_eq_some _).mp hrun₂
  have hbefore : run (step referenceCodec fun _ => ⟨1, 5, 1000⟩) (init Bool none)
      (alone false ⟨1000, 1001⟩ ++ [.check true ⟨1000, 1001⟩]) = some s :=
    (run_append _).mpr ⟨_, hrun₁, (run_cons_eq_some _).mpr ⟨s, hcheck, rfl⟩⟩
  have hs : s.phase false = .returned (.noErr, encodeTicket referenceCodec ⟨1, 1000, 1, 5⟩) := by
    rw [← Option.some.inj hcheck]
    rfl
  obtain ⟨t, t', ht, ht', hlt⟩ := ids_increase_in_real_time referenceCodec_lawful hnew
    (room_nil (by decide)) hbefore hafter hs rfl
  exact ⟨s, _, hbefore, hafter, t, t', ht ▸ hs, ht' ▸ rfl, hlt⟩

/-! ### A call that nobody gets in between of -/

theorem lookup_of_next {tickets more : List Ticket} {t : Ticket} (h : lastId tickets < t.ticketId) :
    lookupTicket t.ticketId (tickets ++ [t] ++ more) = some t :=
  KeyedLog.lookup_append_of_some (KeyedLog.lookup_concat_of_largest_lt h) more

/-- A call in which nobody else saves between its reading of the largest id and its saving issues a
text that is judged by its own ticket and by nothing else, whatever other calls do before,
meanwhile and afterwards. -/
theorem undisturbed_call_resolves (hc : c.Lawful) {file : TicketFile} {tickets : List Ticket}
    (hfile : Holds c file tickets) (k : CallName)
    (before meanwhile after : List (CallStep CallName)) (hundisturbed : savers meanwhile = [])
    (hroom : Room (reads before + 1) tickets) {s : Concurrent CallName}
    (hrun : run (step c requests) (init CallName file)
      (before ++ .getLastTicketId k :: (meanwhile ++ .save k :: after)) = some s) :
    ∃ t, AskedFor (requests k) t ∧ s.phase k = .returned (.noErr, encodeTicket c t) ∧
      ∀ now, validateTicketBase64 c s.file (encodeTicket c t) now =
        .ok (if isExpired now t then (.expired, refusal "EXPIRED")
          else (.noErr, validated t.ticketId)) := by
  obtain ⟨s₀, hbefore, hrun⟩ := (run_append _).mp hrun
  obtain ⟨s₁, hread, hrun⟩ := (run_cons_eq_some _).mp hrun
  obtain ⟨s₂, hmeanwhile, hrun⟩ := (run_append _).mp hrun
  obtain ⟨s₃, hsave, hafter⟩ := (run_cons_eq_some _).mp hrun
  rw [Nat.add_comm] at hroom
  obtain ⟨saves, h₀, -, -⟩ := (init_recorded hfile).of_run hc hbefore
  obtain ⟨ledger, hinv⟩ := (init_inv hfile hroom).of_run hc hbefore
  obtain ⟨t, ht, hlt⟩ := h₀.read hc hinv hread
  obtain ⟨none₁, h₁, hnone₁, -⟩ := h₀.next hc hread
  obtain ⟨none₂, h₂, hnone₂, hwaits⟩ := h₁.of_run hc hmeanwhile
  obtain ⟨own, h₃, hown, hwaits'⟩ := h₂.next hc hsave
  obtain ⟨rest, h₄, -, -⟩ := h₃.of_run hc hafter
  -- the call is the only one that saves between its reading and the end of its saving
  rw [hundisturbed, List.map_eq_nil_iff] at hnone₂
  rw [savers, savers, List.map_eq_nil_iff] at hnone₁
  subst hnone₁
  subst hnone₂
  simp only [List.append_nil, List.nil_append] at h₀ h₁ h₂ h₃ h₄ hlt
  have ht₂ : s₂.phase k = .hasTicket t :=
    (hwaits k t ht).resolve_right fun hmem => absurd hmem List.not_mem_nil
  obtain ⟨⟨k', t'⟩, rfl⟩ : ∃ p, own = [p] :=
    List.length_eq_one_iff.mp (by rw [← List.length_map, hown]; rfl)
  have hk : k' = k := List.singleton_inj.mp hown
  have hreturned := h₃.returned k' t' (List.mem_append_right _ List.mem_cons_self)
  rw [hk] at hreturned
  have hmem : (k, t) ∈ [(k', t')] :=
    (hwaits' k t ht₂).resolve_left fun hphase => nomatch hreturned.symm.trans hphase
  rw [← List.mem_singleton.mp hmem] at h₄
  have hsaved : (k, t) ∈ saves ++ [(k, t)] ++ rest :=
    List.mem_append_left _ (List.mem_append_right _ List.mem_cons_self)
  refine ⟨t, h₄.asked k t (Or.inl hsaved), h₄.returned k t hsaved, fun now => ?_⟩
  apply h₄.holds.validate_encodeTicket hc
  rw [List.map_append, List.map_append, ← List.append_assoc, ← List.append_assoc]
  exact lookup_of_next hlt

theorem undisturbed_call_resolves_beside_another :
    ∃ s : Concurrent Bool, ∃ t : Ticket,
      s.phase false = .returned (.noErr, encodeTicket referenceCodec t) ∧
      validateTicketBase64 referenceCodec s.file (encodeTicket referenceCodec t) 1000 =
        .ok (if isExpired 1000 t then (.expired, refusal "EXPIRED")
          else (.noErr, validated t.ticketId)) := by
  have hnew := holds_none referenceCodec
  obtain ⟨file', hsave, -⟩ := hnew.save_completes referenceCodec_lawful ⟨1, 1000, 1, 5⟩
  obtain ⟨s, hrun⟩ : ∃ s, run (step referenceCodec fun _ => ⟨1, 5, 1000⟩) (init Bool none)
      ([.check false ⟨1000, 1001⟩] ++
        .getLastTicketId false :: ([.check true ⟨1000, 1001⟩, .getLastTicketId true] ++
          .save false :: [])) = some s := by
    simp only [List.cons_append, List.nil_append, run_cons_eq_some]
    exact ⟨_, _, rfl, _, rfl, _, rfl, _, rfl, _, step_save rfl hsave, rfl⟩
  obtain ⟨t, -, hphase, hvalidate⟩ := undisturbed_call_resolves referenceCodec_lawful hnew false
    [.check false ⟨1000, 1001⟩] [.check true ⟨1000, 1001⟩, .getLastTicketId true] [] rfl
    (room_nil (by decide)) hrun
  exact ⟨s, t, hphase, hvalidate 1000⟩

/-! ### How many tickets can share an id -/

/-- The calls that have read the largest id and not saved yet, brought up to date by a step. -/
def between (names : List CallName) : CallStep CallName → List CallName
  | .check _ _ => names
  | .getLastTicketId k => k :: names
  | .save k => names.erase k

/-- There are never more than `n` calls between the reading of the largest id and the saving. -/
def OverlapAtMost (n : Nat) (names : List CallName) : List (CallStep CallName) → Prop
  | [] => True
  | a :: steps => (between names a).length ≤ n ∧ OverlapAtMost n (between names a) steps

/-- The tickets that wait to be saved are those of the calls in between, and no id is that of more
than `n` of them and of the stored ones. -/
structure Shared (n : Nat) (names : List CallName) (s : Concurrent CallName)
    (tickets : List Ticket) (waiting : List (CallName × Ticket)) : Prop where
  names_perm : names.Perm (waiting.map Prod.fst)
  waits : ∀ k t, s.phase k = .hasTicket t → (k, t) ∈ waiting
  shared : KeyedLog.SharedAtMost Ticket.ticketId n tickets (waiting.map Prod.snd)

theorem Shared.next (hc : c.Lawful) {n m : Nat} {names : List CallName}
    {s s' : Concurrent CallName} {tickets : List Ticket} {waiting : List (CallName × Ticket)}
    {a : CallStep CallName} (h : Shared n names s tickets waiting)
    (hinv : Inv c (m + reads [a]) s tickets) (hlength : (between names a).length ≤ n)
    (hstep : step c requests s a = some s') :
    ∃ tickets' waiting', Inv c m s' tickets' ∧
      Shared n (between names a) s' tickets' waiting' := by
  obtain ⟨tickets', hinv'⟩ := hinv.next hc hstep
  rcases step_cases hc hinv.holds hstep with ⟨k, clock, p, rfl, hphase, rfl, hp⟩ |
    ⟨k, rfl, hphase, rfl⟩ | ⟨k, t, file', rfl, hphase, hfile', rfl⟩
  · have hsame : tickets' = tickets := holds_unique hinv'.holds hinv.holds
    subst hsame
    refine ⟨_, waiting, hinv', h.names_perm, fun k' u hu => ?_, h.shared⟩
    rcases of_phase_setPhase hu with ⟨-, rfl⟩ | ⟨-, hold⟩
    · rcases hp with hp | ⟨refused, hp, -⟩ <;> exact nomatch hp
    · exact h.waits k' u hold
  · have hsame : tickets' = tickets := holds_unique hinv'.holds hinv.holds
    subst hsame
    refine ⟨_, (k, newTicket (requests k) (lastId tickets')) :: waiting, hinv',
      h.names_perm.cons k, fun k' u hu => ?_, ?_⟩
    · rcases of_phase_setPhase hu with ⟨rfl, hu⟩ | ⟨-, hold⟩
      · exact CallPhase.hasTicket.inj hu ▸ List.mem_cons_self
      · exact List.mem_cons_of_mem _ (h.waits k' u hold)
    · refine h.shared.take hinv.room.lastId_lt_next ?_
      have hnames := h.names_perm.length_eq
      rw [between, List.length_cons] at hlength
      rw [List.length_map] at hnames
      rw [List.length_cons, List.length_map]
      omega
  · have hsame : tickets' = tickets ++ [t] := holds_unique hinv'.holds hfile'
    subst hsame
    have hperm := List.perm_cons_erase (h.waits k t hphase)
    refine ⟨_, waiting.erase (k, t), hinv', ?_, fun k' u hu => ?_,
      h.shared.append (hperm.map Prod.snd)⟩
    · have hnames := (h.names_perm.trans (hperm.map Prod.fst)).erase k
      rwa [List.map_cons, List.erase_cons_head] at hnames
    · rcases of_phase_setPhase hu with ⟨-, hu⟩ | ⟨hne, hold⟩
      · exact nomatch hu
      · have hneq : (k', u) ≠ (k, t) := fun heq => hne (congrArg Prod.fst heq)
        exact (List.mem_erase_of_ne hneq).mpr (h.waits k' u hold)

theorem Shared.of_run (hc : c.Lawful) {n : Nat} {names : List CallName}
    {s s' : Concurrent CallName} {tickets : List Ticket} {waiting : List (CallName × Ticket)}
    {steps : List (CallStep CallName)} (h : Shared n names s tickets waiting)
    (hinv : Inv c (reads steps) s tickets) (hoverlap : OverlapAtMost n names steps)
    (hrun : run (step c requests) s steps = some s') :
    ∃ tickets', Holds c s'.file tickets' ∧
      ∀ id, KeyedLog.copies Ticket.ticketId id tickets' ≤ n := by
  induction steps generalizing s names tickets waiting with
  | nil =>
      rw [run_nil, Option.some.injEq] at hrun
      exact ⟨tickets, hrun ▸ hinv.holds, fun id => (Nat.le_add_right _ _).trans (h.shared id)⟩
  | cons a steps ih =>
      obtain ⟨s₁, hstep, hrest⟩ := (run_cons_eq_some _).mp hrun
      rw [reads_cons] at hinv
      obtain ⟨tickets₁, waiting₁, hinv₁, h₁⟩ := h.next hc hinv hoverlap.1 hstep
      exact ih h₁ hinv₁ hoverlap.2 hrest

/-- No id is that of more stored tickets than there are calls at one time between the reading of
the largest id and the saving; with one such call at a time the ids stay distinct. -/
theorem copies_le_overlap (hc : c.Lawful) {file : TicketFile} {tickets : List Ticket}
    (hfile : Holds c file tickets) (hdistinct : KeyedLog.Distinct Ticket.ticketId tickets)
    {n : Nat} (hn : 0 < n) {steps : List (CallStep CallName)} (hroom : Room (reads steps) tickets)
    (hoverlap : OverlapAtMost n [] steps) {s : Concurrent CallName}
    (hrun : run (step c requests) (init CallName file) steps = some s) :
    ∃ stored, findAll c s.file = .ok stored ∧
      ∀ id, (stored.countP fun t => t.ticketId = id) ≤ n := by
  have hstart : Shared n [] (init CallName file) tickets [] :=
    ⟨.nil, fun _ _ => nofun, fun id => (KeyedLog.copies_le_one hdistinct id).trans hn⟩
  obtain ⟨stored, hholds, hcopies⟩ :=
    hstart.of_run hc (init_inv hfile hroom) hoverlap hrun
  exact ⟨stored, hholds.findAll_eq, hcopies⟩

/-- Two calls that both read the largest id before either of them saves. -/
def twoOverlapping : List (CallStep Bool) :=
  [.check false ⟨1000, 1001⟩, .check true ⟨1000, 1001⟩, .getLastTicketId false,
    .getLastTicketId true, .save false, .save true]

theorem copies_le_overlap_two_calls :
    ∃ s : Concurrent Bool, ∃ stored,
      run (step referenceCodec fun _ => ⟨1, 5, 1000⟩) (init Bool none) twoOverlapping = some s ∧
      findAll referenceCodec s.file = .ok stored ∧
      (stored.countP fun t => t.ticketId = 1) ≤ 2 := by
  have hnew := holds_none referenceCodec
  obtain ⟨file₁, hsave₁, hfile₁⟩ := hnew.save_completes referenceCodec_lawful ⟨1, 1000, 1, 5⟩
  obtain ⟨file₂, hsave₂, -⟩ := hfile₁.save_completes referenceCodec_lawful ⟨1, 1000, 1, 5⟩
  obtain ⟨s, hrun⟩ : ∃ s, run (step referenceCodec fun _ => ⟨1, 5, 1000⟩) (init Bool none)
      twoOverlapping = some s := by
    simp only [twoOverlapping, run_cons_eq_some]
    exact ⟨_, _, rfl, _, rfl, _, rfl, _, rfl, _, step_save rfl hsave₁, _, step_save rfl hsave₂,
      rfl⟩
  have hoverlap : OverlapAtMost 2 [] twoOverlapping :=
    ⟨by decide, by decide, by decide, by decide, by decide, by decide, trivial⟩
  obtain ⟨stored, hfind, hcopies⟩ := copies_le_overlap referenceCodec_lawful hnew List.nodup_nil
    Nat.two_pos (room_nil (by decide)) hoverlap hrun
  exact ⟨s, stored, hrun, hfind, hcopies 1⟩

end Ticketing.BackOffice.Concurrent
