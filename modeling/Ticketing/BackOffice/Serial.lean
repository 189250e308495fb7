import Ticketing.BackOffice.Overlap
import Ticketing.BackOffice.Requests

/-!
# Overlapping calls and calls one at a time

Most of what is known of the back office is known of requests that are served one at a time. This
module says when calls that overlap do the same: when the tickets that they return and the file that
they leave are those of the calls made one after the other, in the order in which they save. This is
so exactly if no call saves between another call's reading of the largest id and its saving, which
is also when the ids are unique. A call that is turned away is turned away whenever it is made.
-/

namespace Ticketing.BackOffice.Concurrent

open StepRun

variable {F : Type} [Double F] {c : Codec F} {CallName : Type*} [DecidableEq CallName]
  {requests : CallName → CreateRequest} {clocks : CallName → CreateClock}

def creations (requests : CallName → CreateRequest) (clocks : CallName → CreateClock)
    (order : List CallName) : List Request :=
  order.map fun k => .create (requests k) (clocks k)

/-- What has been returned and what is in the file is as if the calls had been made one after the
other: those in `order` in this order, and all others that have returned at any time. -/
structure ServedInOrder (c : Codec F) (requests : CallName → CreateRequest)
    (clocks : CallName → CreateClock) (file : TicketFile) (s : Concurrent CallName)
    (order : List CallName) : Prop where
  file_eq : s.file = serveAll c file (creations requests clocks order)
  served : ∀ before k after, order = before ++ k :: after → ∃ result file',
    createTicketBase64 c (serveAll c file (creations requests clocks before)) (requests k)
      (clocks k) .completes = .ok (result, file') ∧ s.phase k = .returned result
  refused : ∀ k result, s.phase k = .returned result → k ∉ order →
    ∀ file', createTicketBase64 c file' (requests k) (clocks k) .completes = .ok (result, file')

/-! ### The checks -/

/-- The calls have passed the checks, or been turned away by them, at the readings of their
clocks. -/
structure Clocked (requests : CallName → CreateRequest) (clocks : CallName → CreateClock)
    (s : Concurrent CallName) : Prop where
  passed : ∀ k, s.phase k = .checked ∨ (∃ t, s.phase k = .hasTicket t) →
    checkRequest (requests k) (clocks k) = none
  refused : ∀ k result, s.phase k = .returned result → result.1 ≠ .noErr →
    checkRequest (requests k) (clocks k) = some result

omit [Double F] [DecidableEq CallName] in
theorem init_clocked (file : TicketFile) : Clocked requests clocks (init CallName file) where
  passed _ h := by rcases h with h | ⟨t, h⟩ <;> cases h
  refused _ _ h := by cases h

theorem step_check {s s' : Concurrent CallName} {k : CallName} {clock : CreateClock}
    (h : step c requests s (.check k clock) = some s') :
    (checkRequest (requests k) clock = none ∧ s' = s.setPhase k .checked) ∨
      ∃ refused, checkRequest (requests k) clock = some refused ∧
        s' = s.setPhase k (.returned refused) := by
  rw [step] at h
  split at h
  · split at h
    · rename_i refused hcheck
      exact Or.inr ⟨refused, hcheck, (Option.some.inj h).symm⟩
    · rename_i hcheck
      exact Or.inl ⟨hcheck, (Option.some.inj h).symm⟩
  · cases h

omit [Double F] in
theorem Clocked.setPhase {s : Concurrent CallName} (h : Clocked requests clocks s) {k : CallName}
    {p : CallPhase}
    (hpassed : p = .checked ∨ (∃ t, p = .hasTicket t) →
      checkRequest (requests k) (clocks k) = none)
    (hrefused : ∀ result, p = .returned result → result.1 ≠ .noErr →
      checkRequest (requests k) (clocks k) = some result) :
    Clocked requests clocks (s.setPhase k p) where
  passed k' hk' := by
    by_cases hk : k' = k
    · subst hk
      rw [Concurrent.setPhase] at hk'
      simp only [Function.update_self] at hk'
      exact hpassed hk'
    · rw [Concurrent.setPhase] at hk'
      simp only [Function.update_of_ne hk] at hk'
      exact h.passed k' hk'
  refused k' result hk' hne := by
    rcases of_phase_setPhase hk' with ⟨rfl, hp⟩ | ⟨-, hold⟩
    · exact hrefused result hp hne
    · exact h.refused k' result hold hne

theorem Clocked.next (hc : c.Lawful) {s s' : Concurrent CallName} {tickets : List Ticket}
    (h : Clocked requests clocks s) (hholds : Holds c s.file tickets) {a : CallStep CallName}
    (hclocks : ∀ k clock, a = .check k clock → clocks k = clock)
    (hstep : step c requests s a = some s') : Clocked requests clocks s' := by
  rcases step_cases hc hholds hstep with ⟨k, clock, -, rfl, -⟩ | ⟨k, rfl, hphase, rfl⟩ |
    ⟨k, t, file', rfl, hphase, -, rfl⟩
  · rw [← hclocks k clock rfl] at hstep
    rcases step_check hstep with ⟨hcheck, rfl⟩ | ⟨refused, hcheck, rfl⟩
    · exact h.setPhase (fun _ => hcheck) fun result hp => by cases hp
    · refine h.setPhase (fun hp => ?_) fun result hp _ => ?_
      · rcases hp with hp | ⟨t, hp⟩ <;> cases hp
      · rw [hcheck, CallPhase.returned.inj hp]
  · exact h.setPhase (fun _ => h.passed k (Or.inl hphase)) fun result hp => by cases hp
  · have hsaved : Clocked requests clocks
        (s.setPhase k (.returned (.noErr, encodeTicket c t))) := by
      refine h.setPhase (fun hp => ?_) fun result hp hne => ?_
      · rcases hp with hp | ⟨t, hp⟩ <;> cases hp
      · exact absurd (congrArg Prod.fst (CallPhase.returned.inj hp).symm) hne
    exact ⟨hsaved.passed, hsaved.refused⟩

/-! ### As long as no call is overtaken -/

theorem encodeTicket_inj (hc : c.Lawful) {t t' : Ticket}
    (h : encodeTicket c t = encodeTicket c t') : t = t' := by
  have hcarries := (carries_encodeTicket_iff hc).mpr (rfl : t' = t')
  rw [← h] at hcarries
  exact (carries_encodeTicket_iff hc).mp hcarries

/-- The saves so far are what the calls one at a time would have done, and a ticket that waits is
what they would do next exactly if its call has not been overtaken. -/
structure Serial (c : Codec F) (requests : CallName → CreateRequest)
    (clocks : CallName → CreateClock) (file : TicketFile) (tickets : List Ticket) (n : Nat)
    (overtaken : CallName → Bool) (s : Concurrent CallName) (saves : List (CallName × Ticket)) :
    Prop where
  recorded : Recorded c requests tickets s saves
  inv : Inv c n s (tickets ++ saves.map Prod.snd)
  clocked : Clocked requests clocks s
  next_iff : ∀ k t, s.phase k = .hasTicket t →
    (t.ticketId = lastId (tickets ++ saves.map Prod.snd) + 1 ↔ overtaken k = false)
  file_eq : s.file = serveAll c file (creations requests clocks (saves.map Prod.fst))
  served : ∀ before k t after, saves = before ++ (k, t) :: after → ∃ file',
    createTicketBase64 c (serveAll c file (creations requests clocks (before.map Prod.fst)))
      (requests k) (clocks k) .completes = .ok ((.noErr, encodeTicket c t), file')

omit [DecidableEq CallName] in
theorem init_serial {file : TicketFile} {tickets : List Ticket} (hfile : Holds c file tickets)
    {n : Nat} (hroom : Room n tickets) (overtaken : CallName → Bool) :
    Serial c requests clocks file tickets n overtaken (init CallName file) [] where
  recorded := init_recorded hfile
  inv := by
    rw [List.map_nil, List.append_nil]
    exact init_inv hfile hroom
  clocked := init_clocked file
  next_iff _ _ h := by cases h
  file_eq := rfl
  served before k t after h := by simp at h

theorem AskedFor.eq_newTicket {r : CreateRequest} {t : Ticket} (h : AskedFor r t) {last : Int64}
    (hid : t.ticketId = last + 1) : t = newTicket r last := by
  obtain ⟨last', rfl⟩ := h
  rw [newTicket_ticketId] at hid
  rw [newTicket, hid, newTicket]

omit [DecidableEq CallName] in
theorem Serial.create_eq {file : TicketFile} {tickets : List Ticket} {n : Nat}
    {overtaken : CallName → Bool} {s : Concurrent CallName} {saves : List (CallName × Ticket)}
    (h : Serial c requests clocks file tickets n overtaken s saves) {k : CallName} {t : Ticket}
    (hphase : s.phase k = .hasTicket t) (hundisturbed : overtaken k = false) {file' : TicketFile}
    (hsave : BackOffice.save c s.file t .completes = .ok file') :
    createTicketBase64 c (serveAll c file (creations requests clocks (saves.map Prod.fst)))
      (requests k) (clocks k) .completes = .ok ((.noErr, encodeTicket c t), file') := by
  have hcheck := h.clocked.passed k (Or.inr ⟨t, hphase⟩)
  have ht := (h.recorded.asked k t (Or.inr hphase)).eq_newTicket
    ((h.next_iff k t hphase).mpr hundisturbed)
  rw [← h.file_eq, ht]
  exact h.recorded.holds.createTicketBase64_eq hcheck (ht ▸ hsave)

omit [Double F] in
theorem returned_ne_hasTicket (s : Concurrent CallName) (k : CallName)
    (result : TicketErrorCode × Bytes) (t : Ticket) :
    (s.setPhase k (.returned result)).phase k ≠ .hasTicket t := by
  show Function.update s.phase k _ k ≠ _
  rw [Function.update_self]
  exact nofun

section Steps

variable {file : TicketFile} {tickets : List Ticket} {n : Nat} {overtaken : CallName → Bool}
  {s s' : Concurrent CallName} {saves : List (CallName × Ticket)}

omit [DecidableEq CallName] in
theorem serveAll_concat {order : List CallName} {k : CallName} {result : TicketErrorCode × Bytes}
    {file' : TicketFile}
    (h : createTicketBase64 c (serveAll c file (creations requests clocks order)) (requests k)
      (clocks k) .completes = .ok (result, file')) :
    serveAll c file (creations requests clocks (order ++ [k])) = file' := by
  rw [creations, List.map_append, List.map_singleton, serveAll, List.foldl_concat, ← serveAll,
    serve, ← creations, h]

theorem Serial.save (hc : c.Lawful)
    (h : Serial c requests clocks file tickets n overtaken s saves) {k : CallName} {t : Ticket}
    (hphase : s.phase k = .hasTicket t) (hundisturbed : overtaken k = false)
    (hstep : step c requests s (.save k) = some s')
    (hrecorded : Recorded c requests tickets s' (saves ++ [(k, t)]))
    (hinv : Inv c n s' (tickets ++ (saves ++ [(k, t)]).map Prod.snd))
    (hclocked : Clocked requests clocks s') :
    Serial c requests clocks file tickets n (fun _ => true) s' (saves ++ [(k, t)]) := by
  obtain ⟨file', hsave, -⟩ := h.recorded.holds.save_completes hc t
  rw [step_save hphase hsave, Option.some.injEq] at hstep
  subst hstep
  have hcreate := h.create_eq hphase hundisturbed hsave
  have hnext := (h.next_iff k t hphase).mpr hundisturbed
  refine ⟨hrecorded, hinv, hclocked, fun k' u hu => ?_, ?_, fun before k' u after hsaves => ?_⟩
  · rcases of_phase_setPhase hu with ⟨-, hp⟩ | ⟨-, hold⟩
    · cases hp
    · refine iff_of_false ?_ (by decide)
      rw [List.map_append, ← List.append_assoc]
      exact (h.inv.waits k t hphase).not_next_of_save hnext (h.inv.waits k' u hold)
  · rw [List.map_append, List.map_singleton, serveAll_concat hcreate]
  · rcases List.eq_nil_or_concat after with rfl | ⟨earlier, last, rfl⟩
    · obtain ⟨rfl, hlast⟩ := List.append_inj' hsaves rfl
      obtain ⟨rfl, rfl⟩ := Prod.mk.inj (List.singleton_inj.mp hlast)
      exact ⟨file', hcreate⟩
    · rw [List.concat_eq_append, ← List.cons_append, ← List.append_assoc] at hsaves
      obtain ⟨hearlier, -⟩ := List.append_inj' hsaves rfl
      exact h.served before k' u earlier hearlier

theorem Serial.next (hc : c.Lawful) {a : CallStep CallName}
    (h : Serial c requests clocks file tickets (n + reads [a]) overtaken s saves)
    (hclocks : ∀ k clock, a = .check k clock → clocks k = clock)
    (hundisturbed : Undisturbed overtaken a) (hstep : step c requests s a = some s') :
    ∃ more, Serial c requests clocks file tickets n (overtake overtaken a) s' (saves ++ more) ∧
      more.map Prod.fst = savers [a] := by
  obtain ⟨more, hrecorded, hnames, hwaits⟩ := h.recorded.next hc hstep
  obtain ⟨ledger, hinv⟩ := h.inv.next hc hstep
  have hledger := holds_unique hinv.holds hrecorded.holds
  subst hledger
  have hclocked := h.clocked.next hc h.recorded.holds hclocks hstep
  refine ⟨more, ?_, hnames⟩
  rcases step_cases hc h.recorded.holds hstep with ⟨k, clock, p, rfl, -, rfl, hp⟩ |
    ⟨k, rfl, -, rfl⟩ | ⟨k, t, file', rfl, hphase, -, hs'⟩
  · obtain rfl : more = [] := List.map_eq_nil_iff.mp hnames
    rw [List.append_nil] at hrecorded hinv ⊢
    refine ⟨hrecorded, hinv, hclocked, fun k' t ht => ?_, h.file_eq, h.served⟩
    rcases of_phase_setPhase ht with ⟨-, hticket⟩ | ⟨-, hold⟩
    · rcases hp with rfl | ⟨refused, rfl, -⟩ <;> cases hticket
    · exact h.next_iff k' t hold
  · obtain rfl : more = [] := List.map_eq_nil_iff.mp hnames
    rw [List.append_nil] at hrecorded hinv ⊢
    refine ⟨hrecorded, hinv, hclocked, fun k' t ht => ?_, h.file_eq, h.served⟩
    rcases of_phase_setPhase ht with ⟨rfl, hticket⟩ | ⟨hne, hold⟩
    · rw [← CallPhase.hasTicket.inj hticket]
      exact iff_of_true rfl (Function.update_self _ _ _)
    · rw [overtake, Function.update_of_ne hne]
      exact h.next_iff k' t hold
  · have hsaved : (k, t) ∈ more := by
      refine (hwaits k t hphase).resolve_left fun hwaiting => ?_
      rw [hs'] at hwaiting
      rcases of_phase_setPhase hwaiting with ⟨-, hp⟩ | ⟨hne, -⟩
      · cases hp
      · exact hne rfl
    obtain ⟨⟨k', t'⟩, rfl⟩ : ∃ p, more = [p] :=
      List.length_eq_one_iff.mp (by rw [← List.length_map, hnames]; rfl)
    rw [← List.mem_singleton.mp hsaved] at hrecorded hinv ⊢
    exact Serial.save hc h hphase (hundisturbed k rfl) hstep hrecorded hinv hclocked

theorem Serial.of_run (hc : c.Lawful) {steps : List (CallStep CallName)}
    (h : Serial c requests clocks file tickets (n + reads steps) overtaken s saves)
    (hclocks : ∀ k clock, .check k clock ∈ steps → clocks k = clock)
    (hundisturbed : SavesUndisturbed overtaken steps)
    (hrun : run (step c requests) s steps = some s') :
    ∃ overtaken' more, Serial c requests clocks file tickets n overtaken' s' (saves ++ more) ∧
      more.map Prod.fst = savers steps := by
  induction steps generalizing s saves overtaken with
  | nil =>
      rw [run_nil, Option.some.injEq] at hrun
      refine ⟨overtaken, [], ?_, rfl⟩
      rw [List.append_nil, ← hrun]
      exact h
  | cons a steps ih =>
      obtain ⟨s₁, hstep, hrest⟩ := (run_cons_eq_some _).mp hrun
      rw [reads_cons, ← Nat.add_assoc] at h
      obtain ⟨first, hfirst, hnames⟩ := h.next hc
        (fun k clock ha => hclocks k clock (ha ▸ List.mem_cons_self)) hundisturbed.1 hstep
      obtain ⟨overtaken', rest, hall, hnames'⟩ := ih hfirst
        (fun k clock hmem => hclocks k clock (List.mem_cons_of_mem a hmem)) hundisturbed.2 hrest
      refine ⟨overtaken', first ++ rest, ?_, ?_⟩
      · rw [← List.append_assoc]
        exact hall
      · rw [List.map_append, hnames, hnames', ← savers_cons]

/-- A save whose ticket is in the end the one that the calls in order would return is a save by a
call that has not been overtaken. -/
theorem Serial.undisturbed (hc : c.Lawful) {a : CallStep CallName}
    {steps : List (CallStep CallName)}
    (h : Serial c requests clocks file tickets n overtaken s saves)
    (hrun : run (step c requests) s (a :: steps) = some s')
    (hserved : ∀ before k after,
      saves.map Prod.fst ++ savers (a :: steps) = before ++ k :: after → ∃ result file',
      createTicketBase64 c (serveAll c file (creations requests clocks before)) (requests k)
        (clocks k) .completes = .ok (result, file') ∧ s'.phase k = .returned result) :
    Undisturbed overtaken a := by
  rintro k rfl
  obtain ⟨s₁, hstep, hrest⟩ := (run_cons_eq_some _).mp hrun
  obtain ⟨first, hfirst, -, hwaits⟩ := h.recorded.next hc hstep
  obtain ⟨rest, hall, -, -⟩ := hfirst.of_run hc hrest
  obtain ⟨result, file', hcreate, hresult⟩ := hserved (saves.map Prod.fst) k (savers steps) rfl
  rcases step_cases hc h.recorded.holds hstep with ⟨k', clock, p, ha, -⟩ | ⟨k', ha, -⟩ |
    ⟨k', t, file₁, ha, hphase, -, rfl⟩
  · cases ha
  · cases ha
  · cases ha
    have hsaved : (k, t) ∈ first :=
      (hwaits k t hphase).resolve_left (returned_ne_hasTicket s k _ t)
    have hreturned := hall.returned k t
      (List.mem_append_left _ (List.mem_append_right _ hsaved))
    rw [hresult, CallPhase.returned.injEq] at hreturned
    subst hreturned
    rw [← h.file_eq] at hcreate
    obtain ⟨hencoded, -⟩ := h.recorded.holds.accepted hc hcreate
    rw [← h.next_iff k t hphase, encodeTicket_inj hc hencoded, newTicket_ticketId]

theorem Serial.savesUndisturbed (hc : c.Lawful) {steps : List (CallStep CallName)}
    (h : Serial c requests clocks file tickets (n + reads steps) overtaken s saves)
    (hclocks : ∀ k clock, .check k clock ∈ steps → clocks k = clock)
    (hrun : run (step c requests) s steps = some s')
    (hserved : ∀ before k after, saves.map Prod.fst ++ savers steps = before ++ k :: after →
      ∃ result file',
        createTicketBase64 c (serveAll c file (creations requests clocks before)) (requests k)
          (clocks k) .completes = .ok (result, file') ∧ s'.phase k = .returned result) :
    SavesUndisturbed overtaken steps := by
  induction steps generalizing s saves overtaken with
  | nil => exact trivial
  | cons a steps ih =>
      have hfirst := h.undisturbed hc hrun hserved
      obtain ⟨s₁, hstep, hrest⟩ := (run_cons_eq_some _).mp hrun
      rw [reads_cons, ← Nat.add_assoc] at h
      obtain ⟨more, hmore, hnames⟩ := h.next hc
        (fun k clock ha => hclocks k clock (ha ▸ List.mem_cons_self)) hfirst hstep
      refine ⟨hfirst, ih hmore
        (fun k clock hmem => hclocks k clock (List.mem_cons_of_mem a hmem)) hrest ?_⟩
      rw [List.map_append, hnames, List.append_assoc, ← savers_cons]
      exact hserved

omit [DecidableEq CallName] in
theorem Serial.servedInOrder (h : Serial c requests clocks file tickets n overtaken s saves) :
    ServedInOrder c requests clocks file s (saves.map Prod.fst) where
  file_eq := h.file_eq
  served before k after horder := by
    obtain ⟨saves₁, saves₂, rfl, rfl, hrest⟩ := List.map_eq_append_iff.mp horder
    obtain ⟨⟨k', t⟩, saves₃, rfl, rfl, rfl⟩ := List.map_eq_cons_iff.mp hrest
    obtain ⟨file', hcreate⟩ := h.served saves₁ k' t saves₃ rfl
    exact ⟨_, file', hcreate,
      h.recorded.returned k' t (List.mem_append_right _ List.mem_cons_self)⟩
  refused k result hphase hnot file' := by
    obtain ⟨code, encoded⟩ := result
    by_cases hcode : code = .noErr
    · subst hcode
      obtain ⟨t, hmem⟩ := h.recorded.saved k encoded hphase
      exact absurd (List.mem_map_of_mem (f := Prod.fst) hmem) hnot
    · exact createTicketBase64_of_refused (h.clocked.refused k _ hphase hcode) .completes

/-- A run of overlapping calls returns what the calls would return one after the other, in the order
in which they save, and leaves the file that these would leave, exactly if no call saves between
another call's reading of the largest id and its saving. -/
theorem serializable_iff (hc : c.Lawful) (hfile : Holds c file tickets)
    {steps : List (CallStep CallName)} (hroom : Room (reads steps) tickets)
    (hclocks : ∀ k clock, .check k clock ∈ steps → clocks k = clock)
    (hrun : run (step c requests) (init CallName file) steps = some s) :
    ServedInOrder c requests clocks file s (savers steps) ↔
      SavesUndisturbed (fun _ => false) steps := by
  have hstart : Serial c requests clocks file tickets (0 + reads steps) (fun _ => false)
      (init CallName file) [] := by
    rw [Nat.zero_add]
    exact init_serial hfile hroom _
  constructor
  · exact fun h => hstart.savesUndisturbed hc hclocks hrun h.served
  · intro hundisturbed
    obtain ⟨overtaken, saves, h, hnames⟩ := hstart.of_run hc hclocks hundisturbed hrun
    rw [List.nil_append] at h
    exact hnames ▸ h.servedInOrder

/-- One of two calls for a ticket of one day, which comes to its end before the other has read the
largest id. -/
theorem serializable_iff_one_of_two : ∃ s : Concurrent Bool,
    run (step referenceCodec fun _ => ⟨1, 5, 1000⟩) (init Bool none)
      [.check true ⟨1000, 1001⟩, .check false ⟨1000, 1001⟩, .getLastTicketId false,
        .save false] = some s ∧
    ServedInOrder referenceCodec (fun _ => ⟨1, 5, 1000⟩) (fun _ => ⟨1000, 1001⟩) none s
      [false] := by
  have hnew := holds_none referenceCodec
  obtain ⟨file', hsave, -⟩ := hnew.save_completes referenceCodec_lawful ⟨1, 1000, 1, 5⟩
  obtain ⟨s, hrun⟩ : ∃ s, run (step referenceCodec fun _ => ⟨1, 5, 1000⟩) (init Bool none)
      [.check true ⟨1000, 1001⟩, .check false ⟨1000, 1001⟩, .getLastTicketId false,
        .save false] = some s := by
    simp only [run_cons_eq_some]
    exact ⟨_, _, rfl, _, rfl, _, rfl, _, step_save rfl hsave, rfl⟩
  have hclocks : ∀ (k : Bool) clock, .check k clock ∈ [.check true ⟨1000, 1001⟩,
      .check false ⟨1000, 1001⟩, .getLastTicketId false, CallStep.save false] →
      (⟨1000, 1001⟩ : CreateClock) = clock := by
    intro k clock hmem
    simp only [List.mem_cons, CallStep.check.injEq, List.not_mem_nil, or_false, reduceCtorEq]
      at hmem
    rcases hmem with ⟨-, rfl⟩ | ⟨-, rfl⟩ <;> rfl
  have hundisturbed : SavesUndisturbed (fun _ => false) [.check true ⟨1000, 1001⟩,
      .check false ⟨1000, 1001⟩, .getLastTicketId false, CallStep.save false] := by
    refine ⟨nofun, nofun, nofun, ?_, trivial⟩
    rintro k ⟨⟩
    rfl
  exact ⟨s, hrun, (serializable_iff referenceCodec_lawful hnew (room_nil (by decide)) hclocks
    hrun).mpr hundisturbed⟩

end Steps

end Ticketing.BackOffice.Concurrent
