import Ticketing.BackOffice.Service
import Ticketing.Library.StepRun
import Ticketing.ReferenceCodec

/-!
# Calls of `create_ticket_base64` at the same time

The class as its callers may use it: from several threads, on one service and one repository. (The
web server of the back office, its only caller so far, handles one request after the other.) Each
operation of the repository holds its mutex, a call of the service holds nothing: it asks for the
largest id, adds one, and saves, and other calls can do the same in between. A call is a sequence of
steps here, and the steps of any number of calls interleave in any order; writes succeed.

The tickets that calls have made and not yet saved have the next id or one that is stored by now.
This holds in every interleaving, and so the ids stay distinct exactly as long as no call saves a
ticket between another call's reading of the largest id and its saving.
-/

namespace Ticketing.BackOffice

open StepRun

inductive CallPhase where
  | started
  /-- the request has passed the checks -/
  | checked
  /-- the largest id has been read and the ticket made -/
  | hasTicket (t : Ticket)
  | returned (result : TicketErrorCode × Bytes)
  | threw (e : JsonError)

structure Concurrent (CallName : Type*) where
  file : TicketFile
  phase : CallName → CallPhase

inductive CallStep (CallName : Type*) where
  | check (k : CallName) (clock : CreateClock)
  | getLastTicketId (k : CallName)
  | save (k : CallName)

namespace Concurrent

variable {F : Type} {c : Codec F} {CallName : Type*}

def init (CallName : Type*) (file : TicketFile) : Concurrent CallName := ⟨file, fun _ => .started⟩

def setPhase [DecidableEq CallName] (s : Concurrent CallName) (k : CallName) (p : CallPhase) :
    Concurrent CallName :=
  { s with phase := Function.update s.phase k p }

/-- `requests` gives the arguments of every call. -/
def step [Double F] [DecidableEq CallName] (c : Codec F) (requests : CallName → CreateRequest)
    (s : Concurrent CallName) : CallStep CallName → Option (Concurrent CallName)
  | .check k clock =>
      match s.phase k with
      | .started =>
          match checkRequest (requests k) clock with
          | some refused => some (s.setPhase k (.returned refused))
          | none => some (s.setPhase k .checked)
      | _ => none
  | .getLastTicketId k =>
      match s.phase k with
      | .checked =>
          match BackOffice.getLastTicketId c s.file with
          | .ok last => some (s.setPhase k (.hasTicket (newTicket (requests k) last)))
          | .error e => some (s.setPhase k (.threw e))
      | _ => none
  | .save k =>
      match s.phase k with
      | .hasTicket t =>
          match BackOffice.save c s.file t .completes with
          | .ok file' =>
              some { s.setPhase k (.returned (.noErr, encodeTicket c t)) with file := file' }
          | .error e => some (s.setPhase k (.threw e))
      | _ => none

def reads : List (CallStep CallName) → Nat
  | [] => 0
  | .getLastTicketId _ :: steps => reads steps + 1
  | .check _ _ :: steps => reads steps
  | .save _ :: steps => reads steps

/-! ### What should hold and when it does -/

/-- The stored tickets have distinct ids, and so have the tickets that have been returned. -/
structure UniqueIds [Double F] (c : Codec F) (s : Concurrent CallName) : Prop where
  stored : ∃ tickets, findAll c s.file = .ok tickets ∧ KeyedLog.Distinct Ticket.ticketId tickets
  returned : ∀ k k', k ≠ k' → ∀ encoded encoded', s.phase k = .returned (.noErr, encoded) →
    s.phase k' = .returned (.noErr, encoded') → DifferentIds c encoded encoded'

/-- The calls in whose way another call has saved a ticket since they read the largest id, brought
up to date by a step. -/
def overtake [DecidableEq CallName] (overtaken : CallName → Bool) :
    CallStep CallName → CallName → Bool
  | .check _ _ => overtaken
  | .getLastTicketId k => Function.update overtaken k false
  | .save _ => fun _ => true

/-- If the step saves a ticket, no other has been saved since the call read the largest id. -/
def Undisturbed (overtaken : CallName → Bool) (a : CallStep CallName) : Prop :=
  ∀ k, a = .save k → overtaken k = false

/-- No call saves a ticket between another call's reading of the largest id and its saving. -/
def SavesUndisturbed [DecidableEq CallName] (overtaken : CallName → Bool) :
    List (CallStep CallName) → Prop
  | [] => True
  | a :: steps => Undisturbed overtaken a ∧ SavesUndisturbed (overtake overtaken a) steps

/-! ### The steps on a ledger -/

/-- A ticket that waits to be saved has the next id or one that is stored by now, and its id leaves
room for `n` more. -/
structure Waits (n : Nat) (tickets : List Ticket) (t : Ticket) : Prop where
  pos : 0 < t.ticketId.toInt
  room : t.ticketId.toInt + n ≤ Int64.maxValue.toInt
  next_or_stored : t.ticketId.toInt = (lastId tickets).toInt + 1 ∨
    ∃ u ∈ tickets, u.ticketId = t.ticketId

structure Inv (c : Codec F) (n : Nat) (s : Concurrent CallName) (tickets : List Ticket) : Prop where
  holds : Holds c s.file tickets
  room : Room n tickets
  waits : ∀ k t, s.phase k = .hasTicket t → Waits n tickets t

theorem step_save [Double F] [DecidableEq CallName] {requests : CallName → CreateRequest}
    {s : Concurrent CallName} {k : CallName} {t : Ticket} (hphase : s.phase k = .hasTicket t)
    {file' : TicketFile} (hsave : BackOffice.save c s.file t .completes = .ok file') :
    step c requests s (.save k) =
      some { s.setPhase k (.returned (.noErr, encodeTicket c t)) with file := file' } := by
  simp only [step, hphase, hsave]

theorem step_getLastTicketId [Double F] [DecidableEq CallName]
    {requests : CallName → CreateRequest} {s : Concurrent CallName} {k : CallName}
    (hphase : s.phase k = .checked) {tickets : List Ticket} (hholds : Holds c s.file tickets) :
    step c requests s (.getLastTicketId k) =
      some (s.setPhase k (.hasTicket (newTicket (requests k) (lastId tickets)))) := by
  simp only [step, hphase, hholds.getLastTicketId_eq]

theorem step_cases [Double F] [DecidableEq CallName] {requests : CallName → CreateRequest}
    (hc : c.Lawful) {s s' : Concurrent CallName} {tickets : List Ticket}
    (hholds : Holds c s.file tickets) {a : CallStep CallName} (h : step c requests s a = some s') :
    (∃ k clock p, a = .check k clock ∧ s.phase k = .started ∧ s' = s.setPhase k p ∧
      (p = .checked ∨ ∃ refused, p = .returned refused ∧ refused.1 ≠ .noErr)) ∨
    (∃ k, a = .getLastTicketId k ∧ s.phase k = .checked ∧
      s' = s.setPhase k (.hasTicket (newTicket (requests k) (lastId tickets)))) ∨
    ∃ k t file', a = .save k ∧ s.phase k = .hasTicket t ∧ Holds c file' (tickets ++ [t]) ∧
      s' = { s.setPhase k (.returned (.noErr, encodeTicket c t)) with file := file' } := by
  cases a with
  | check k clock =>
      left
      rw [step] at h
      split at h
      · rename_i hphase
        split at h
        · rename_i refused hcheck
          exact ⟨k, clock, _, rfl, hphase, (Option.some.inj h).symm,
            Or.inr ⟨refused, rfl, checkRequest_ne_noErr hcheck⟩⟩
        · exact ⟨k, clock, _, rfl, hphase, (Option.some.inj h).symm, Or.inl rfl⟩
      · exact nomatch h
  | getLastTicketId k =>
      right
      left
      rw [step] at h
      split at h
      · rename_i hphase
        rw [hholds.getLastTicketId_eq, Option.some.injEq] at h
        exact ⟨k, rfl, hphase, h.symm⟩
      · exact nomatch h
  | save k =>
      right
      right
      rw [step] at h
      split at h
      · rename_i t hphase
        obtain ⟨file', hsave, hfile'⟩ := hholds.save_completes hc t
        rw [hsave, Option.some.injEq] at h
        exact ⟨k, t, file', rfl, hphase, hfile', h.symm⟩
      · exact nomatch h

/-! ### Tickets that wait -/

theorem Waits.mono {n m : Nat} {tickets : List Ticket} {t : Ticket} (h : Waits n tickets t)
    (hle : m ≤ n) : Waits m tickets t where
  pos := h.pos
  room := by
    have hroom := h.room
    omega
  next_or_stored := h.next_or_stored

theorem waits_newTicket {n : Nat} {tickets : List Ticket} (hroom : Room (n + 1) tickets)
    (r : CreateRequest) : Waits n tickets (newTicket r (lastId tickets)) := by
  have hnext : (newTicket r (lastId tickets)).ticketId.toInt = (lastId tickets).toInt + 1 :=
    hroom.toInt_next
  have hnonneg : (0 : Int64).toInt ≤ (lastId tickets).toInt :=
    Int64.le_iff_toInt_le.mp (KeyedLog.floor_le_largest 0 tickets)
  rw [Int64.toInt_zero] at hnonneg
  rw [Room] at hroom
  exact ⟨by omega, by omega, Or.inl hnext⟩

theorem max_lastId_of_stored {tickets : List Ticket} {t : Ticket}
    (h : ∃ u ∈ tickets, u.ticketId = t.ticketId) :
    max (lastId tickets) t.ticketId = lastId tickets := by
  obtain ⟨u, hu, heq⟩ := h
  exact max_eq_left (heq ▸ KeyedLog.key_le_largest 0 hu)

theorem Waits.save {n : Nat} {tickets : List Ticket} {t u : Ticket} (ht : Waits n tickets t)
    (hu : Waits n tickets u) : Waits n (tickets ++ [t]) u where
  pos := hu.pos
  room := hu.room
  next_or_stored := by
    rcases hu.next_or_stored with hnext | ⟨v, hv, heq⟩
    · rcases ht.next_or_stored with hnext' | hstored
      · refine Or.inr ⟨t, List.mem_append_right _ List.mem_cons_self, ?_⟩
        exact Int64.toInt_inj.mp (hnext'.trans hnext.symm)
      · rw [lastId_concat, max_lastId_of_stored hstored]
        exact Or.inl hnext
    · exact Or.inr ⟨v, List.mem_append_left _ hv, heq⟩

theorem Waits.room_concat {n : Nat} {tickets : List Ticket} {t : Ticket} (h : Waits n tickets t)
    (hroom : Room n tickets) : Room n (tickets ++ [t]) := by
  rw [Room, lastId_concat]
  rcases max_choice (lastId tickets) t.ticketId with hmax | hmax
  · rw [hmax]
    exact hroom
  · rw [hmax]
    exact h.room

theorem Waits.lastId_lt {n : Nat} {tickets : List Ticket} {t : Ticket} (h : Waits n tickets t)
    (hnext : t.ticketId = lastId tickets + 1) : lastId tickets < t.ticketId := by
  have hmax := (lastId tickets).toInt_le
  rw [Int64.lt_iff_toInt_lt]
  by_cases hlt : (lastId tickets).toInt < Int64.maxValue.toInt
  · rw [hnext, toInt_add_one hlt]
    omega
  · -- at the largest id of all, adding one wraps
    have hwrap : lastId tickets = Int64.maxValue := Int64.toInt_inj.mp (by omega)
    have hpos := h.pos
    rw [hnext, hwrap] at hpos
    exact absurd hpos (by decide)

theorem Waits.next_iff {n : Nat} {tickets : List Ticket} {t : Ticket} (h : Waits n tickets t) :
    t.ticketId = lastId tickets + 1 ↔ ∀ u ∈ tickets, u.ticketId ≠ t.ticketId := by
  constructor
  · exact fun hnext u hu => KeyedLog.key_ne_of_largest_lt (h.lastId_lt hnext) hu
  · intro hnew
    rcases h.next_or_stored with hnext | ⟨u, hu, heq⟩
    · have hroom := h.room
      apply Int64.toInt_inj.mp
      rw [hnext, toInt_add_one (by omega)]
    · exact absurd heq (hnew u hu)

theorem Waits.not_next_of_save {n : Nat} {tickets : List Ticket} {t u : Ticket}
    (ht : Waits n tickets t) (hnext : t.ticketId = lastId tickets + 1) (hu : Waits n tickets u) :
    u.ticketId ≠ lastId (tickets ++ [t]) + 1 := by
  intro heq
  have hnew := (ht.save hu).next_iff.mp heq
  rcases hu.next_or_stored with hnext' | ⟨v, hv, hv'⟩
  · have hnextInt : t.ticketId.toInt = (lastId tickets).toInt + 1 := by
      have hroom := hu.room
      rw [hnext, toInt_add_one (by omega)]
    exact hnew t (List.mem_append_right _ List.mem_cons_self)
      (Int64.toInt_inj.mp (hnextInt.trans hnext'.symm))
  · exact hnew v (List.mem_append_left _ hv) hv'

/-! ### The invariant -/

theorem init_inv {file : TicketFile} {tickets : List Ticket} {n : Nat}
    (hfile : Holds c file tickets) (hroom : Room n tickets) :
    Inv c n (init CallName file) tickets :=
  ⟨hfile, hroom, fun _ _ => nofun⟩

theorem Inv.mono {n m : Nat} {s : Concurrent CallName} {tickets : List Ticket}
    (h : Inv c n s tickets) (hle : m ≤ n) : Inv c m s tickets :=
  ⟨h.holds, h.room.of_le hle, fun k t ht => (h.waits k t ht).mono hle⟩

section Phases

variable [DecidableEq CallName]

theorem of_phase_setPhase {s : Concurrent CallName} {k k' : CallName} {p q : CallPhase}
    (h : (s.setPhase k p).phase k' = q) : (k' = k ∧ p = q) ∨ (k' ≠ k ∧ s.phase k' = q) := by
  change Function.update s.phase k p k' = q at h
  by_cases hk : k' = k
  · subst hk
    rw [Function.update_self] at h
    exact Or.inl ⟨rfl, h⟩
  · rw [Function.update_of_ne hk] at h
    exact Or.inr ⟨hk, h⟩

theorem Inv.setPhase {n : Nat} {s : Concurrent CallName} {tickets : List Ticket}
    (h : Inv c n s tickets) (k : CallName) {p : CallPhase}
    (hp : ∀ t, p = .hasTicket t → Waits n tickets t) : Inv c n (s.setPhase k p) tickets where
  holds := h.holds
  room := h.room
  waits k' t ht := by
    rcases of_phase_setPhase ht with ⟨-, ht⟩ | ⟨-, ht⟩
    · exact hp t ht
    · exact h.waits k' t ht

theorem Inv.save {n : Nat} {s : Concurrent CallName} {tickets : List Ticket}
    (h : Inv c n s tickets) {k : CallName} {t : Ticket} (hphase : s.phase k = .hasTicket t)
    {file' : TicketFile} (hfile' : Holds c file' (tickets ++ [t])) {p : CallPhase}
    (hp : ∀ u, p ≠ .hasTicket u) :
    Inv c n { s.setPhase k p with file := file' } (tickets ++ [t]) where
  holds := hfile'
  room := (h.waits k t hphase).room_concat h.room
  waits k' u hu := (h.waits k t hphase).save
    ((h.setPhase k fun u hu => absurd hu (hp u)).waits k' u hu)

end Phases

/-! ### Distinct ids -/

/-- The ids of a ledger are distinct, and so are those of the returned tickets, none of which is
above the largest of the ledger. The tickets that still have the next id are those of the calls that
have not been overtaken. -/
structure UniqueLedger (c : Codec F) (overtaken : CallName → Bool) (s : Concurrent CallName)
    (tickets : List Ticket) : Prop where
  distinct : KeyedLog.Distinct Ticket.ticketId tickets
  issued : ∀ k encoded, s.phase k = .returned (.noErr, encoded) →
    ∃ t, encoded = encodeTicket c t ∧ t.ticketId ≤ lastId tickets
  different : ∀ k k', k ≠ k' → ∀ encoded encoded', s.phase k = .returned (.noErr, encoded) →
    s.phase k' = .returned (.noErr, encoded') → DifferentIds c encoded encoded'
  next_iff : ∀ k t, s.phase k = .hasTicket t →
    (t.ticketId = lastId tickets + 1 ↔ overtaken k = false)

theorem init_uniqueLedger {tickets : List Ticket}
    (h : KeyedLog.Distinct Ticket.ticketId tickets) (file : TicketFile)
    (overtaken : CallName → Bool) : UniqueLedger c overtaken (init CallName file) tickets :=
  ⟨h, fun _ _ => nofun, fun _ _ _ _ _ => nofun, fun _ _ => nofun⟩

theorem UniqueLedger.uniqueIds [Double F] {overtaken : CallName → Bool} {s : Concurrent CallName}
    {tickets : List Ticket} (h : UniqueLedger c overtaken s tickets)
    (hholds : Holds c s.file tickets) : UniqueIds c s :=
  ⟨⟨tickets, hholds.findAll_eq, h.distinct⟩, h.different⟩

section UniqueLedger

variable [DecidableEq CallName] {overtaken : CallName → Bool} {s : Concurrent CallName}
  {tickets : List Ticket}

theorem UniqueLedger.setPhase (h : UniqueLedger c overtaken s tickets) (k : CallName)
    {p : CallPhase} (hp : ∀ encoded, p ≠ .returned (.noErr, encoded))
    {overtaken' : CallName → Bool} (hk : ∀ t, p = .hasTicket t →
      (t.ticketId = lastId tickets + 1 ↔ overtaken' k = false))
    (hother : ∀ k', k' ≠ k → overtaken' k' = overtaken k') :
    UniqueLedger c overtaken' (s.setPhase k p) tickets := by
  have hreturned : ∀ k' encoded, (s.setPhase k p).phase k' = .returned (.noErr, encoded) →
      s.phase k' = .returned (.noErr, encoded) := by
    intro k' encoded hk'
    rcases of_phase_setPhase hk' with ⟨-, hk'⟩ | ⟨-, hk'⟩
    · exact absurd hk' (hp encoded)
    · exact hk'
  refine ⟨h.distinct, fun k' encoded hk' => h.issued k' encoded (hreturned k' encoded hk'),
    fun k' k'' hne encoded encoded' hk' hk'' => h.different k' k'' hne encoded encoded'
      (hreturned k' encoded hk') (hreturned k'' encoded' hk''), fun k' t ht => ?_⟩
  rcases of_phase_setPhase ht with ⟨rfl, hself⟩ | ⟨hne, hold⟩
  · exact hk t hself
  · rw [hother k' hne]
    exact h.next_iff k' t hold

/-- A ticket with the next id is different from all that have been stored and returned, and no
ticket that waits has the id after it. -/
theorem UniqueLedger.save [Double F] (hc : c.Lawful) {n : Nat} (hinv : Inv c n s tickets)
    (h : UniqueLedger c overtaken s tickets) {k : CallName} {t : Ticket}
    (hphase : s.phase k = .hasTicket t) (hnext : t.ticketId = lastId tickets + 1)
    (file' : TicketFile) :
    UniqueLedger c (fun _ => true)
      { s.setPhase k (.returned (.noErr, encodeTicket c t)) with file := file' }
      (tickets ++ [t]) := by
  have ht := hinv.waits k t hphase
  have hlt := ht.lastId_lt hnext
  have hlast : lastId (tickets ++ [t]) = t.ticketId := by
    rw [lastId_concat, max_eq_right hlt.le]
  have hreturned : ∀ k' encoded,
      (s.setPhase k (.returned (.noErr, encodeTicket c t))).phase k' = .returned (.noErr, encoded) →
      (k' = k ∧ encoded = encodeTicket c t) ∨
        ∃ u, s.phase k' = .returned (.noErr, encoded) ∧ encoded = encodeTicket c u ∧
          u.ticketId < t.ticketId := by
    intro k' encoded hk'
    rcases of_phase_setPhase hk' with ⟨hk, heq⟩ | ⟨-, hk'⟩
    · rw [CallPhase.returned.injEq, Prod.mk.injEq] at heq
      exact Or.inl ⟨hk, heq.2.symm⟩
    · obtain ⟨u, hu, hle⟩ := h.issued k' encoded hk'
      exact Or.inr ⟨u, hk', hu, hle.trans_lt hlt⟩
  refine ⟨KeyedLog.distinct_concat_iff.mpr ⟨h.distinct, ht.next_iff.mp hnext⟩,
    fun k' encoded hk' => ?_, fun k' k'' hne encoded encoded' hk' hk'' => ?_, fun k' u hu => ?_⟩
  · rcases hreturned k' encoded hk' with ⟨-, rfl⟩ | ⟨u, -, rfl, hu⟩
    · exact ⟨t, rfl, hlast.ge⟩
    · exact ⟨u, rfl, hlast ▸ hu.le⟩
  · rcases hreturned k' encoded hk' with ⟨rfl, rfl⟩ | ⟨u, hk₁, rfl, hu⟩ <;>
      rcases hreturned k'' encoded' hk'' with ⟨rfl, rfl⟩ | ⟨u', hk₂, rfl, hu'⟩
    · exact absurd rfl hne
    · exact (differentIds_encodeTicket_iff hc).mpr hu'.ne'
    · exact (differentIds_encodeTicket_iff hc).mpr hu.ne
    · exact h.different k' k'' hne _ _ hk₁ hk₂
  · rcases of_phase_setPhase hu with ⟨-, hu⟩ | ⟨-, hu⟩
    · exact nomatch hu
    · exact ⟨fun heq => absurd heq (ht.not_next_of_save hnext (hinv.waits k' u hu)), nofun⟩

end UniqueLedger

/-! ### Runs -/

theorem reads_cons (a : CallStep CallName) (steps : List (CallStep CallName)) :
    reads (a :: steps) = reads steps + reads [a] := by
  cases a <;> simp only [reads, Nat.add_zero, Nat.zero_add]

section Runs

variable [Double F] [DecidableEq CallName] {requests : CallName → CreateRequest}

theorem UniqueLedger.step_of_ne_save {n : Nat} {s' : Concurrent CallName} {tickets : List Ticket}
    {overtaken : CallName → Bool} {a : CallStep CallName}
    (h : UniqueLedger c (overtake overtaken a) s' tickets) (ha : ∀ k, a ≠ .save k)
    (hinv : Inv c n s' tickets) :
    ∃ tickets', Inv c n s' tickets' ∧ (UniqueIds c s' ↔ Undisturbed overtaken a) ∧
      (Undisturbed overtaken a → UniqueLedger c (overtake overtaken a) s' tickets') :=
  ⟨tickets, hinv, iff_of_true (h.uniqueIds hinv.holds) fun k hsave => absurd hsave (ha k),
    fun _ => h⟩

/-- Every step leaves the tickets that wait as they should be; and if the ids were distinct before
it, they are so afterwards exactly if the step does not save a ticket that has been overtaken. -/
theorem Inv.step (hc : c.Lawful) {n : Nat} {s s' : Concurrent CallName} {tickets : List Ticket}
    {overtaken : CallName → Bool} {a : CallStep CallName} (h : Inv c (n + reads [a]) s tickets)
    (hunique : UniqueLedger c overtaken s tickets) (hstep : step c requests s a = some s') :
    ∃ tickets', Inv c n s' tickets' ∧ (UniqueIds c s' ↔ Undisturbed overtaken a) ∧
      (Undisturbed overtaken a → UniqueLedger c (overtake overtaken a) s' tickets') := by
  rcases step_cases hc h.holds hstep with ⟨k, clock, p, rfl, hphase, rfl, hp⟩ |
    ⟨k, rfl, hphase, rfl⟩ | ⟨k, t, file', rfl, hphase, hfile', rfl⟩
  · have hticket : ∀ t, p ≠ .hasTicket t := by
      rintro t rfl
      rcases hp with hp | ⟨refused, hp, -⟩ <;> exact nomatch hp
    have hinv := h.setPhase k fun t ht => absurd ht (hticket t)
    have hunique' : UniqueLedger c overtaken (s.setPhase k p) tickets := by
      refine hunique.setPhase k (fun encoded hreturned => ?_) (fun t ht => absurd ht (hticket t))
        fun _ _ => rfl
      rcases hp with rfl | ⟨refused, rfl, hne⟩
      · exact nomatch hreturned
      · exact hne (congrArg Prod.fst (CallPhase.returned.inj hreturned))
    exact hunique'.step_of_ne_save nofun hinv
  · have hinv : Inv c n (s.setPhase k (.hasTicket (newTicket (requests k) (lastId tickets))))
        tickets := by
      apply (h.mono (Nat.le_add_right n 1)).setPhase k
      intro t ht
      rw [← CallPhase.hasTicket.inj ht]
      exact waits_newTicket h.room (requests k)
    have hunique' : UniqueLedger c (Function.update overtaken k false)
        (s.setPhase k (.hasTicket (newTicket (requests k) (lastId tickets)))) tickets := by
      refine hunique.setPhase k ?_ (fun t ht => ?_) fun k' hne => Function.update_of_ne hne _ _
      · exact fun encoded => nofun
      · rw [← CallPhase.hasTicket.inj ht, Function.update_self]
        exact iff_of_true rfl rfl
    exact hunique'.step_of_ne_save nofun hinv
  · have hinv := h.save hphase hfile' (p := .returned (.noErr, encodeTicket c t)) nofun
    have hnext_iff : Undisturbed overtaken (.save k) ↔ t.ticketId = lastId tickets + 1 := by
      rw [hunique.next_iff k t hphase]
      exact ⟨fun hund => hund k rfl, fun hk k' heq => CallStep.save.inj heq ▸ hk⟩
    refine ⟨tickets ++ [t], hinv, ⟨fun hids => hnext_iff.mpr ?_, fun hund => ?_⟩, fun hund => ?_⟩
    · obtain ⟨found, hfind, hdistinct⟩ := hids.stored
      rw [hfile'.findAll_eq, Except.ok.injEq] at hfind
      rw [← hfind, KeyedLog.distinct_concat_iff] at hdistinct
      exact (h.waits k t hphase).next_iff.mpr hdistinct.2
    · exact (hunique.save hc h hphase (hnext_iff.mp hund) file').uniqueIds hfile'
    · exact hunique.save hc h hphase (hnext_iff.mp hund) file'

theorem along_uniqueIds_iff (hc : c.Lawful) {s s' : Concurrent CallName} {tickets : List Ticket}
    {overtaken : CallName → Bool} {steps : List (CallStep CallName)}
    (h : Inv c (reads steps) s tickets) (hunique : UniqueLedger c overtaken s tickets)
    (hrun : run (step c requests) s steps = some s') :
    Along (step c requests) (fun _ _ s' => UniqueIds c s') s steps ↔
      SavesUndisturbed overtaken steps := by
  induction steps generalizing s tickets overtaken with
  | nil => exact Iff.rfl
  | cons a steps ih =>
      obtain ⟨s₁, hstep, hrest⟩ := (run_cons_eq_some _).mp hrun
      rw [reads_cons] at h
      obtain ⟨tickets', h', hiff, hunique'⟩ := h.step hc hunique hstep
      rw [along_cons]
      simp only [hstep, Option.some.injEq, forall_eq']
      exact (and_congr_left' hiff).trans
        (and_congr_right fun hund => ih h' (hunique' hund) hrest)

/-- However the calls interleave, the ids stay distinct at every moment exactly if no call saves a
ticket between another call's reading of the largest id and its saving. -/
theorem ids_unique_iff (hc : c.Lawful) {file : TicketFile} {tickets : List Ticket}
    (hfile : Holds c file tickets) (hdistinct : KeyedLog.Distinct Ticket.ticketId tickets)
    {steps : List (CallStep CallName)} (hroom : Room (reads steps) tickets)
    {s : Concurrent CallName} (hrun : run (step c requests) (init CallName file) steps = some s) :
    Along (step c requests) (fun _ _ s' => UniqueIds c s') (init CallName file) steps ↔
      SavesUndisturbed (fun _ => false) steps :=
  along_uniqueIds_iff hc (init_inv hfile hroom) (init_uniqueLedger hdistinct file _) hrun

/-- Two calls that start together, of which one reads the largest id after the other has saved. -/
theorem ids_unique_iff_two_calls :
    ∃ s, run (step referenceCodec fun _ => ⟨1, 5, 1000⟩) (init Bool none)
        [.check false ⟨1000, 1001⟩, .check true ⟨1002, 1003⟩, .getLastTicketId true, .save true,
          .getLastTicketId false, .save false] = some s ∧
      Along (step referenceCodec fun _ => ⟨1, 5, 1000⟩)
        (fun _ _ s' => UniqueIds referenceCodec s') (init Bool none)
        [.check false ⟨1000, 1001⟩, .check true ⟨1002, 1003⟩, .getLastTicketId true, .save true,
          .getLastTicketId false, .save false] := by
  have hnew := holds_none referenceCodec
  obtain ⟨file₁, hsave₁, hfile₁⟩ := hnew.save_completes referenceCodec_lawful ⟨1, 1000, 1, 5⟩
  obtain ⟨file₂, hsave₂, -⟩ := hfile₁.save_completes referenceCodec_lawful ⟨2, 1000, 1, 5⟩
  obtain ⟨s, hrun⟩ : ∃ s, run (step referenceCodec fun _ => ⟨1, 5, 1000⟩) (init Bool none)
      [.check false ⟨1000, 1001⟩, .check true ⟨1002, 1003⟩, .getLastTicketId true, .save true,
        .getLastTicketId false, .save false] = some s := by
    simp only [run_cons_eq_some]
    exact ⟨_, _, rfl, _, rfl, _, rfl, _, step_save rfl hsave₁, _,
      step_getLastTicketId rfl hfile₁, _, step_save rfl hsave₂, rfl⟩
  have hundisturbed : SavesUndisturbed (fun _ : Bool => false)
      [.check false ⟨1000, 1001⟩, .check true ⟨1002, 1003⟩, .getLastTicketId true, .save true,
        .getLastTicketId false, .save false] := by
    refine ⟨nofun, nofun, nofun, ?_, nofun, ?_, trivial⟩ <;> rintro k ⟨⟩ <;> rfl
  exact ⟨s, hrun,
    (ids_unique_iff referenceCodec_lawful hnew List.nodup_nil (room_nil (by decide)) hrun).mpr
      hundisturbed⟩

/-- Two calls that both read the largest id before either has saved issue the same id. -/
theorem ids_not_unique :
    ¬ ∀ (c : Codec Empty) (CallName : Type) [DecidableEq CallName]
      (requests : CallName → CreateRequest) (file : TicketFile) (tickets : List Ticket)
      (steps : List (CallStep CallName)), c.Lawful → Holds c file tickets →
      KeyedLog.Distinct Ticket.ticketId tickets → Room (reads steps) tickets →
      Along (step c requests) (fun _ _ s' => UniqueIds c s') (init CallName file) steps := by
  intro hall
  have hnew := holds_none referenceCodec
  have hroom : Room 2 [] := room_nil (by decide)
  have halong := hall referenceCodec Bool (fun _ => ⟨1, 5, 1000⟩) none []
    [.check false ⟨1000, 1001⟩, .check true ⟨1000, 1001⟩, .getLastTicketId false,
      .getLastTicketId true, .save false, .save true]
    referenceCodec_lawful hnew List.nodup_nil hroom
  obtain ⟨file₁, hsave₁, hfile₁⟩ := hnew.save_completes referenceCodec_lawful ⟨1, 1000, 1, 5⟩
  obtain ⟨file₂, hsave₂, hfile₂⟩ := hfile₁.save_completes referenceCodec_lawful ⟨1, 1000, 1, 5⟩
  have hsaves := ((((halong _ rfl).2 _ rfl).2 _ rfl).2 _ rfl).2
  have hids := ((hsaves _ (step_save rfl hsave₁)).2 _ (step_save rfl hsave₂)).1
  obtain ⟨found, hfind, hdistinct⟩ := hids.stored
  rw [hfile₂.findAll_eq, Except.ok.injEq] at hfind
  rw [← hfind, KeyedLog.distinct_concat_iff] at hdistinct
  exact hdistinct.2 _ List.mem_cons_self rfl

end Runs

end Concurrent

end Ticketing.BackOffice
