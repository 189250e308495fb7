import Mathlib.Order.Nat
import Ticketing.BackOffice.Repository
import Ticketing.Library.KeyedLog

/-!
# The repository as an append-only ledger

What the repository is for: it holds a list of tickets, `save` appends one, and the other operations
look the list over. `Holds` relates a ticket file to the list that it holds, and every operation on
such a file does to the list what it should. All that is said elsewhere about stored tickets goes
through this module and never through the JSON text.
-/

instance Int64.linearOrder : LinearOrder Int64 where
  le_refl := Int64.le_refl
  le_trans _ _ _ := Int64.le_trans
  le_antisymm _ _ := Int64.le_antisymm
  le_total := Int64.le_total
  lt_iff_le_not_ge a b := by
    rw [Int64.not_le]
    exact ⟨fun h => ⟨Int64.le_of_lt h, h⟩, And.right⟩
  toDecidableLE := Int64.decLe
  toDecidableLT := Int64.decLt
  toDecidableEq := Int64.decEq

namespace Ticketing.BackOffice

open KeyedLog

variable {F : Type}

/-! ### Ids -/

/-- The ticket with this id, the earliest if there are several. -/
def lookupTicket (id : Int64) (tickets : List Ticket) : Option Ticket :=
  lookup Ticket.ticketId id tickets

/-- The largest id, at least 0. -/
def lastId (tickets : List Ticket) : Int64 := largest Ticket.ticketId 0 tickets

/-- The ids leave room for `n` more below the largest `int64_t`. -/
def Room (n : Nat) (tickets : List Ticket) : Prop :=
  (lastId tickets).toInt + n ≤ Int64.maxValue.toInt

theorem Room.of_le {m n : Nat} {tickets : List Ticket} (h : Room n tickets) (hle : m ≤ n) :
    Room m tickets := by
  rw [Room] at h ⊢
  omega

theorem room_nil {n : Nat} (h : n ≤ Int64.maxValue.toInt) : Room n [] := by
  rw [Room, lastId, largest, List.foldl_nil, Int64.toInt_zero, Int.zero_add]
  exact h

theorem toInt_add_one {x : Int64} (h : x.toInt < Int64.maxValue.toInt) :
    (x + 1).toInt = x.toInt + 1 := by
  rw [Int64.toInt_maxValue] at h
  have hle := x.le_toInt
  rw [Int64.toInt_add, Int64.toInt_one, Int.bmod_eq_of_le] <;> omega

theorem Room.toInt_next {n : Nat} {tickets : List Ticket} (h : Room (n + 1) tickets) :
    (lastId tickets + 1).toInt = (lastId tickets).toInt + 1 := by
  apply toInt_add_one
  rw [Room] at h
  omega

theorem Room.lastId_lt_next {n : Nat} {tickets : List Ticket} (h : Room (n + 1) tickets) :
    lastId tickets < lastId tickets + 1 := by
  rw [Int64.lt_iff_toInt_lt, h.toInt_next]
  omega

theorem lastId_concat (tickets : List Ticket) (t : Ticket) :
    lastId (tickets ++ [t]) = max (lastId tickets) t.ticketId := largest_concat 0 tickets t

theorem Room.lastId_concat {n : Nat} {tickets : List Ticket} (h : Room (n + 1) tickets) {t : Ticket}
    (hid : t.ticketId = lastId tickets + 1) : lastId (tickets ++ [t]) = lastId tickets + 1 := by
  rw [BackOffice.lastId_concat, hid, max_eq_right h.lastId_lt_next.le]

theorem Room.concat {n : Nat} {tickets : List Ticket} (h : Room (n + 1) tickets) {t : Ticket}
    (hid : t.ticketId = lastId tickets + 1) : Room n (tickets ++ [t]) := by
  rw [Room, h.lastId_concat hid, h.toInt_next]
  rw [Room] at h
  omega

/-! ### Files that hold a ledger -/

/-- The member `"tickets"` of a document holds the tickets, of which there are none where the member
is missing or null. -/
def Entries (members : List (String × Json F)) (tickets : List Ticket) : Prop :=
  match SortedAssoc.find? "tickets" members with
  | none | some .null => tickets = []
  | some (.array elems) => List.Forall₂ DescribesTicket elems tickets
  | _ => False

/-- The file is absent, or it is an object that holds the tickets. -/
def Holds (c : Codec F) (file : TicketFile) (tickets : List Ticket) : Prop :=
  match file with
  | none => tickets = []
  | some text => ∃ members, c.extract text = some (.object members) ∧ Entries members tickets

theorem holds_none (c : Codec F) : Holds c none [] := rfl

theorem Entries.elements {members : List (String × Json F)} {tickets : List Ticket}
    (h : Entries members tickets) :
    ∃ entries : Json F, (Json.object members).indexMut "tickets" = .ok entries ∧
      List.Forall₂ DescribesTicket entries.elements tickets ∧
      ∀ v, entries.pushBack v = .ok (.array (entries.elements ++ [v])) := by
  refine ⟨_, rfl, ?_⟩
  rw [Entries] at h
  split at h
  · rename_i hfind
    rw [hfind, h]
    exact ⟨.nil, fun _ => rfl⟩
  · rename_i hfind
    rw [hfind, h]
    exact ⟨.nil, fun _ => rfl⟩
  · rename_i hfind
    rw [hfind]
    exact ⟨h, fun _ => rfl⟩
  · exact h.elim

theorem Holds.load_eq {c : Codec F} {file : TicketFile} {tickets : List Ticket}
    (h : Holds c file tickets) :
    ∃ members, load c file = .ok (.object members) ∧ Entries members tickets := by
  cases file with
  | none =>
      refine ⟨_, rfl, ?_⟩
      rw [Holds] at h
      rw [Entries, SortedAssoc.ofList, List.foldl_cons, List.foldl_nil, SortedAssoc.insert_nil,
        SortedAssoc.find?_cons_self, h]
      exact .nil
  | some text =>
      obtain ⟨members, hextract, hentries⟩ := h
      refine ⟨members, ?_, hentries⟩
      rw [load, hextract]

theorem canonical_of_load {c : Codec F} (hc : c.Lawful) {file : TicketFile} {j : Json F}
    (h : load c file = .ok j) : j.Canonical := by
  cases file with
  | none =>
      rw [load, Except.ok.injEq] at h
      rw [← h]
      apply Json.Canonical.ofPairs
      intro p hp
      rw [List.mem_singleton.mp hp]
      exact .array (by simp)
  | some text =>
      rw [load] at h
      split at h
      · exact nomatch h
      · rename_i hextract
        rw [Except.ok.injEq] at h
        exact h ▸ hc.extract_canonical text _ hextract

/-! ### Reading -/

section Reading

variable [Double F]

theorem readTicket_of_describes {j : Json F} {t : Ticket} (h : DescribesTicket j t) :
    readTicket j = .ok t := by
  obtain ⟨members, rfl, hmembers⟩ := h
  simp only [BackOffice.readTicket, Json.index_object hmembers.ticketId,
    Json.index_object hmembers.creationDate, Json.index_object hmembers.validityInDays,
    Json.index_object hmembers.lineNumber, Json.getInt64_ofInt64, Json.getInt32_ofInt32,
    Except.ok_bind, Except.pure_eq_ok]

theorem findIn_eq_lookupTicket {entries : List (Json F)} {tickets : List Ticket}
    (h : List.Forall₂ DescribesTicket entries tickets) (id : Int64) :
    findIn id entries = .ok (lookupTicket id tickets) := by
  induction h with
  | nil => rfl
  | @cons j t entries tickets hj _ ih =>
      rw [findIn, hj.index_ticketId]
      simp only [Except.ok_bind, Except.pure_eq_ok, Json.eqInt64_ofInt64, beq_iff_eq,
        readTicket_of_describes hj, ih]
      split
      · rename_i heq
        rw [lookupTicket, lookup_cons_of_eq heq]
      · rename_i hne
        rw [lookupTicket, lookupTicket, lookup_cons_of_ne hne]

theorem Holds.findById_eq {c : Codec F} {file : TicketFile} {tickets : List Ticket}
    (h : Holds c file tickets) (id : Int64) :
    findById c file id = .ok (lookupTicket id tickets) := by
  obtain ⟨members, hload, hentries⟩ := h.load_eq
  obtain ⟨entries, hindex, hdescribes, -⟩ := hentries.elements
  simp only [findById, hload, hindex, Except.ok_bind, findIn_eq_lookupTicket hdescribes]

theorem mapM_readTicket {entries : List (Json F)} {tickets : List Ticket}
    (h : List.Forall₂ DescribesTicket entries tickets) : entries.mapM readTicket = .ok tickets :=
  Except.mapM_eq_ok_iff.mpr (h.imp fun _ _ => readTicket_of_describes)

theorem Holds.findAll_eq {c : Codec F} {file : TicketFile} {tickets : List Ticket}
    (h : Holds c file tickets) : findAll c file = .ok tickets := by
  obtain ⟨members, hload, hentries⟩ := h.load_eq
  obtain ⟨entries, hindex, hdescribes, -⟩ := hentries.elements
  simp only [findAll, hload, hindex, Except.ok_bind, mapM_readTicket hdescribes]

theorem foldlM_largest {entries : List (Json F)} {tickets : List Ticket}
    (h : List.Forall₂ DescribesTicket entries tickets) (floor : Int64) :
    entries.foldlM (fun maxId t => return max maxId (← (← t.index "ticket_id").getInt64)) floor =
      (.ok (largest Ticket.ticketId floor tickets) : Except JsonError Int64) := by
  induction h generalizing floor with
  | nil => rfl
  | @cons j t entries tickets hj _ ih =>
      rw [List.foldlM_cons, hj.index_ticketId]
      simp only [Except.ok_bind, Except.pure_eq_ok, Json.getInt64_ofInt64]
      exact ih (max floor t.ticketId)

theorem Holds.getLastTicketId_eq {c : Codec F} {file : TicketFile} {tickets : List Ticket}
    (h : Holds c file tickets) : getLastTicketId c file = .ok (lastId tickets) := by
  obtain ⟨members, hload, hentries⟩ := h.load_eq
  obtain ⟨entries, hindex, hdescribes, -⟩ := hentries.elements
  simp only [getLastTicketId, hload, hindex, Except.ok_bind]
  exact foldlM_largest hdescribes 0

end Reading

/-! ### Saving

All that a write can leave behind: the old file, a text that is no document, or the ledger with one
more ticket. -/

/-- The document that `save` writes: that of the file with the entry for one more ticket. -/
theorem Holds.save_members {c : Codec F} {file : TicketFile} {tickets : List Ticket}
    (h : Holds c file tickets) (t : Ticket) :
    ∃ members entries, load c file = .ok (.object members) ∧
      (Json.object members).indexMut "tickets" = .ok entries ∧
      List.Forall₂ DescribesTicket entries.elements tickets ∧
      ∀ write, save c file t write = .ok (persist c file (.object
        (SortedAssoc.insert "tickets" (.array (entries.elements ++ [ticketJson t])) members))
        write) := by
  obtain ⟨members, hload, hentries⟩ := h.load_eq
  obtain ⟨entries, hindex, hdescribes, hpush⟩ := hentries.elements
  refine ⟨members, entries, hload, hindex, hdescribes, fun write => ?_⟩
  simp only [save, hload, hindex, hpush, Except.ok_bind, Except.pure_eq_ok, Json.assign]

theorem Holds.save_ok {c : Codec F} {file : TicketFile} {tickets : List Ticket}
    (h : Holds c file tickets) (t : Ticket) (write : Write) :
    ∃ file', save c file t write = .ok file' := by
  obtain ⟨members, entries, -, -, -, hsave⟩ := h.save_members t
  exact ⟨_, hsave write⟩

/-- The text that `save` writes is a document with the tickets and one more. All its other members
are those of the document before. -/
theorem Holds.save_eq {c : Codec F} (hc : c.Lawful) {file : TicketFile} {tickets : List Ticket}
    (h : Holds c file tickets) (t : Ticket) :
    ∃ old members, load c file = .ok (.object old) ∧ (Json.object members).Canonical ∧
      Entries members (tickets ++ [t]) ∧
      (∀ key, key ≠ "tickets" → SortedAssoc.find? key members = SortedAssoc.find? key old) ∧
      ∀ write, save c file t write = .ok (persist c file (.object members) write) := by
  obtain ⟨old, entries, hload, hindex, hdescribes, hsave⟩ := h.save_members t
  have hcanonical := canonical_of_load hc hload
  have hentriesCanonical := (hcanonical.indexMut hindex).elements
  have harray := Json.Canonical.append (.array hentriesCanonical) (ticketJson_canonical t)
  refine ⟨old, _, hload, hcanonical.assign "tickets" harray, ?_, fun key hkey => ?_, hsave⟩
  · rw [Entries, SortedAssoc.find?_insert_self]
    exact List.rel_append hdescribes (.cons (describesTicket_ticketJson t) .nil)
  · exact SortedAssoc.find?_insert_of_ne hkey _ old

theorem Holds.save_openFails {c : Codec F} (hc : c.Lawful) {file : TicketFile}
    {tickets : List Ticket} (h : Holds c file tickets) (t : Ticket) :
    save c file t .openFails = .ok file := by
  obtain ⟨-, members, -, -, -, -, hsave⟩ := h.save_eq hc t
  exact hsave .openFails

theorem Holds.save_completes {c : Codec F} (hc : c.Lawful) {file : TicketFile}
    {tickets : List Ticket} (h : Holds c file tickets) (t : Ticket) :
    ∃ file', save c file t .completes = .ok file' ∧ Holds c file' (tickets ++ [t]) := by
  obtain ⟨-, members, -, hcanonical, hentries, -, hsave⟩ := h.save_eq hc t
  exact ⟨_, hsave .completes, members, hc.extract_dump4 _ hcanonical, hentries⟩

/-- A write that stops short leaves no document in the file. -/
theorem Holds.save_stopsShort {c : Codec F} (hc : c.Lawful) {file : TicketFile}
    {tickets : List Ticket} (h : Holds c file tickets) (t : Ticket) (written : Nat) :
    ∃ text, save c file t (.stopsShort written) = .ok (some text) ∧
      c.extract text = none := by
  obtain ⟨-, members, -, hcanonical, -, -, hsave⟩ := h.save_eq hc t
  refine ⟨_, hsave (.stopsShort written), ?_⟩
  have hnonempty := hc.dump4_ne_nil hcanonical
  refine hc.extract_cut members _ hcanonical
    ((List.take_prefix _ _).trans (List.dropLast_prefix _)) fun heq => ?_
  have hlength := congrArg List.length heq
  have hpos := List.length_pos_iff.mpr hnonempty
  rw [List.length_take, List.length_dropLast] at hlength
  omega

end Ticketing.BackOffice
