import Ticketing.BackOffice.Service
import Ticketing.ReferenceCodec

/-!
# Runs of requests

Requests for tickets and requests for validation, served one at a time by a back office whose writes
succeed. Whatever the requests ask for and however they end, the ledger only grows. A ticket is
issued with an id that no stored ticket has, and the lookup of an id answers with the earliest
ticket; so the text of an issued ticket leads to that ticket for good.
-/

namespace Ticketing.BackOffice

variable {F : Type} [Double F]

inductive Request where
  | create (r : CreateRequest) (clock : CreateClock)
  | validate (encoded : Bytes) (now : Int64)

/-- The file after a request. A call that ends in an exception leaves it as it was. -/
def serve (c : Codec F) (file : TicketFile) : Request → TicketFile
  | .create r clock =>
      match createTicketBase64 c file r clock .completes with
      | .ok (_, file') => file'
      | .error _ => file
  | .validate _ _ => file

def serveAll (c : Codec F) (file : TicketFile) (requests : List Request) : TicketFile :=
  requests.foldl (serve c) file

def creates : List Request → Nat
  | [] => 0
  | .create _ _ :: requests => creates requests + 1
  | .validate _ _ :: requests => creates requests

/-! ### The ledger grows -/

variable {c : Codec F}

theorem newTicket_ticketId (r : CreateRequest) (lastTicketId : Int64) :
    (newTicket r lastTicketId).ticketId = lastTicketId + 1 := rfl

/-- The file has come to hold at least the tickets, and of the room for ids at most `m` are used. -/
def Grown (c : Codec F) (file : TicketFile) (tickets : List Ticket) (m : Nat) : Prop :=
  ∃ more, Holds c file (tickets ++ more) ∧ ∀ n, Room (n + m) tickets → Room n (tickets ++ more)

omit [Double F] in
theorem Holds.grown {file : TicketFile} {tickets : List Ticket} (h : Holds c file tickets)
    (m : Nat) : Grown c file tickets m := by
  refine ⟨[], ?_, fun n hroom => ?_⟩
  · rw [List.append_nil]
    exact h
  · rw [List.append_nil]
    exact hroom.of_le (Nat.le_add_right n m)

theorem Holds.serve (hc : c.Lawful) {file : TicketFile} {tickets : List Ticket}
    (h : Holds c file tickets) (q : Request) : Grown c (serve c file q) tickets (creates [q]) := by
  cases q with
  | create r clock =>
      rw [BackOffice.serve]
      cases hcheck : checkRequest r clock with
      | some refused =>
          rw [createTicketBase64_of_refused hcheck]
          exact h.grown _
      | none =>
          obtain ⟨file', hcreate, hfile'⟩ := h.createTicketBase64_completes hc hcheck
          rw [hcreate]
          exact ⟨[newTicket r (lastId tickets)], hfile', fun n hroom => hroom.concat rfl⟩
  | validate encoded now => exact h.grown _

theorem creates_cons (q : Request) (requests : List Request) :
    creates (q :: requests) = creates requests + creates [q] := by
  cases q <;> simp only [creates, Nat.add_zero, Nat.zero_add]

theorem Holds.serveAll (hc : c.Lawful) {file : TicketFile} {tickets : List Ticket}
    (h : Holds c file tickets) (requests : List Request) :
    Grown c (serveAll c file requests) tickets (creates requests) := by
  induction requests generalizing file tickets with
  | nil => exact h.grown _
  | cons q requests ih =>
      obtain ⟨first, hfirst, hroomFirst⟩ := h.serve hc q
      obtain ⟨rest, hrest, hroomRest⟩ := ih hfirst
      refine ⟨first ++ rest, ?_, fun n hroom => ?_⟩
      · rw [← List.append_assoc]
        exact hrest
      · rw [← List.append_assoc]
        apply hroomRest n (hroomFirst _ _)
        rwa [creates_cons, ← Nat.add_assoc] at hroom

/-! ### Issued tickets -/

theorem Holds.issued (hc : c.Lawful) {file : TicketFile} {tickets : List Ticket}
    (h : Holds c file tickets) (hroom : Room 1 tickets) {r : CreateRequest} {clock : CreateClock}
    {encoded : Bytes} {file' : TicketFile}
    (hcreate : createTicketBase64 c file r clock .completes = .ok ((.noErr, encoded), file')) :
    encoded = encodeTicket c (newTicket r (lastId tickets)) ∧
      Holds c file' (tickets ++ [newTicket r (lastId tickets)]) ∧
      ∀ more,
        lookupTicket (lastId tickets + 1) (tickets ++ [newTicket r (lastId tickets)] ++ more) =
          some (newTicket r (lastId tickets)) := by
  obtain ⟨rfl, hfile'⟩ := h.accepted hc hcreate
  refine ⟨rfl, hfile', fun more => KeyedLog.lookup_append_of_some ?_ more⟩
  exact KeyedLog.lookup_concat_of_largest_lt (r := newTicket r (lastId tickets))
    (Room.lastId_lt_next (n := 0) hroom)

/-- What a passenger can rely on who has been given the text for the ticket. -/
structure Resolvable (c : Codec F) (file : TicketFile) (encoded : Bytes) (t : Ticket) : Prop where
  /-- the text carries exactly the ticket -/
  decodes : c.parse (c.base64decode encoded) = some (ticketJson t)
  /-- after any requests the text is judged by the ticket and by nothing else -/
  resolves : ∀ later now, validateTicketBase64 c (serveAll c file later) encoded now =
    .ok (if isExpired now t then (.expired, refusal "EXPIRED") else (.noErr, validated t.ticketId))
  /-- once it has been found expired it is never found valid again -/
  expired_stays : ∀ later later' now now', now ≤ now' →
    validateTicketBase64 c (serveAll c file later) encoded now =
      .ok (.expired, refusal "EXPIRED") →
    validateTicketBase64 c (serveAll c file (later ++ later')) encoded now' =
      .ok (.expired, refusal "EXPIRED")

theorem resolvable_of_lookup (hc : c.Lawful) {file : TicketFile} {tickets : List Ticket}
    (h : Holds c file tickets) {t : Ticket}
    (hlookup : ∀ more, lookupTicket t.ticketId (tickets ++ more) = some t) :
    Resolvable c file (encodeTicket c t) t := by
  have hresolves : ∀ later now, validateTicketBase64 c (serveAll c file later) (encodeTicket c t)
      now = .ok (if isExpired now t then (.expired, refusal "EXPIRED")
        else (.noErr, validated t.ticketId)) := by
    intro later now
    obtain ⟨more, hlater, -⟩ := h.serveAll hc later
    exact hlater.validate_encodeTicket hc (hlookup more) now
  refine ⟨parse_encodeTicket hc t, hresolves, fun later later' now now' hle hexpired => ?_⟩
  rw [hresolves, Except.ok.injEq] at hexpired
  rw [hresolves]
  split at hexpired
  · rename_i hnow
    rw [if_pos (isExpired_mono hle hnow)]
  · exact nomatch congrArg Prod.fst hexpired

end Ticketing.BackOffice
