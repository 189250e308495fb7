import Ticketing.BackOffice.Ledger

/-!
# The tickets service

`back-office/src/TicketsService.cpp`: issuing a ticket as base64 text and validating such a text.
The clock readings of a call are arguments, and so is what becomes of its write. What
`create_ticket_base64` does between two operations of the repository is a function of its own, since
other calls may come in between. Arithmetic on dates wraps, as compiled.
-/

namespace Ticketing.BackOffice

variable {F : Type}

/-! ### Expiry -/

/-- `is_expired(const Ticket&)`: the product is computed in `int`. -/
def isExpired (now : Int64) (t : Ticket) : Bool :=
  let expiry : Int64 := t.creationDate + (t.validityInDays * 86400).toInt64
  decide (now > expiry)

/-- `is_expired(int64_t, int64_t)` -/
def isExpiredRequest (now : Int64) (creationDate validityInDays : Int64) : Bool :=
  let expiry : Int64 := creationDate + validityInDays * 86400
  decide (now > expiry)

theorem isExpired_mono {now now' : Int64} (hle : now ≤ now') {t : Ticket}
    (h : isExpired now t = true) : isExpired now' t = true :=
  decide_eq_true (lt_of_lt_of_le (of_decide_eq_true h) hle)

/-! ### Issuing -/

/-- The arguments of `create_ticket_base64`. -/
structure CreateRequest where
  validityInDays : Int32
  lineNumber : Int32
  requestDate : Int64

/-- What `std::time` returns in one call of `create_ticket_base64`. -/
structure CreateClock where
  expiryCheck : Int64
  futureCheck : Int64

/-- The checks made before the repository is asked anything, with the refusal where one fails. -/
def checkRequest (r : CreateRequest) (clock : CreateClock) : Option (TicketErrorCode × Bytes) :=
  if isExpiredRequest clock.expiryCheck r.requestDate r.validityInDays.toInt64 then
    some (.expired, ascii "ticket in the request is expired!")
  else if r.requestDate > clock.futureCheck then
    some (.fromFuture, ascii "ticket has date from future")
  else none

theorem checkRequest_eq_none_iff {r : CreateRequest} {clock : CreateClock} :
    checkRequest r clock = none ↔
      isExpiredRequest clock.expiryCheck r.requestDate r.validityInDays.toInt64 = false ∧
        r.requestDate ≤ clock.futureCheck := by
  rw [checkRequest]
  by_cases hexpired :
      isExpiredRequest clock.expiryCheck r.requestDate r.validityInDays.toInt64 = true
  · simp [hexpired]
  · by_cases hfuture : r.requestDate > clock.futureCheck
    · simp [hexpired, hfuture]
    · simp [hexpired, hfuture, not_lt.mp hfuture]

def newTicket (r : CreateRequest) (lastTicketId : Int64) : Ticket where
  ticketId := lastTicketId + 1
  creationDate := r.requestDate
  validityInDays := r.validityInDays
  lineNumber := r.lineNumber

/-- The text that a passenger is given. -/
def encodeTicket (c : Codec F) (t : Ticket) : Bytes := c.base64encode (c.dump (ticketJson t))

def createTicketBase64 [Double F] (c : Codec F) (file : TicketFile) (r : CreateRequest)
    (clock : CreateClock) (write : Write) :
    Except JsonError ((TicketErrorCode × Bytes) × TicketFile) :=
  match checkRequest r clock with
  | some refusal => return (refusal, file)
  | none => do
      let ticket := newTicket r (← getLastTicketId c file)
      let file ← save c file ticket write
      return ((.noErr, encodeTicket c ticket), file)

/-! ### Validating -/

def refusal (reason : String) : Json F :=
  .ofPairs [("valid", .boolean false), ("reason", .string reason)]

def validated (ticketId : Int64) : Json F :=
  .ofPairs [
    ("ticket_id", .ofInt64 ticketId),
    ("valid", .boolean true),
    ("reason", .string "VALIDATED")]

/-- The answer for the ticket that has been found under the id. -/
def verdict (now ticketId : Int64) : Option Ticket → TicketErrorCode × Json F
  | none => (.notFound, refusal "NOT_FOUND")
  | some ticket =>
      if isExpired now ticket then (.expired, refusal "EXPIRED") else (.noErr, validated ticketId)

def validateTicketBase64 [Double F] (c : Codec F) (file : TicketFile) (encoded : Bytes)
    (now : Int64) : Except JsonError (TicketErrorCode × Json F) :=
  match c.parse (c.base64decode encoded) with
  | none => return (.invalidPayload, refusal "INVALID_PAYLOAD")
  | some j => do
      let ticketId ← (← j.indexMut "ticket_id").getInt64
      return verdict now ticketId (← findById c file ticketId)

theorem verdict_noErr_iff {now ticketId : Int64} {found : Option Ticket} :
    (verdict now ticketId found : TicketErrorCode × Json F).1 = .noErr ↔
      ∃ t, found = some t ∧ isExpired now t = false := by
  cases found with
  | none => exact ⟨nofun, fun ⟨_, h, _⟩ => nomatch h⟩
  | some t =>
      rw [verdict]
      cases hexpired : isExpired now t with
      | true =>
          refine ⟨nofun, fun ⟨t', h, hnot⟩ => ?_⟩
          rw [Option.some.injEq] at h
          rw [← h, hexpired] at hnot
          exact nomatch hnot
      | false => exact ⟨fun _ => ⟨t, rfl, hexpired⟩, fun _ => rfl⟩

/-! ### What a call does to a ledger -/

/-- The text carries all of the ticket, perhaps among other things. -/
def Carries (c : Codec F) (encoded : Bytes) (t : Ticket) : Prop :=
  ∃ j, c.parse (c.base64decode encoded) = some j ∧ DescribesTicket j t

theorem parse_encodeTicket {c : Codec F} (hc : c.Lawful) (t : Ticket) :
    c.parse (c.base64decode (encodeTicket c t)) = some (ticketJson t) := by
  rw [encodeTicket, hc.base64decode_encode, hc.parse_dump _ (ticketJson_canonical t)]

section Holds

variable [Double F] {c : Codec F} {file : TicketFile} {tickets : List Ticket}

theorem carries_encodeTicket_iff (hc : c.Lawful) {t t' : Ticket} :
    Carries c (encodeTicket c t) t' ↔ t = t' := by
  rw [Carries, parse_encodeTicket hc]
  constructor
  · rintro ⟨j, hj, hdescribes⟩
    rw [← Option.some.inj hj] at hdescribes
    have hread := readTicket_of_describes (describesTicket_ticketJson (F := F) t)
    rwa [readTicket_of_describes hdescribes, Except.ok.injEq, eq_comm] at hread
  · rintro rfl
    exact ⟨_, rfl, describesTicket_ticketJson t⟩

/-- The two texts carry tickets with different ids. -/
def DifferentIds (c : Codec F) (encoded encoded' : Bytes) : Prop :=
  ∀ t t', Carries c encoded t → Carries c encoded' t' → t.ticketId ≠ t'.ticketId

theorem differentIds_encodeTicket_iff (hc : c.Lawful) {t t' : Ticket} :
    DifferentIds c (encodeTicket c t) (encodeTicket c t') ↔ t.ticketId ≠ t'.ticketId := by
  simp only [DifferentIds, carries_encodeTicket_iff hc]
  exact ⟨fun h => h t t' rfl rfl, fun h u u' hu hu' => hu ▸ hu' ▸ h⟩

theorem createTicketBase64_of_refused {r : CreateRequest} {clock : CreateClock}
    {refused : TicketErrorCode × Bytes} (hcheck : checkRequest r clock = some refused)
    (write : Write) : createTicketBase64 c file r clock write = .ok (refused, file) := by
  rw [createTicketBase64, hcheck]
  rfl

theorem checkRequest_eq_some {r : CreateRequest} {clock : CreateClock}
    {refused : TicketErrorCode × Bytes} (hcheck : checkRequest r clock = some refused) :
    refused = (.expired, ascii "ticket in the request is expired!") ∨
      refused = (.fromFuture, ascii "ticket has date from future") := by
  rw [checkRequest] at hcheck
  split at hcheck
  · exact Or.inl (Option.some.inj hcheck).symm
  · split at hcheck
    · exact Or.inr (Option.some.inj hcheck).symm
    · exact nomatch hcheck

theorem checkRequest_ne_noErr {r : CreateRequest} {clock : CreateClock}
    {refused : TicketErrorCode × Bytes} (hcheck : checkRequest r clock = some refused) :
    refused.1 ≠ .noErr := by
  rcases checkRequest_eq_some hcheck with rfl | rfl <;> exact nofun

theorem checkRequest_of_accepted {r : CreateRequest} {clock : CreateClock} {write : Write}
    {encoded : Bytes} {file' : TicketFile}
    (hcreate : createTicketBase64 c file r clock write = .ok ((.noErr, encoded), file')) :
    checkRequest r clock = none := by
  cases hcheck : checkRequest r clock with
  | none => rfl
  | some refused =>
      rw [createTicketBase64_of_refused hcheck, Except.ok.injEq, Prod.mk.injEq] at hcreate
      exact absurd (congrArg Prod.fst hcreate.1) (checkRequest_ne_noErr hcheck)

theorem Holds.createTicketBase64_eq (h : Holds c file tickets) {r : CreateRequest}
    {clock : CreateClock} (hcheck : checkRequest r clock = none) {write : Write}
    {file' : TicketFile}
    (hsave : save c file (newTicket r (lastId tickets)) write = .ok file') :
    createTicketBase64 c file r clock write =
      .ok ((.noErr, encodeTicket c (newTicket r (lastId tickets))), file') := by
  rw [createTicketBase64, hcheck]
  simp only [h.getLastTicketId_eq, hsave, Except.ok_bind, Except.pure_eq_ok]

theorem Holds.createTicketBase64_ok (h : Holds c file tickets) {r : CreateRequest}
    {clock : CreateClock} (hcheck : checkRequest r clock = none) (write : Write) :
    ∃ file', createTicketBase64 c file r clock write =
      .ok ((.noErr, encodeTicket c (newTicket r (lastId tickets))), file') := by
  obtain ⟨file', hsave⟩ := h.save_ok (newTicket r (lastId tickets)) write
  exact ⟨file', h.createTicketBase64_eq hcheck hsave⟩

theorem Holds.createTicketBase64_completes (hc : c.Lawful) (h : Holds c file tickets)
    {r : CreateRequest} {clock : CreateClock} (hcheck : checkRequest r clock = none) :
    ∃ file', createTicketBase64 c file r clock .completes =
        .ok ((.noErr, encodeTicket c (newTicket r (lastId tickets))), file') ∧
      Holds c file' (tickets ++ [newTicket r (lastId tickets)]) := by
  obtain ⟨file', hsave, hholds⟩ := h.save_completes hc (newTicket r (lastId tickets))
  exact ⟨file', h.createTicketBase64_eq hcheck hsave, hholds⟩

theorem Holds.accepted (hc : c.Lawful) (h : Holds c file tickets) {r : CreateRequest}
    {clock : CreateClock} {encoded : Bytes} {file' : TicketFile}
    (hcreate : createTicketBase64 c file r clock .completes = .ok ((.noErr, encoded), file')) :
    encoded = encodeTicket c (newTicket r (lastId tickets)) ∧
      Holds c file' (tickets ++ [newTicket r (lastId tickets)]) := by
  obtain ⟨file'', hcreate', hfile''⟩ :=
    h.createTicketBase64_completes hc (checkRequest_of_accepted hcreate)
  rw [hcreate', Except.ok.injEq, Prod.mk.injEq, Prod.mk.injEq] at hcreate
  obtain ⟨⟨-, rfl⟩, rfl⟩ := hcreate
  exact ⟨rfl, hfile''⟩

/-- The text of a stored ticket that a lookup of its id finds is judged by that ticket. -/
theorem Holds.validate_encodeTicket (hc : c.Lawful) (h : Holds c file tickets) {t : Ticket}
    (hlookup : lookupTicket t.ticketId tickets = some t) (now : Int64) :
    validateTicketBase64 c file (encodeTicket c t) now =
      .ok (if isExpired now t then (.expired, refusal "EXPIRED")
        else (.noErr, validated t.ticketId)) := by
  obtain ⟨members, hmembers, hticket⟩ := describesTicket_ticketJson (F := F) t
  rw [validateTicketBase64, parse_encodeTicket hc, hmembers]
  simp only [Json.indexMut, hticket.ticketId, Option.getD_some, Json.getInt64_ofInt64,
    h.findById_eq, hlookup, verdict, Except.ok_bind, Except.pure_eq_ok]

end Holds

end Ticketing.BackOffice
