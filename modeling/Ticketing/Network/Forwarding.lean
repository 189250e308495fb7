import Ticketing.BackOffice.Payloads
import Ticketing.BackOffice.RequestBodies
import Ticketing.Network.Agreement
import Ticketing.VendingMachine.TicketProcessor

/-!
# What the front ends forward

The gate and the vending machine look at a payload before they send it to the back office, each with
a parser of its own. The back office parses it again with less care. What passes a front end has
integers wherever the back office converts, so that none of the conversions there can fail.
-/

namespace Ticketing.Network

open BackOffice Gate

variable {F : Type} {c : Codec F}

/-! ### What the filters let through -/

theorem claimedId_of_parseBase64Ticket [Double F] {payload : Bytes} {t : Ticket}
    (h : parseBase64Ticket c payload = some t) : claimedId c payload = some t.ticketId := by
  simp only [parseBase64Ticket, parseTicket, bind, Option.bind_eq_some_iff] at h
  obtain ⟨j, hparse, zv, -, zl, -, zd, -, zi, hid, ht⟩ := h
  obtain ⟨members, rfl, hfind⟩ := find?_of_integerMember hid
  refine claimedId_eq_some_iff.mpr ⟨_, _, hparse, rfl, ?_⟩
  rw [hfind, ← Option.some.inj ht, Option.getD_some, Json.getInt64]

theorem asksFor_of_parseTicket {payload : Bytes} {t : VendingMachine.TicketRequest}
    (h : VendingMachine.parseTicket (c.parse payload) = some t) :
    ∃ validityInDays lineNumber requestDate,
      AsksFor c payload validityInDays lineNumber requestDate ∧
      narrowed validityInDays lineNumber requestDate =
        ⟨t.validityInDays, t.lineNumber, t.requestDate⟩ := by
  obtain ⟨members, zv, zl, zd, hparse, hvalidity, hline, hdate, rfl⟩ :=
    VendingMachine.parseTicket_eq_some h
  exact ⟨zv, zl, zd, ⟨members, hparse, hvalidity, hline, hdate⟩, rfl⟩

/-! ### How they are answered -/

variable [Double F] {file : TicketFile} {tickets : List Ticket}

theorem validateTicket_of_claimedId (hfile : Holds c file tickets) {payload : Bytes} {id : Int64}
    (h : claimedId c payload = some id) (now : Int64) :
    ∃ response, validateTicket c file payload now = .ok response ∧
      (response.code = 200 ∨ response.code = 404 ∨ response.code = 410) := by
  refine ⟨_, validateTicket_of_ok (hfile.validate_of_claimedId h now), ?_⟩
  have hcode := verdict_code_mem (F := F) now id (lookupTicket id tickets)
  simp only [List.mem_cons, List.not_mem_nil, or_false] at hcode
  rcases hcode with hcode | hcode | hcode
  · rw [hcode]
    exact Or.inr (Or.inl rfl)
  · rw [hcode]
    exact Or.inr (Or.inr rfl)
  · rw [hcode]
    exact Or.inl rfl

/-- The answer to a request for a ticket that the back office has read: a ticket, or the reason why
its dates speak against one. -/
def Answers (response : Response) (r : CreateRequest) (clock : CreateClock) : Prop :=
  response.code = 201 ∨
    (response.code = 400 ∧ response.body ≠ ascii "Invalid JSON" ∧
      ∃ refused, checkRequest r clock = some refused ∧
        (refused.1 = .expired ∨ refused.1 = .fromFuture) ∧ response.body = refused.2)

theorem createTicket_answers (hfile : Holds c file tickets) {payload : Bytes}
    {validityInDays lineNumber requestDate : JsonInteger}
    (h : AsksFor c payload validityInDays lineNumber requestDate) (clock : CreateClock)
    (write : Write) :
    ∃ response file', createTicket c file payload clock write = .ok (response, file') ∧
      Answers response (narrowed validityInDays lineNumber requestDate) clock := by
  rcases createTicket_of_asksFor hfile h clock write with
    ⟨refused, hcheck, hcreate⟩ | ⟨encoded, file', hcreate⟩
  · refine ⟨_, file, hcreate, Or.inr ⟨rfl, ?_, refused, hcheck, ?_, rfl⟩⟩
    · rcases checkRequest_eq_some hcheck with rfl | rfl <;> decide
    · rcases checkRequest_eq_some hcheck with rfl | rfl
      · exact Or.inl rfl
      · exact Or.inr rfl
  · exact ⟨_, file', hcreate, Or.inl rfl⟩

/-- Whatever a front end forwards, the back office answers as it answers a ticket or a request for
one; and no front end forwards what is not JSON. -/
theorem forwarded_payloads_answered (hfile : Holds c file tickets) (payload : Bytes) :
    (∀ t now, parseBase64Ticket c payload = some t →
      ∃ response, validateTicket c file payload now = .ok response ∧
        (response.code = 200 ∨ response.code = 404 ∨ response.code = 410)) ∧
    (∀ t clock, VendingMachine.parseTicket (c.parse payload) = some t →
      VendingMachine.onNewTicket c payload = some payload ∧
      ∃ response file', createTicket c file payload clock .completes = .ok (response, file') ∧
        Answers response ⟨t.validityInDays, t.lineNumber, t.requestDate⟩ clock) ∧
    (c.parse (c.base64decode payload) = none → parseBase64Ticket c payload = none) ∧
    (c.parse payload = none → VendingMachine.onNewTicket c payload = none) := by
  refine ⟨fun t now hticket => ?_, fun t clock hrequest => ⟨?_, ?_⟩, fun hparse => ?_,
    fun hparse => ?_⟩
  · exact validateTicket_of_claimedId hfile (claimedId_of_parseBase64Ticket hticket) now
  · rw [VendingMachine.onNewTicket, hrequest, Option.map_some]
  · obtain ⟨zv, zl, zd, hasks, hnarrowed⟩ := asksFor_of_parseTicket hrequest
    rw [← hnarrowed]
    exact createTicket_answers hfile hasks clock .completes
  · rw [parseBase64Ticket, hparse, Option.bind_none]
  · rw [VendingMachine.onNewTicket, hparse]
    rfl

theorem forwarded_payloads_answered_new :
    (∃ response, validateTicket referenceCodec none (encodeTicket referenceCodec ⟨7, 1000, 1, 5⟩)
      2000 = .ok response ∧
      (response.code = 200 ∨ response.code = 404 ∨ response.code = 410)) ∧
    ∃ response file', createTicket referenceCodec none
        (referenceCodec.dump (requestJson (.ofInt32 1) (.ofInt32 5) (.ofInt64 1000))) ⟨1000, 1001⟩
        .completes = .ok (response, file') ∧
      Answers response ⟨1, 5, 1000⟩ ⟨1000, 1001⟩ := by
  have hnew := holds_none referenceCodec
  obtain ⟨hgate, -⟩ := forwarded_payloads_answered hnew
    (encodeTicket referenceCodec ⟨7, 1000, 1, 5⟩)
  obtain ⟨-, hmachine, -⟩ := forwarded_payloads_answered hnew
    (referenceCodec.dump (requestJson (.ofInt32 1) (.ofInt32 5) (.ofInt64 1000)))
  have hcarries := (carries_encodeTicket_iff referenceCodec_lawful).mpr
    (rfl : (⟨7, 1000, 1, 5⟩ : Ticket) = ⟨7, 1000, 1, 5⟩)
  obtain ⟨members, hparse, hvalidity, hline, hdate⟩ := asksFor_requestJson referenceCodec_lawful
    (.ofInt32 1) (.ofInt32 5) (.ofInt64 1000)
  have hrequest : VendingMachine.parseTicket (referenceCodec.parse (referenceCodec.dump
      (requestJson (.ofInt32 1) (.ofInt32 5) (.ofInt64 1000)))) = some ⟨1, 5, 1000⟩ := by
    rw [hparse]
    simp only [VendingMachine.parseTicket, integerMember_of_find? hvalidity,
      integerMember_of_find? hline, integerMember_of_find? hdate, bind, Option.bind]
    rfl
  exact ⟨hgate _ 2000 (parseBase64Ticket_of_carries hcarries), (hmachine _ _ hrequest).2⟩

end Ticketing.Network
