import Ticketing.BackOffice.Controller
import Ticketing.BackOffice.Requests
import Ticketing.Gate.TicketProcessor

/-!
# The gate's verdict with and without the back office

A gate that gets no answer judges a ticket by what the ticket says about itself; a gate that gets
one goes by the status of the response, which the back office computes from its own record. For a
ticket that the back office has issued the two come to the same, at every time and after whatever
requests.
-/

namespace Ticketing.Network

open BackOffice Gate

variable {F : Type} {c : Codec F}

/-! ### What the gate reads off an issued ticket -/

theorem parseTicket_of_describes {j : Json F} {t : Ticket} (h : DescribesTicket j t) :
    parseTicket j = some t := by
  obtain ⟨members, rfl, hmembers⟩ := h
  simp only [parseTicket, integerMember_of_find? hmembers.validityInDays,
    integerMember_of_find? hmembers.lineNumber, integerMember_of_find? hmembers.creationDate,
    integerMember_of_find? hmembers.ticketId, bind, Option.bind, JsonInteger.toInt64_ofInt64,
    JsonInteger.toInt32_ofInt32]

theorem parseBase64Ticket_of_carries {encoded : Bytes} {t : Ticket} (h : Carries c encoded t) :
    parseBase64Ticket c encoded = some t := by
  obtain ⟨j, hparse, hdescribes⟩ := h
  rw [parseBase64Ticket, hparse, Option.bind_some, parseTicket_of_describes hdescribes]

theorem isTicketExpired_eq_isExpired (now : Int64) (t : Ticket) :
    isTicketExpired now t = isExpired now t := rfl

/-! ### The two paths -/

/-- What the HTTP client of the gate returns when the response reaches it. -/
def delivered (response : Response) : HttpResponse := ⟨response.code.toInt64, response.body⟩

theorem validationStatus_success_iff (err : TicketErrorCode) :
    ((validationStatus err).toInt64 ≥ 200 ∧ (validationStatus err).toInt64 < 300) ↔
      err = .noErr := by
  cases err <;> decide

theorem validationOf_online {encoded : Bytes} {t : Ticket} (h : Carries c encoded t)
    (err : TicketErrorCode) (body : Bytes) (now timestamp : Int64) :
    validationOf c encoded ⟨some (delivered ⟨validationStatus err, body⟩), now, timestamp⟩ =
      ⟨encoded, .online, if err = .noErr then .valid else .invalid, timestamp⟩ := by
  rw [validationOf, parseBase64Ticket_of_carries h]
  simp only [delivered, validationStatus_success_iff]

theorem validationOf_offline {encoded : Bytes} {t : Ticket} (h : Carries c encoded t)
    (now timestamp : Int64) :
    validationOf c encoded ⟨none, now, timestamp⟩ =
      ⟨encoded, .offline, if isTicketExpired now t then .invalid else .valid, timestamp⟩ := by
  rw [validationOf, parseBase64Ticket_of_carries h]

/-- For an issued ticket the gate records the same with the answer of the back office and without
any, but for the strategy. -/
theorem verdicts_agree [Double F] (hc : c.Lawful) {file : TicketFile} {tickets : List Ticket}
    (hfile : Holds c file tickets) (hroom : Room 1 tickets) {r : CreateRequest}
    {clock : CreateClock} {encoded : Bytes} {file' : TicketFile}
    (hcreate : createTicketBase64 c file r clock .completes = .ok ((.noErr, encoded), file'))
    (later : List Request) (now timestamp : Int64) (p : TicketProcessor) :
    ∃ (response : Response) (v : TicketValidation),
      validateTicket c (serveAll c file' later) encoded now = .ok response ∧
      (p.onNewTicket c encoded ⟨none, now, timestamp⟩).1.lastValidations =
        p.lastValidations ++ [{ v with strategy := .offline }] ∧
      (p.onNewTicket c encoded ⟨some (delivered response), now, timestamp⟩).1.lastValidations =
        p.lastValidations ++ [{ v with strategy := .online }] := by
  obtain ⟨rfl, hholds, hlookup⟩ := hfile.issued hc hroom hcreate
  have hcarries : Carries c _ (newTicket r (lastId tickets)) :=
    (carries_encodeTicket_iff hc).mpr rfl
  have hresolves := (resolvable_of_lookup hc hholds
    (t := newTicket r (lastId tickets)) hlookup).resolves later now
  refine ⟨_, validationOf c (encodeTicket c (newTicket r (lastId tickets))) ⟨none, now, timestamp⟩,
    validateTicket_of_ok hresolves, ?_, ?_⟩
  · rw [TicketProcessor.onNewTicket_lastValidations, validationOf_offline hcarries]
  · rw [TicketProcessor.onNewTicket_lastValidations, validationOf_online hcarries,
      validationOf_offline hcarries, isTicketExpired_eq_isExpired]
    cases isExpired now (newTicket r (lastId tickets)) <;> rfl

/-- The first ticket of a new back office, a day later. -/
theorem verdicts_agree_first_ticket :
    ∃ (encoded : Bytes) (response : Response) (v : TicketValidation) (file' : TicketFile),
      createTicketBase64 referenceCodec none ⟨1, 5, 1000⟩ ⟨1000, 1001⟩ .completes =
        .ok ((.noErr, encoded), file') ∧
      validateTicket referenceCodec
        (serveAll referenceCodec file' [.create ⟨2, 6, 1500⟩ ⟨1500, 1500⟩]) encoded 87400 =
        .ok response ∧
      (TicketProcessor.onNewTicket referenceCodec ⟨"gate1", {}, []⟩ encoded
        ⟨some (delivered response), 87400, 87401⟩).1.lastValidations =
          [{ v with strategy := .online }] := by
  have hnew := holds_none referenceCodec
  have hcheck : checkRequest ⟨1, 5, 1000⟩ ⟨1000, 1001⟩ = none := rfl
  have hroom : Room 1 [] := room_nil (by decide)
  obtain ⟨file', hcreate, -⟩ := hnew.createTicketBase64_completes referenceCodec_lawful hcheck
  obtain ⟨response, v, hvalidate, -, honline⟩ := verdicts_agree referenceCodec_lawful hnew hroom
    hcreate [.create ⟨2, 6, 1500⟩ ⟨1500, 1500⟩] 87400 87401 ⟨"gate1", {}, []⟩
  exact ⟨_, response, v, file', hcreate, hvalidate, honline⟩

end Ticketing.Network
