import Ticketing.Gate.TicketProcessor

/-!
# The vending machine's ticket processor

`ticket-vending-machine/src/TicketProcessor.cpp`: a request that arrives over MQTT is looked at and
passed on to the back office as it came. What the back office answers is only written to the
console, and so are complaints about the request.
-/

namespace Ticketing.VendingMachine

open Gate

variable {F : Type}

structure TicketRequest where
  validityInDays : Int32
  lineNumber : Int32
  requestDate : Int64
  deriving DecidableEq

/-- A discarded value, which contains no member, is `none`. The tests of the members are written as
in the gate. -/
def parseTicket (body : Option (Json F)) : Option TicketRequest := do
  let body ← body
  let validityInDays ← integerMember body "validity_in_days"
  let lineNumber ← integerMember body "line_number"
  let requestDate ← integerMember body "request_date"
  some ⟨validityInDays.toInt32, lineNumber.toInt32, requestDate.toInt64⟩

/-- The body that is posted to `/api/v1/tickets`, if any. A payload that is not JSON is reported and
handed to `parse_ticket` all the same. -/
def onNewTicket (c : Codec F) (payload : Bytes) : Option Bytes :=
  (parseTicket (c.parse payload)).map fun _ => payload

theorem parseTicket_eq_some {body : Option (Json F)} {t : TicketRequest}
    (h : parseTicket body = some t) :
    ∃ members validityInDays lineNumber requestDate, body = some (.object members) ∧
      SortedAssoc.find? "validity_in_days" members = some (.numberInteger validityInDays) ∧
      SortedAssoc.find? "line_number" members = some (.numberInteger lineNumber) ∧
      SortedAssoc.find? "request_date" members = some (.numberInteger requestDate) ∧
      t = ⟨validityInDays.toInt32, lineNumber.toInt32, requestDate.toInt64⟩ := by
  simp only [parseTicket, bind, Option.bind_eq_some_iff] at h
  obtain ⟨j, rfl, zv, hvalidity, zl, hline, zd, hdate, ht⟩ := h
  obtain ⟨members, rfl, hfindValidity⟩ := find?_of_integerMember hvalidity
  obtain ⟨_, ⟨⟩, hfindLine⟩ := find?_of_integerMember hline
  obtain ⟨_, ⟨⟩, hfindDate⟩ := find?_of_integerMember hdate
  exact ⟨members, zv, zl, zd, rfl, hfindValidity, hfindLine, hfindDate,
    (Option.some.inj ht).symm⟩

end Ticketing.VendingMachine
