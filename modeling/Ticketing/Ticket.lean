import Ticketing.Codec

/-!
# Tickets and their JSON form

`struct Ticket`, which `back-office/include/Ticket.hpp` and `gate/include/Ticket.hpp` declare alike,
and the object with four members that stands for a ticket in the ticket file and in the text that a
passenger carries.
-/

namespace Ticketing

structure Ticket where
  ticketId : Int64
  creationDate : Int64
  validityInDays : Int32
  lineNumber : Int32
  deriving DecidableEq

inductive TicketErrorCode where
  | noErr
  | invalidBase64
  | invalidPayload
  | expired
  | notYetValid
  | invalidLine
  | notFound
  | fromFuture
  deriving DecidableEq

variable {F : Type}

/-- The initializer list that `save` and `create_ticket_base64` write for a ticket. -/
def ticketJson (t : Ticket) : Json F :=
  .ofPairs [
    ("ticket_id", .ofInt64 t.ticketId),
    ("creation_date", .ofInt64 t.creationDate),
    ("validity_in_days", .ofInt32 t.validityInDays),
    ("line_number", .ofInt32 t.lineNumber)]

/-- The members are those of the ticket, perhaps among others. -/
structure TicketMembers (members : List (String × Json F)) (t : Ticket) : Prop where
  ticketId : SortedAssoc.find? "ticket_id" members = some (.ofInt64 t.ticketId)
  creationDate : SortedAssoc.find? "creation_date" members = some (.ofInt64 t.creationDate)
  validityInDays : SortedAssoc.find? "validity_in_days" members = some (.ofInt32 t.validityInDays)
  lineNumber : SortedAssoc.find? "line_number" members = some (.ofInt32 t.lineNumber)

/-- A well-formed entry for a ticket. -/
def DescribesTicket (j : Json F) (t : Ticket) : Prop :=
  ∃ members, j = .object members ∧ TicketMembers members t

theorem DescribesTicket.index_ticketId {j : Json F} {t : Ticket} (h : DescribesTicket j t) :
    j.index "ticket_id" = .ok (.ofInt64 t.ticketId) := by
  obtain ⟨members, rfl, hmembers⟩ := h
  exact Json.index_object hmembers.ticketId

theorem ticketJson_canonical (t : Ticket) : (ticketJson t : Json F).Canonical := by
  apply Json.Canonical.ofPairs
  intro p hp
  simp only [List.mem_cons, List.not_mem_nil, or_false] at hp
  rcases hp with rfl | rfl | rfl | rfl <;> exact .numberInteger _

theorem ofList_ticketKeys {Value : Type} (a b c d : Value) :
    SortedAssoc.ofList
        [("ticket_id", a), ("creation_date", b), ("validity_in_days", c), ("line_number", d)] =
      [("creation_date", b), ("line_number", d), ("ticket_id", a), ("validity_in_days", c)] := by
  simp (disch := decide) only [SortedAssoc.ofList, List.foldl_cons, List.foldl_nil,
    SortedAssoc.insert_nil, SortedAssoc.insert_cons_of_lt, SortedAssoc.insert_cons_of_gt]

theorem ticketJson_eq (t : Ticket) :
    (ticketJson t : Json F) = .object [
      ("creation_date", .ofInt64 t.creationDate),
      ("line_number", .ofInt32 t.lineNumber),
      ("ticket_id", .ofInt64 t.ticketId),
      ("validity_in_days", .ofInt32 t.validityInDays)] :=
  congrArg Json.object (ofList_ticketKeys _ _ _ _)

theorem describesTicket_ticketJson (t : Ticket) : DescribesTicket (ticketJson t : Json F) t := by
  refine ⟨_, ticketJson_eq t, ?_, ?_, ?_, ?_⟩ <;>
    simp (disch := decide) only [SortedAssoc.find?_cons_self, SortedAssoc.find?_cons_of_ne]

end Ticketing
