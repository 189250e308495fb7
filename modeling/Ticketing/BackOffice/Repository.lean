import Ticketing.Ticket

/-!
# The ticket repository

`back-office/src/JsonTicketsRepository.cpp`: the tickets are kept in one JSON file, which every
operation reads as a whole and `save` writes as a whole. The file is explicit state. Exceptions and
failed assertions are errors; an operation that ends in one has not touched the file. Every
operation holds the repository's mutex from its beginning to its end and is one step.
-/

namespace Ticketing.BackOffice

variable {F : Type}

/-- The contents of the ticket file, `none` where there is no file to open. -/
abbrev TicketFile := Option Bytes

/-- What the file system does with a write of the whole file. A stream that fails reports nothing
that `persist` looks at, so that a full disk and a crash look alike here. -/
inductive Write where
  | openFails
  /-- The file is truncated, and of the new text no more than `written` bytes arrive, never all. -/
  | stopsShort (written : Nat)
  | completes
  deriving DecidableEq

def load (c : Codec F) (file : TicketFile) : Except JsonError (Json F) :=
  match file with
  | none => .ok (.ofPairs [("tickets", .array [])])
  | some text =>
      match c.extract text with
      -- `>>` throws here; the branch for a discarded value, which it never leaves, is not reached
      | none => .error .parseError
      | some j => .ok j

def persist (c : Codec F) (file : TicketFile) (data : Json F) : Write → TicketFile
  | .openFails => file
  | .stopsShort written => some ((c.dump4 data).dropLast.take written)
  | .completes => some (c.dump4 data)

def save (c : Codec F) (file : TicketFile) (ticket : Ticket) (write : Write) :
    Except JsonError TicketFile := do
  let data ← load c file
  let tickets ← data.indexMut "tickets"
  let tickets ← tickets.pushBack (ticketJson ticket)
  return persist c file (data.assign "tickets" tickets) write

variable [Double F]

/-- `Ticket{t["ticket_id"], t["creation_date"], t["validity_in_days"], t["line_number"]}` -/
def readTicket (t : Json F) : Except JsonError Ticket := do
  let ticketId ← (← t.index "ticket_id").getInt64
  let creationDate ← (← t.index "creation_date").getInt64
  let validityInDays ← (← t.index "validity_in_days").getInt32
  let lineNumber ← (← t.index "line_number").getInt32
  return ⟨ticketId, creationDate, validityInDays, lineNumber⟩

def findIn (id : Int64) : List (Json F) → Except JsonError (Option Ticket)
  | [] => .ok none
  | t :: ts => do
      if (← t.index "ticket_id").eqInt64 id then return some (← readTicket t)
      else findIn id ts

def findById (c : Codec F) (file : TicketFile) (id : Int64) : Except JsonError (Option Ticket) := do
  let tickets ← (← load c file).indexMut "tickets"
  findIn id tickets.elements

def findAll (c : Codec F) (file : TicketFile) : Except JsonError (List Ticket) := do
  let tickets ← (← load c file).indexMut "tickets"
  tickets.elements.mapM readTicket

def getLastTicketId (c : Codec F) (file : TicketFile) : Except JsonError Int64 := do
  let tickets ← (← load c file).indexMut "tickets"
  tickets.elements.foldlM (fun maxId t => return max maxId (← (← t.index "ticket_id").getInt64)) 0

end Ticketing.BackOffice
