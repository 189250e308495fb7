import Ticketing.BackOffice.Service

/-!
# The tickets controller

`back-office/src/TicketsController.cpp`: the two routes for tickets, from the body of a request to
the status and the body of the response. An exception is left to the web server.
-/

namespace Ticketing.BackOffice

variable {F : Type} [Double F]

/-- `crow::response` -/
structure Response where
  code : Int32
  body : Bytes

def createTicket (c : Codec F) (file : TicketFile) (body : Bytes) (clock : CreateClock)
    (write : Write) : Except JsonError (Response × TicketFile) :=
  match c.parse body with
  | none => return (⟨400, ascii "Invalid JSON"⟩, file)
  | some j => do
      let validityInDays ← (← j.indexMut "validity_in_days").getInt32
      let lineNumber ← (← j.indexMut "line_number").getInt32
      let requestDate ← (← j.indexMut "request_date").getInt64
      let ((err, result), file) ←
        createTicketBase64 c file ⟨validityInDays, lineNumber, requestDate⟩ clock write
      return (if err ≠ .noErr then ⟨400, result⟩ else ⟨201, result⟩, file)

def validationStatus (err : TicketErrorCode) : Int32 :=
  if err ≠ .noErr then
    if err = .notFound then 404
    else if err = .expired then 410
    else 400
  else 200

/-- Whatever the status, the body is the value that the service returns. -/
def validateTicket (c : Codec F) (file : TicketFile) (body : Bytes) (now : Int64) :
    Except JsonError Response := do
  let (err, result) ← validateTicketBase64 c file body now
  return ⟨validationStatus err, c.dump result⟩

theorem validateTicket_of_ok {c : Codec F} {file : TicketFile} {body : Bytes} {now : Int64}
    {answer : TicketErrorCode × Json F} (h : validateTicketBase64 c file body now = .ok answer) :
    validateTicket c file body now = .ok ⟨validationStatus answer.1, c.dump answer.2⟩ := by
  rw [validateTicket, h]
  rfl

end Ticketing.BackOffice
