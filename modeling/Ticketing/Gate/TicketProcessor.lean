import Ticketing.Ticket

/-!
# The gate's ticket processor

`gate/src/TicketProcessor.cpp`: parsing a presented ticket, the decision with and without an answer
of the back office, and the record that is kept of every decision. What a call hands to the outside,
the XML report for `/data/<gate id>.xml` and the snapshot for the retry queue, is returned beside
the new state. Lines written to the console are left out.
-/

namespace Ticketing.Gate

variable {F : Type}

inductive ValidationStrategy where
  | online
  | offline
  deriving DecidableEq

inductive ValidationResult where
  | valid
  | invalid
  deriving DecidableEq

structure TicketValidation where
  ticketBase64 : Bytes
  strategy : ValidationStrategy
  result : ValidationResult
  timestamp : Int64
  deriving DecidableEq

structure ValidationStats where
  total : UInt32 := 0
  valid : UInt32 := 0
  invalid : UInt32 := 0
  online : UInt32 := 0
  offline : UInt32 := 0
  deriving DecidableEq

/-- What `IHttpClient::get` returns when there is a response. -/
structure HttpResponse where
  statusCode : Int64
  body : Bytes

/-! ### Parsing -/

/-- `body.contains(key) && body[key].is_number_integer()`, with the integer. -/
def integerMember (body : Json F) (key : String) : Option JsonInteger :=
  if body.contains key then
    match body.index key with
    | .ok (.numberInteger z) => some z
    | _ => none
  else none

theorem integerMember_of_find? {members : List (String × Json F)} {key : String} {z : JsonInteger}
    (h : SortedAssoc.find? key members = some (.numberInteger z)) :
    integerMember (.object members) key = some z := by
  rw [integerMember, Json.index_object h]
  simp only [Json.contains, h, Option.isSome_some, if_true]

theorem find?_of_integerMember {body : Json F} {key : String} {z : JsonInteger}
    (h : integerMember body key = some z) :
    ∃ members, body = .object members ∧
      SortedAssoc.find? key members = some (.numberInteger z) := by
  cases body with
  | object members =>
      refine ⟨members, rfl, ?_⟩
      cases hfind : SortedAssoc.find? key members with
      | none => simp [integerMember, Json.contains, hfind] at h
      | some v => cases v <;> simp_all [integerMember, Json.contains, Json.index]
  | _ => simp [integerMember, Json.contains] at h

/-- The source goes on after a bad member to report the others; the ticket it leaves is not used. -/
def parseTicket (body : Json F) : Option Ticket := do
  let validityInDays ← integerMember body "validity_in_days"
  let lineNumber ← integerMember body "line_number"
  let creationDate ← integerMember body "creation_date"
  let ticketId ← integerMember body "ticket_id"
  some ⟨ticketId.toInt64, creationDate.toInt64, validityInDays.toInt32, lineNumber.toInt32⟩

def parseBase64Ticket (c : Codec F) (body : Bytes) : Option Ticket :=
  (c.parse (c.base64decode body)).bind parseTicket

/-- The product is computed in `int` and the sum in `int64_t`; both wrap, as compiled. -/
def isTicketExpired (now : Int64) (t : Ticket) : Bool :=
  let expiry : Int64 := t.creationDate + (t.validityInDays * 86400).toInt64
  decide (now > expiry)

/-! ### The XML report -/

/-- The argument of `XMLElement::SetText` in its overloads. -/
inductive XmlText where
  | chars (s : Bytes)
  | unsigned (n : UInt32)
  | unsigned64 (n : UInt64)
  deriving DecidableEq

inductive XmlElement where
  | leaf (name : String) (text : XmlText)
  | node (name : String) (children : List XmlElement)

/-- The characters that `c_str()` shows: those before the first NUL. -/
def cStr (s : Bytes) : Bytes := s.takeWhile (· ≠ 0)

def validationElement (v : TicketValidation) : XmlElement :=
  .node "Validation" [
    .leaf "TicketBase64" (.chars (cStr v.ticketBase64)),
    .leaf "Strategy" (.chars (ascii (if v.strategy = .online then "ONLINE" else "OFFLINE"))),
    .leaf "Result" (.chars (ascii (if v.result = .valid then "VALID" else "INVALID"))),
    .leaf "Timestamp" (.unsigned64 v.timestamp.toUInt64)]

def buildXml (gateId : String) (stats : ValidationStats) (lastValidations : List TicketValidation) :
    XmlElement :=
  .node "GateReport" [
    .leaf "GateId" (.chars (cStr gateId.toUTF8.data.toList)),
    .node "Summary" [
      .leaf "TotalValidations" (.unsigned stats.total),
      .leaf "ValidCount" (.unsigned stats.valid),
      .leaf "InvalidCount" (.unsigned stats.invalid),
      .leaf "OnlineCount" (.unsigned stats.online),
      .leaf "OfflineCount" (.unsigned stats.offline)],
    .node "Validations" (lastValidations.map validationElement)]

/-! ### Recording -/

/-- The data members of `TicketProcessor` beside its collaborators and the retry queue. -/
structure TicketProcessor where
  gateId : String
  stats : ValidationStats := {}
  lastValidations : List TicketValidation := []

def ValidationStats.record (stats : ValidationStats) (v : TicketValidation) : ValidationStats :=
  let stats := { stats with total := stats.total + 1 }
  let stats :=
    if v.strategy = .online then { stats with online := stats.online + 1 }
    else { stats with offline := stats.offline + 1 }
  if v.result = .valid then { stats with valid := stats.valid + 1 }
  else { stats with invalid := stats.invalid + 1 }

/-- `record_transaction`: the new state, the report it persists and the snapshot it pushes. -/
def TicketProcessor.recordTransaction (p : TicketProcessor) (v : TicketValidation) :
    TicketProcessor × XmlElement × ValidationStats :=
  let p := { p with stats := p.stats.record v, lastValidations := p.lastValidations ++ [v] }
  (p, buildXml p.gateId p.stats p.lastValidations, p.stats)

/-- The outside of one call of `on_new_ticket`: the answer of the HTTP client, and the clock where
`is_ticket_expired` and where the record read it. -/
structure Surroundings where
  response : Option HttpResponse
  now : Int64
  timestamp : Int64

/-- The validation that `on_new_ticket` records. -/
def validationOf (c : Codec F) (payload : Bytes) (env : Surroundings) : TicketValidation :=
  match parseBase64Ticket c payload with
  | none => ⟨payload, .offline, .invalid, env.timestamp⟩
  | some t =>
      match env.response with
      | none =>
          ⟨payload, .offline, if isTicketExpired env.now t then .invalid else .valid, env.timestamp⟩
      | some response =>
          ⟨payload, .online,
            if response.statusCode ≥ 200 ∧ response.statusCode < 300 then .valid else .invalid,
            env.timestamp⟩

def TicketProcessor.onNewTicket (c : Codec F) (p : TicketProcessor) (payload : Bytes)
    (env : Surroundings) : TicketProcessor × XmlElement × ValidationStats :=
  p.recordTransaction (validationOf c payload env)

theorem TicketProcessor.onNewTicket_lastValidations (c : Codec F) (p : TicketProcessor)
    (payload : Bytes) (env : Surroundings) :
    (p.onNewTicket c payload env).1.lastValidations =
      p.lastValidations ++ [validationOf c payload env] := rfl

end Ticketing.Gate
