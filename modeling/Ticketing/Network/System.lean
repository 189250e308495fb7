import Ticketing.BackOffice.Server
import Ticketing.Gate.Accounting
import Ticketing.Network.Forwarding

/-!
# From the vending machine to the gates

The front ends and the back office together. A message that the vending machine consumes may lead
to a request for a ticket, and one that a gate consumes to a request for its validation. Either call
may be lost on the way to the back office or on the way back. What the gates then record depends on
the back office as on a list of tickets only. So a ticket that has been sold is judged by its expiry
at every gate, with an answer or without; and a gate that has an answer admits nobody whose ticket
has not been sold.

The web server is not part of the sources. What it answers where a handler throws is a parameter.
-/

namespace Ticketing.Network

open Refinement BackOffice Gate

variable {F : Type} {Server GateName : Type*} [DecidableEq GateName]

/-! ### Messages -/

/-- What `MqttTicketReceiver::init` subscribes to. -/
def validateTopic (gateId : String) : String := "/transport/gate/" ++ gateId ++ "/event/validate"

/-- What `TicketProcessor::init` of the vending machine subscribes to. -/
def createTopic : String := "/transport/tvm/" ++ "1" ++ "/event/create"

structure Message where
  topic : String
  payload : Bytes

/-! ### The system -/

/-- How far a call over HTTP gets. One that arrives after the client has given it up is lost for the
client, and a request of its own for the back office. -/
inductive Exchange where
  | requestLost
  | responseLost
  | answered
  deriving DecidableEq

/-- The clocks that matter to a validation: that of the back office, and that of the gate where it
looks at the expiry and where it records. -/
structure Readings where
  server : Int64
  gate : Int64
  record : Int64

/-- What arrives at one of the programs. -/
inductive Arrival (GateName : Type*) where
  | atGate (g : GateName) (message : Message) (readings : Readings) (exchange : Exchange)
  | atMachine (message : Message) (clock : CreateClock) (write : Write) (exchange : Exchange)
  /-- a request that comes from elsewhere -/
  | atBackOffice (q : HttpRequest)

/-- What becomes of it: a gate records a validation, or the back office answers a request that is
not from a gate. -/
inductive Outcome (GateName : Type*) where
  | nothing
  | recorded (g : GateName) (v : TicketValidation)
  | answered (answer : Except JsonError Response)

structure System (Server GateName : Type*) where
  server : Server
  gates : GateName → TicketProcessor

section Definitions

variable (c : Codec F) (fault : JsonError → Response)
  (server : Server → HttpRequest → Server × Except JsonError Response)

def Exchange.call (s : Server) (q : HttpRequest) : Exchange → Server × Option HttpResponse
  | .requestLost => (s, none)
  | .responseLost => ((server s q).1, none)
  | .answered =>
      match server s q with
      | (s, .ok response) => (s, some (delivered response))
      | (s, .error e) => (s, some (delivered (fault e)))

def validationCall (s : Server) (payload : Bytes) (now : Int64) (exchange : Exchange) :
    Server × Option HttpResponse :=
  match parseBase64Ticket c payload with
  | none => (s, none)
  | some _ => exchange.call fault server s (.validateTicket payload now)

/-- A callback is called for the topic of its subscription only. -/
def process (s : System Server GateName) :
    Arrival GateName → System Server GateName × Outcome GateName
  | .atGate g message readings exchange =>
      if message.topic = validateTopic (s.gates g).gateId then
        let (next, response) :=
          validationCall c fault server s.server message.payload readings.server exchange
        let env := ⟨response, readings.gate, readings.record⟩
        let (p, _) := (s.gates g).onNewTicket c message.payload env
        (⟨next, Function.update s.gates g p⟩, .recorded g (validationOf c message.payload env))
      else (s, .nothing)
  | .atMachine message clock write exchange =>
      if message.topic = createTopic then
        match VendingMachine.onNewTicket c message.payload with
        | none => (s, .nothing)
        | some body =>
            if exchange = .requestLost then (s, .nothing)
            else
              -- the vending machine has no use for the response
              let (next, answer) := server s.server (.createTicket body clock write)
              ({ s with server := next }, .answered answer)
      else (s, .nothing)
  | .atBackOffice q =>
      let (next, answer) := server s.server q
      ({ s with server := next }, .answered answer)

end Definitions

/-! ### The back office as a list of tickets -/

section Simulation

variable {Server' : Type*} {c : Codec F} {fault : JsonError → Response}
  {server : Server → HttpRequest → Server × Except JsonError Response}
  {server' : Server' → HttpRequest → Server' × Except JsonError Response}
  {related : Server → Server' → Prop}

theorem Exchange.call_simulates (h : Simulates related id server server') {s : Server}
    {s' : Server'} (hrelated : related s s') (q : HttpRequest) (exchange : Exchange) :
    related (exchange.call fault server s q).1 (exchange.call fault server' s' q).1 ∧
      (exchange.call fault server s q).2 = (exchange.call fault server' s' q).2 := by
  obtain ⟨hnext, hanswer⟩ := h s s' q hrelated
  cases exchange with
  | requestLost => exact ⟨hrelated, rfl⟩
  | responseLost => exact ⟨hnext, rfl⟩
  | answered =>
      rcases hserver : server s q with ⟨next, answer⟩
      rcases hserver' : server' s' q with ⟨next', answer'⟩
      rw [hserver, hserver'] at hnext hanswer
      obtain rfl : answer = answer' := hanswer
      simp only [Exchange.call, hserver, hserver']
      cases answer <;> exact ⟨hnext, rfl⟩

theorem validationCall_simulates (h : Simulates related id server server') {s : Server}
    {s' : Server'} (hrelated : related s s') (payload : Bytes) (now : Int64)
    (exchange : Exchange) :
    related (validationCall c fault server s payload now exchange).1
        (validationCall c fault server' s' payload now exchange).1 ∧
      (validationCall c fault server s payload now exchange).2 =
        (validationCall c fault server' s' payload now exchange).2 := by
  rw [validationCall, validationCall]
  split
  · exact ⟨hrelated, rfl⟩
  · exact Exchange.call_simulates h hrelated _ exchange

/-- A server that does and answers what another one does can take its place. -/
theorem process_simulates (h : Simulates related id server server') :
    Simulates
      (fun (s : System Server GateName) (s' : System Server' GateName) =>
        related s.server s'.server ∧ s.gates = s'.gates)
      id (process c fault server) (process c fault server') := by
  rintro ⟨s, gates⟩ ⟨s', gates'⟩ arrival ⟨hrelated, hgates⟩
  obtain rfl : gates = gates' := hgates
  cases arrival with
  | atGate g message readings exchange =>
      obtain ⟨hnext, hresponse⟩ := validationCall_simulates h hrelated
        message.payload readings.server exchange
      simp only [process]
      split
      · rw [hresponse]
        exact ⟨⟨hnext, rfl⟩, rfl⟩
      · exact ⟨⟨hrelated, rfl⟩, rfl⟩
  | atMachine message clock write exchange =>
      simp only [process]
      split
      · split
        · exact ⟨⟨hrelated, rfl⟩, rfl⟩
        · rename_i body hbody
          obtain ⟨hnext, hanswer⟩ := h s s' (.createTicket body clock write) hrelated
          split
          · exact ⟨⟨hrelated, rfl⟩, rfl⟩
          · exact ⟨⟨hnext, rfl⟩, congrArg Outcome.answered hanswer⟩
      · exact ⟨⟨hrelated, rfl⟩, rfl⟩
  | atBackOffice q =>
      obtain ⟨hnext, hanswer⟩ := h s s' q hrelated
      exact ⟨⟨hnext, rfl⟩, congrArg Outcome.answered hanswer⟩

end Simulation

/-! ### What an arrival does to the tickets -/

def Arrival.write? : Arrival GateName → Option Write
  | .atMachine _ _ write _ => some write
  | .atBackOffice (.createTicket _ _ write) => some write
  | _ => none

/-- No write stops short, and so the tickets are not lost. -/
def KeepsTickets (arrivals : List (Arrival GateName)) : Prop :=
  ∀ arrival ∈ arrivals, ∀ written, arrival.write? ≠ some (.stopsShort written)

section Store

variable [Double F] {c : Codec F} {fault : JsonError → Response}

theorem handleStore_validateTicket (store : Store) (payload : Bytes) (now : Int64) :
    (handleStore c store (.validateTicket payload now)).1 = store := by
  rw [handleStore]
  split
  · rfl
  · split <;> rfl

theorem validationCall_store (store : Store) (payload : Bytes) (now : Int64) (exchange : Exchange) :
    (validationCall c fault (handleStore c) store payload now exchange).1 = store := by
  have hsame := handleStore_validateTicket (c := c) store payload now
  rw [validationCall]
  split
  · rfl
  · cases exchange with
    | requestLost => rfl
    | responseLost => exact hsame
    | answered =>
        rw [Exchange.call]
        split
        · rename_i hhandle
          rw [hhandle] at hsame
          exact hsame
        · rename_i hhandle
          rw [hhandle] at hsame
          exact hsame

variable {s : System Store GateName}

variable (c fault) in
/-- The tickets change only where the back office answers with the text of a new one. -/
theorem process_cases (arrival : Arrival GateName) :
    (process c fault (handleStore c) s arrival).1.server = s.server ∨
      ∃ r tickets write, arrival.write? = some write ∧ s.server = some tickets ∧
        (process c fault (handleStore c) s arrival).1.server =
          Store.save tickets (newTicket r (lastId tickets)) write ∧
        (process c fault (handleStore c) s arrival).2 =
          .answered (.ok ⟨201, encodeTicket c (newTicket r (lastId tickets))⟩) := by
  cases arrival with
  | atGate g message readings exchange =>
      left
      simp only [process]
      split
      · exact validationCall_store _ _ _ _
      · rfl
  | atMachine message clock write exchange =>
      simp only [process]
      split
      · split
        · exact Or.inl rfl
        · rename_i body hbody
          split
          · exact Or.inl rfl
          · rcases handleStore_cases c s.server (.createTicket body clock write) with
              ⟨hsame, -⟩ | ⟨_, _, _, _, r, tickets, ⟨⟩, -, -, hstore, hsaved⟩
            · exact Or.inl hsame
            · rw [hsaved]
              exact Or.inr ⟨r, tickets, write, rfl, hstore, rfl, rfl⟩
      · exact Or.inl rfl
  | atBackOffice q =>
      simp only [process]
      rcases handleStore_cases c s.server q with
        ⟨hsame, -⟩ | ⟨_, _, write, _, r, tickets, rfl, -, -, hstore, hsaved⟩
      · exact Or.inl hsame
      · rw [hsaved]
        exact Or.inr ⟨r, tickets, write, rfl, hstore, rfl, rfl⟩

theorem process_gateId {ids : GateName → String} (hids : ∀ g, (s.gates g).gateId = ids g)
    (arrival : Arrival GateName) (g : GateName) :
    ((process c fault (handleStore c) s arrival).1.gates g).gateId = ids g := by
  cases arrival with
  | atGate g' message readings exchange =>
      simp only [process]
      split
      · revert g
        exact (Function.forall_update_iff s.gates fun g p => p.gateId = ids g).mpr
          ⟨hids g', fun g _ => hids g⟩
      · exact hids g
  | atMachine message clock write exchange =>
      simp only [process]
      split
      · split
        · exact hids g
        · split <;> exact hids g
      · exact hids g
  | atBackOffice q => exact hids g

variable (c fault) in
theorem tickets_grow_step {arrival : Arrival GateName}
    (hwrite : ∀ written, arrival.write? ≠ some (.stopsShort written)) {tickets : List Ticket}
    (hserver : s.server = some tickets) :
    ∃ more, (process c fault (handleStore c) s arrival).1.server = some (tickets ++ more) ∧
      ∀ n, Room (n + 1) tickets → Room n (tickets ++ more) := by
  have hnone (h : (process c fault (handleStore c) s arrival).1.server = some tickets) :
      ∃ more, (process c fault (handleStore c) s arrival).1.server = some (tickets ++ more) ∧
        ∀ n, Room (n + 1) tickets → Room n (tickets ++ more) := by
    refine ⟨[], ?_, fun n hroom => ?_⟩
    · rw [h, List.append_nil]
    · rw [List.append_nil]
      exact hroom.of_le (Nat.le_add_right n 1)
  rcases process_cases c fault (s := s) arrival with
    hsame | ⟨r, found, write, hwritten, hfound, hsaved, -⟩
  · exact hnone (hsame.trans hserver)
  · obtain rfl := Option.some.inj (hserver.symm.trans hfound)
    cases write with
    | openFails => exact hnone hsaved
    | stopsShort written => exact absurd hwritten (hwrite written)
    | completes =>
        exact ⟨[newTicket r (lastId tickets)], hsaved, fun n hroom => hroom.concat rfl⟩

variable (c fault) in
theorem tickets_grow {arrivals : List (Arrival GateName)} (hkeeps : KeepsTickets arrivals)
    {tickets : List Ticket} (hserver : s.server = some tickets) :
    ∃ more, (final (process c fault (handleStore c)) s arrivals).server =
        some (tickets ++ more) ∧
      ∀ n, Room (n + arrivals.length) tickets → Room n (tickets ++ more) := by
  induction arrivals generalizing s tickets with
  | nil =>
      refine ⟨[], ?_, fun n hroom => ?_⟩
      · rw [List.append_nil]
        exact hserver
      · rw [List.append_nil]
        exact hroom
  | cons arrival arrivals ih =>
      obtain ⟨hwrite, hrest⟩ := List.forall_mem_cons.mp hkeeps
      obtain ⟨first, hfirst, hroomFirst⟩ := tickets_grow_step c fault hwrite hserver
      obtain ⟨rest, hfinal, hroomRest⟩ := ih hrest hfirst
      refine ⟨first ++ rest, ?_, fun n hroom => ?_⟩
      · rw [final_cons, hfinal, List.append_assoc]
      · rw [← List.append_assoc]
        apply hroomRest n
        apply hroomFirst
        rwa [List.length_cons] at hroom

end Store

/-! ### A sold ticket at the gates -/

def Outcome.resultOn? (encoded : Bytes) : Outcome GateName → Option ValidationResult
  | .recorded _ v => if v.ticketBase64 = encoded then some v.result else none
  | _ => none

def Arrival.readingOn? (ids : GateName → String) (encoded : Bytes) : Arrival GateName → Option Int64
  | .atGate g message readings exchange =>
      if message.topic = validateTopic (ids g) ∧ message.payload = encoded then
        some (if exchange = .answered then readings.server else readings.gate)
      else none
  | _ => none

def verdictAt (t : Ticket) (now : Int64) : ValidationResult :=
  if isExpired now t then .invalid else .valid

section Sold

variable [Double F] {c : Codec F} {fault : JsonError → Response} {s : System Store GateName}
  {ids : GateName → String}

theorem verdictAt_mono {t : Ticket} {now now' : Int64} (hle : now ≤ now')
    (h : verdictAt t now = .invalid) : verdictAt t now' = .invalid := by
  rw [verdictAt] at h ⊢
  split at h
  · rename_i hexpired
    rw [if_pos (isExpired_mono hle hexpired)]
  · cases h

theorem handleStore_of_claimedId {payload : Bytes} {id : Int64}
    (hid : claimedId c payload = some id) (store : Store) (now : Int64) :
    handleStore c store (.validateTicket payload now) = (store, store.validateTicket c id now) := by
  obtain ⟨j, member, hparse, hindex, hget⟩ := claimedId_eq_some_iff.mp hid
  simp only [handleStore, hparse, hindex, hget, Except.ok_bind]

theorem validationOf_stored (hc : c.Lawful) {tickets : List Ticket} {t : Ticket}
    (hlookup : lookupTicket t.ticketId tickets = some t) (server now timestamp : Int64)
    (exchange : Exchange) :
    (validationOf c (encodeTicket c t) ⟨(validationCall c fault (handleStore c) (some tickets)
        (encodeTicket c t) server exchange).2, now, timestamp⟩).result =
      verdictAt t (if exchange = .answered then server else now) := by
  have hcarries : Carries c (encodeTicket c t) t := (carries_encodeTicket_iff hc).mpr rfl
  rw [validationCall, parseBase64Ticket_of_carries hcarries]
  cases exchange with
  | requestLost => exact congrArg _ (validationOf_offline hcarries now timestamp)
  | responseLost => exact congrArg _ (validationOf_offline hcarries now timestamp)
  | answered =>
      rw [Exchange.call, handleStore_of_claimedId (claimedId_of_carries hcarries), if_pos rfl]
      simp only [Store.validateTicket, hlookup, validationOf_online hcarries]
      rw [verdict, verdictAt]
      cases isExpired server t <;> rfl

variable (fault) in
theorem process_stored (hc : c.Lawful) (hids : ∀ g, (s.gates g).gateId = ids g)
    {tickets : List Ticket} (hserver : s.server = some tickets) {t : Ticket}
    (hlookup : lookupTicket t.ticketId tickets = some t) (arrival : Arrival GateName) :
    (process c fault (handleStore c) s arrival).2.resultOn? (encodeTicket c t) =
      (arrival.readingOn? ids (encodeTicket c t)).map (verdictAt t) := by
  cases arrival with
  | atGate g message readings exchange =>
      simp only [process, Arrival.readingOn?, hids]
      by_cases htopic : message.topic = validateTopic (ids g)
      · by_cases hpayload : message.payload = encodeTicket c t
        · rw [if_pos htopic, if_pos ⟨htopic, hpayload⟩, hpayload, hserver]
          simp only [Outcome.resultOn?, validationOf_ticketBase64, if_true, Option.map_some,
            validationOf_stored hc hlookup]
        · rw [if_pos htopic, if_neg fun h => hpayload h.2]
          simp only [Outcome.resultOn?, validationOf_ticketBase64, if_neg hpayload,
            Option.map_none]
      · rw [if_neg htopic, if_neg fun h => htopic h.1]
        rfl
  | atMachine message clock write exchange =>
      simp only [process]
      split
      · split
        · rfl
        · split <;> rfl
      · rfl
  | atBackOffice q => rfl

variable (fault) in
theorem verdicts_of_stored (hc : c.Lawful) (hids : ∀ g, (s.gates g).gateId = ids g)
    {tickets : List Ticket} (hserver : s.server = some tickets) {t : Ticket}
    (hlookup : ∀ more, lookupTicket t.ticketId (tickets ++ more) = some t)
    {arrivals : List (Arrival GateName)} (hkeeps : KeepsTickets arrivals) :
    (answers (process c fault (handleStore c)) s arrivals).filterMap
        (Outcome.resultOn? (encodeTicket c t)) =
      (arrivals.filterMap (Arrival.readingOn? ids (encodeTicket c t))).map (verdictAt t) := by
  induction arrivals generalizing s tickets with
  | nil => rfl
  | cons arrival arrivals ih =>
      obtain ⟨hwrite, hrest⟩ := List.forall_mem_cons.mp hkeeps
      have hfirst := process_stored fault hc hids hserver
        (by simpa only [List.append_nil] using hlookup []) arrival
      obtain ⟨more, hmore, -⟩ := tickets_grow_step c fault hwrite hserver
      have hnext := ih (process_gateId hids arrival) hmore
        (fun later => by rw [List.append_assoc]; exact hlookup _) hrest
      rw [answers, List.filterMap_cons, List.filterMap_cons, hfirst]
      cases arrival.readingOn? ids (encodeTicket c t) with
      | none => exact hnext
      | some now => exact congrArg _ hnext

/-- A sale: the vending machine has read the request, and the ticket for it is stored. -/
theorem sale_at_machine {message : Message} {clock : CreateClock} {exchange : Exchange}
    {response : Response}
    (hsale : (process c fault (handleStore c) s (.atMachine message clock .completes exchange)).2 =
      .answered (.ok response)) (hcode : response.code = 201) :
    ∃ r tickets t, VendingMachine.parseTicket (c.parse message.payload) = some r ∧
      s.server = some tickets ∧
      t = newTicket ⟨r.validityInDays, r.lineNumber, r.requestDate⟩ (lastId tickets) ∧
      response.body = encodeTicket c t ∧
      (process c fault (handleStore c) s (.atMachine message clock .completes exchange)).1.server =
        some (tickets ++ [t]) := by
  -- the goal follows the cases of what is known of the answer
  simp only [process] at hsale ⊢
  split at hsale
  · rename_i htopic
    split at hsale
    · cases hsale
    · rename_i body hbody
      rw [VendingMachine.onNewTicket, Option.map_eq_some_iff] at hbody
      obtain ⟨r, hr, rfl⟩ := hbody
      obtain ⟨zv, zl, zd, ⟨members, hparse, hmembers⟩, hnarrowed⟩ := asksFor_of_parseTicket hr
      split at hsale
      · cases hsale
      · rename_i hsent
        simp only [Outcome.answered.injEq] at hsale
        rcases handleStore_cases c s.server (.createTicket message.payload clock .completes) with
          ⟨-, hother⟩ | ⟨_, _, _, j, r', tickets, ⟨⟩, hparse', hread, hstore, hsaved⟩
        · exact absurd hcode (hother response hsale)
        · obtain rfl := Option.some.inj (hparse.symm.trans hparse')
          rw [readRequest_object hmembers, hnarrowed, Except.ok.injEq] at hread
          rw [hsaved, Except.ok.injEq] at hsale
          subst hread
          simp only [if_pos htopic, if_neg hsent, hsaved]
          exact ⟨r, tickets, _, hr, hstore, rfl, hsale ▸ rfl, rfl⟩
  · cases hsale

end Sold

/-! ### What is admitted online -/

section Admission

variable [Double F] {c : Codec F} {fault : JsonError → Response} {s : System Store GateName}

/-- Every ticket has been there from the beginning or has been answered with. -/
theorem stored_was_sold {arrivals : List (Arrival GateName)} {tickets : List Ticket}
    (hserver : (final (process c fault (handleStore c)) s arrivals).server = some tickets)
    {t : Ticket} (ht : t ∈ tickets) :
    (∃ earlier, s.server = some earlier ∧ t ∈ earlier) ∨
      Outcome.answered (.ok ⟨201, encodeTicket c t⟩) ∈
        answers (process c fault (handleStore c)) s arrivals := by
  induction arrivals generalizing s with
  | nil => exact Or.inl ⟨tickets, hserver, ht⟩
  | cons arrival arrivals ih =>
      rcases ih hserver with ⟨found, hfound, hmem⟩ | hsold
      · rcases process_cases c fault (s := s) arrival with
          hsame | ⟨r, earlier, write, -, hearlier, hsaved, hanswer⟩
        · exact Or.inl ⟨found, hsame ▸ hfound, hmem⟩
        · rw [hfound] at hsaved
          cases write with
          | openFails =>
              obtain rfl := Option.some.inj hsaved
              exact Or.inl ⟨_, hearlier, hmem⟩
          | stopsShort written => cases hsaved
          | completes =>
              obtain rfl := Option.some.inj hsaved
              rcases List.mem_append.mp hmem with hmem | hmem
              · exact Or.inl ⟨_, hearlier, hmem⟩
              · obtain rfl := List.mem_singleton.mp hmem
                exact Or.inr (hanswer ▸ List.mem_cons_self)
      · exact Or.inr (List.mem_cons_of_mem _ hsold)

/-- A gate goes by the answer only where it has one, and by nothing but the answer. -/
theorem admitted_online (hfault : ∀ e, (fault e).code = 500) {g g' : GateName} {message : Message}
    {readings : Readings} {exchange : Exchange} {v : TicketValidation}
    (hrecorded : (process c fault (handleStore c) s (.atGate g message readings exchange)).2 =
      .recorded g' v) (honline : v.strategy = .online) (hvalid : v.result = .valid) :
    ∃ tickets id t, s.server = some tickets ∧ claimedId c message.payload = some id ∧
      lookupTicket id tickets = some t ∧ isExpired readings.server t = false := by
  simp only [process] at hrecorded
  split at hrecorded
  · obtain ⟨-, rfl⟩ := Outcome.recorded.inj hrecorded
    rw [validationOf] at honline hvalid
    cases hparse : parseBase64Ticket c message.payload with
    | none =>
        rw [hparse] at honline
        cases honline
    | some ticket =>
        have hid := claimedId_of_parseBase64Ticket hparse
        simp only [hparse, validationCall] at honline hvalid
        cases exchange with
        | requestLost => cases honline
        | responseLost => cases honline
        | answered =>
            rw [Exchange.call, handleStore_of_claimedId hid] at hvalid
            cases hserver : s.server with
            | none =>
                have hrefused : ¬((500 : Int32).toInt64 ≥ 200 ∧ (500 : Int32).toInt64 < 300) := by
                  decide
                simp only [hserver, Store.validateTicket, delivered, hfault, if_neg hrefused]
                  at hvalid
                cases hvalid
            | some tickets =>
                simp only [hserver, Store.validateTicket, delivered,
                  validationStatus_success_iff] at hvalid
                split at hvalid
                · rename_i hanswer
                  obtain ⟨t, hlookup, hexpired⟩ := verdict_noErr_iff.mp hanswer
                  exact ⟨tickets, _, t, rfl, hid, hlookup, hexpired⟩
                · cases hvalid
  · cases hrecorded

end Admission

/-! ### The system on the ticket file -/

section Files

variable [Double F] {c : Codec F} {fault : JsonError → Response} {s s' : System TicketFile GateName}

def Runs (c : Codec F) (s : System TicketFile GateName) (a : System Store GateName) : Prop :=
  Backs c s.server a.server ∧ s.gates = a.gates

variable (fault) in
theorem simulates_process (hc : c.Lawful) :
    Simulates (Runs c : System TicketFile GateName → System Store GateName → Prop) id
      (process c fault (handle c)) (process c fault (handleStore c)) :=
  process_simulates (simulates_handleStore hc)

/-- Let the vending machine get a request for a ticket, and let the back office answer its call with
a ticket that it has stored. Whatever arrives later, wherever and in whatever order, and whichever
calls are lost: the verdicts of all the gates on the text of the ticket are those of its expiry at
the readings of the clock. If these never go back, no gate admits the passenger again who has been
turned away by one. -/
theorem sold_ticket_at_the_gates (hc : c.Lawful) {ids : GateName → String}
    (hids : ∀ g, (s.gates g).gateId = ids g) {tickets : List Ticket}
    (hfile : Holds c s.server tickets) {before : List (Arrival GateName)}
    (hbefore : KeepsTickets before) (hroom : Room (1 + before.length) tickets)
    {message : Message} {clock : CreateClock} {exchange : Exchange} {response : Response}
    (hsale : process c fault (handle c) (final (process c fault (handle c)) s before)
      (.atMachine message clock .completes exchange) = (s', .answered (.ok response)))
    (hcode : response.code = 201) {later : List (Arrival GateName)} (hlater : KeepsTickets later) :
    ∃ r t, VendingMachine.parseTicket (c.parse message.payload) = some r ∧
      t.creationDate = r.requestDate ∧ t.validityInDays = r.validityInDays ∧
      t.lineNumber = r.lineNumber ∧ response.body = encodeTicket c t ∧
      let readings := later.filterMap (Arrival.readingOn? ids response.body)
      let verdicts := (answers (process c fault (handle c)) s' later).filterMap
        (Outcome.resultOn? response.body)
      verdicts = readings.map (verdictAt t) ∧
        (readings.Pairwise (· ≤ ·) →
          verdicts.Pairwise fun v v' => v = .invalid → v' = .invalid) := by
  have hsimulates : Simulates (Runs c : System TicketFile GateName → _) id _ _ :=
    simulates_process fault hc
  have hstart : Runs c s ⟨some tickets, s.gates⟩ := ⟨hfile, rfl⟩
  obtain ⟨hrelated, hanswer⟩ := hsimulates _ _ (.atMachine message clock .completes exchange)
    (hsimulates.final hstart before)
  rw [hsale] at hrelated hanswer
  obtain ⟨more, hstored, hroomLeft⟩ := tickets_grow c fault
    (s := ⟨some tickets, s.gates⟩) hbefore rfl
  obtain ⟨r, sold, t, hr, hsold, ht, hbody, hafter⟩ := sale_at_machine hanswer.symm hcode
  obtain rfl := Option.some.inj (hstored.symm.trans hsold)
  refine ⟨r, t, hr, ht ▸ rfl, ht ▸ rfl, ht ▸ rfl, hbody, ?_⟩
  have hlookup : ∀ rest, lookupTicket t.ticketId (tickets ++ more ++ [t] ++ rest) = some t := by
    intro rest
    have hnew : lastId (tickets ++ more) < t.ticketId :=
      ht ▸ Room.lastId_lt_next (n := 0) (hroomLeft 1 hroom)
    exact KeyedLog.lookup_append_of_some (KeyedLog.lookup_concat_of_largest_lt hnew) rest
  have hnamed : ∀ g, ((process c fault (handleStore c)
      (final (process c fault (handleStore c)) ⟨some tickets, s.gates⟩ before)
      (.atMachine message clock .completes exchange)).1.gates g).gateId = ids g :=
    process_gateId (invariant_final
      (I := fun s : System Store GateName => ∀ g, (s.gates g).gateId = ids g)
      (fun _ arrival h => process_gateId h arrival) hids before) _
  have hverdicts := verdicts_of_stored fault hc hnamed hafter hlookup hlater
  rw [hbody, hsimulates.answers hrelated later, List.map_id]
  refine ⟨hverdicts, fun hreadings => ?_⟩
  rw [hverdicts, List.pairwise_map]
  exact hreadings.imp verdictAt_mono

/-- The answer of a web server that tells nothing of an exception. -/
def plainFault (_ : JsonError) : Response := ⟨500, []⟩

def newSystem : System TicketFile String where
  server := none
  gates gateId := { gateId := gateId }

omit [Double F] [DecidableEq GateName] in
theorem parseTicket_dayBody :
    VendingMachine.parseTicket (referenceCodec.parse dayBody) = some ⟨1, 5, 1000⟩ := by
  obtain ⟨members, hparse, hvalidity, hline, hdate⟩ := asksFor_requestJson referenceCodec_lawful
    (.ofInt32 1) (.ofInt32 5) (.ofInt64 1000)
  rw [dayBody, hparse]
  simp only [VendingMachine.parseTicket, integerMember_of_find? hvalidity,
    integerMember_of_find? hline, integerMember_of_find? hdate, bind, Option.bind]
  rfl

theorem sale_of_day : ∃ file, Holds referenceCodec file [⟨1, 1000, 1, 5⟩] ∧
    process referenceCodec plainFault (handle referenceCodec) newSystem
        (.atMachine ⟨createTopic, dayBody⟩ ⟨1000, 1001⟩ .completes .responseLost) =
      (⟨file, newSystem.gates⟩,
        .answered (.ok ⟨201, encodeTicket referenceCodec ⟨1, 1000, 1, 5⟩⟩)) := by
  obtain ⟨members, hparse, hmembers⟩ := asksFor_requestJson referenceCodec_lawful (.ofInt32 1)
    (.ofInt32 5) (.ofInt64 1000)
  have hread := readRequest_object hmembers
  have hcheck : checkRequest (narrowed (.ofInt32 1) (.ofInt32 5) (.ofInt64 1000)) ⟨1000, 1001⟩ =
      none := by decide
  obtain ⟨file, hcreated, hholds⟩ := (holds_none referenceCodec).createTicketBase64_completes
    referenceCodec_lawful hcheck
  have hpost : handle referenceCodec none (.createTicket dayBody ⟨1000, 1001⟩ .completes) = _ :=
    handle_createTicket (createTicket_of_created hparse hread hcreated)
  refine ⟨file, hholds, ?_⟩
  have hforwarded : VendingMachine.onNewTicket referenceCodec dayBody = some dayBody := by
    rw [VendingMachine.onNewTicket, parseTicket_dayBody, Option.map_some]
  have hserver : newSystem.server = none := rfl
  simp only [process, hforwarded, hserver, hpost]
  rfl

def visits (text : Bytes) : List (Arrival String) :=
  [.atGate "GATE-1" ⟨validateTopic "GATE-1", text⟩ ⟨2000, 2001, 2002⟩ .answered,
    .atGate "GATE-2" ⟨validateTopic "GATE-2", text⟩ ⟨3000, 3001, 3002⟩ .requestLost,
    .atGate "GATE-2" ⟨validateTopic "GATE-2", text⟩ ⟨90000, 90001, 90002⟩ .answered]

theorem sold_ticket_at_the_gates_day : ∃ s text,
    (process referenceCodec plainFault (handle referenceCodec) newSystem
        (.atMachine ⟨createTopic, dayBody⟩ ⟨1000, 1001⟩ .completes .responseLost)) =
      (s, .answered (.ok ⟨201, text⟩)) ∧
    (answers (process referenceCodec plainFault (handle referenceCodec)) s (visits text)).filterMap
      (Outcome.resultOn? text) = [.valid, .valid, .invalid] := by
  obtain ⟨file, -, hsale⟩ := sale_of_day
  refine ⟨_, _, hsale, ?_⟩
  have hids : ∀ g, (newSystem.gates g).gateId = g := fun _ => rfl
  have hnew : Holds referenceCodec newSystem.server [] := holds_none referenceCodec
  have hroom : Room (1 + ([] : List (Arrival String)).length) [] := room_nil (by decide)
  have hvisits : KeepsTickets (visits (encodeTicket referenceCodec ⟨1, 1000, 1, 5⟩)) := by
    intro arrival harrival written
    simp only [visits, List.mem_cons, List.not_mem_nil, or_false] at harrival
    rcases harrival with rfl | rfl | rfl <;> exact nofun
  obtain ⟨r, t, hr, hdate, hvalidity, -, -, hverdicts, -⟩ := sold_ticket_at_the_gates
    referenceCodec_lawful hids hnew (fun _ h => absurd h List.not_mem_nil) hroom hsale rfl hvisits
  obtain rfl := Option.some.inj (parseTicket_dayBody.symm.trans hr)
  rw [hverdicts]
  simp only [visits, List.filterMap_cons, Arrival.readingOn?, and_self, if_true, List.filterMap_nil,
    List.map_cons, List.map_nil, verdictAt, isExpired, hdate, hvalidity]
  decide

/-- Whatever fails, a gate admits a passenger on the word of a back office that began without
tickets only if the back office has answered an earlier request with a ticket of the id that the
payload claims, and only while that ticket has not expired. -/
theorem admitted_online_was_sold (hc : c.Lawful) (hfault : ∀ e, (fault e).code = 500)
    (hnew : Holds c s.server []) {arrivals : List (Arrival GateName)} {g g' : GateName}
    {message : Message} {readings : Readings} {exchange : Exchange} {v : TicketValidation}
    (hrecorded : (process c fault (handle c) (final (process c fault (handle c)) s arrivals)
      (.atGate g message readings exchange)).2 = .recorded g' v)
    (honline : v.strategy = .online) (hvalid : v.result = .valid) :
    ∃ t, Outcome.answered (.ok ⟨201, encodeTicket c t⟩) ∈
        answers (process c fault (handle c)) s arrivals ∧
      claimedId c message.payload = some t.ticketId ∧ isExpired readings.server t = false := by
  have hsimulates : Simulates (Runs c : System TicketFile GateName → _) id _ _ :=
    simulates_process fault hc
  have hstart : Runs c s ⟨some [], s.gates⟩ := ⟨hnew, rfl⟩
  obtain ⟨-, hanswer⟩ := hsimulates _ _ (.atGate g message readings exchange)
    (hsimulates.final hstart arrivals)
  obtain ⟨tickets, id, t, hserver, hid, hlookup, hexpired⟩ :=
    admitted_online hfault (hanswer.symm.trans hrecorded) honline hvalid
  have hkey : t.ticketId = id := KeyedLog.key_of_lookup hlookup
  refine ⟨t, ?_, hkey ▸ hid, hexpired⟩
  rw [hsimulates.answers hstart arrivals, List.map_id]
  rcases stored_was_sold hserver (KeyedLog.mem_of_lookup hlookup) with
    ⟨earlier, hearlier, hmem⟩ | hsold
  · obtain rfl := Option.some.inj hearlier
    exact absurd hmem List.not_mem_nil
  · exact hsold

theorem admitted_online_was_sold_day : ∃ s v,
    final (process referenceCodec plainFault (handle referenceCodec)) newSystem
        [.atMachine ⟨createTopic, dayBody⟩ ⟨1000, 1001⟩ .completes .responseLost] = s ∧
      (process referenceCodec plainFault (handle referenceCodec) s
        (.atGate "GATE-1" ⟨validateTopic "GATE-1", encodeTicket referenceCodec ⟨1, 1000, 1, 5⟩⟩
          ⟨2000, 2001, 2002⟩ .answered)).2 = .recorded "GATE-1" v ∧
      v.result = .valid ∧
      ∃ t, claimedId referenceCodec (encodeTicket referenceCodec ⟨1, 1000, 1, 5⟩) =
        some t.ticketId ∧ isExpired 2000 t = false := by
  obtain ⟨file, hfile, hsale⟩ := sale_of_day
  have hfinal : final (process referenceCodec plainFault (handle referenceCodec)) newSystem
      [.atMachine ⟨createTopic, dayBody⟩ ⟨1000, 1001⟩ .completes .responseLost] =
        ⟨file, newSystem.gates⟩ := congrArg Prod.fst hsale
  have hcarries : Carries referenceCodec (encodeTicket referenceCodec ⟨1, 1000, 1, 5⟩)
      ⟨1, 1000, 1, 5⟩ := (carries_encodeTicket_iff referenceCodec_lawful).mpr rfl
  have hlookup : lookupTicket (⟨1, 1000, 1, 5⟩ : Ticket).ticketId [⟨1, 1000, 1, 5⟩] =
    some ⟨1, 1000, 1, 5⟩ := rfl
  have hanswer := validateTicket_of_ok
    (hfile.validate_encodeTicket referenceCodec_lawful hlookup 2000)
  have hcall : validationCall referenceCodec plainFault (handle referenceCodec) file
      (encodeTicket referenceCodec ⟨1, 1000, 1, 5⟩) 2000 .answered =
        (file, some (delivered ⟨validationStatus .noErr, referenceCodec.dump (validated 1)⟩)) := by
    rw [validationCall, parseBase64Ticket_of_carries hcarries]
    simp only [Exchange.call, handle, hanswer]
    rfl
  have hrecorded : (process referenceCodec plainFault (handle referenceCodec)
      (final (process referenceCodec plainFault (handle referenceCodec)) newSystem
        [.atMachine ⟨createTopic, dayBody⟩ ⟨1000, 1001⟩ .completes .responseLost])
      (.atGate "GATE-1" ⟨validateTopic "GATE-1", encodeTicket referenceCodec ⟨1, 1000, 1, 5⟩⟩
        ⟨2000, 2001, 2002⟩ .answered)).2 =
      .recorded "GATE-1" ⟨encodeTicket referenceCodec ⟨1, 1000, 1, 5⟩, .online, .valid, 2002⟩ := by
    rw [hfinal]
    simp only [process, hcall, validationOf_online hcarries]
    rfl
  have hnew : Holds referenceCodec newSystem.server [] := holds_none referenceCodec
  obtain ⟨t, -, hid, hexpired⟩ := admitted_online_was_sold referenceCodec_lawful
    (fun _ => rfl) hnew hrecorded rfl rfl
  exact ⟨_, _, rfl, hrecorded, rfl, t, hid, hexpired⟩

end Files

end Ticketing.Network
