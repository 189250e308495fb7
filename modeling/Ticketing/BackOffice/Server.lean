import Ticketing.BackOffice.Forgery
import Ticketing.BackOffice.RequestBodies
import Ticketing.Library.Refinement

/-!
# The web server of the back office

The two routes of `TicketsController` on the one ticket file, for requests with whatever bodies. The
web server is run without `multithreaded()` and handles one request after the other; an exception
that a handler leaves to it has not touched the file. All that the requests are answered and all
that becomes of the file is that of a list of tickets, or of no list at all once a write of the file
has stopped short: from then on the back office knows no ticket and issues none.
-/

namespace Ticketing.BackOffice

open Refinement

variable {F : Type}

/-- A request on one of the routes, with the readings of the clock and what becomes of the write if
there is one. -/
inductive HttpRequest where
  | createTicket (body : Bytes) (clock : CreateClock) (write : Write)
  | validateTicket (body : Bytes) (now : Int64)

/-! ### The two machines -/

def handle [Double F] (c : Codec F) (file : TicketFile) :
    HttpRequest → TicketFile × Except JsonError Response
  | .createTicket body clock write =>
      match createTicket c file body clock write with
      | .ok (response, file') => (file', .ok response)
      | .error e => (file, .error e)
  | .validateTicket body now => (file, validateTicket c file body now)

/-- What the back office is for: a list of tickets, or `none` where the list is lost. -/
abbrev Store := Option (List Ticket)

/-- The store after a ticket has been saved to it. -/
def Store.save (tickets : List Ticket) (t : Ticket) : Write → Store
  | .openFails => some tickets
  | .stopsShort _ => none
  | .completes => some (tickets ++ [t])

def Store.createTicket (c : Codec F) (store : Store) (r : CreateRequest) (clock : CreateClock)
    (write : Write) : Store × Except JsonError Response :=
  match checkRequest r clock with
  | some refused => (store, .ok ⟨400, refused.2⟩)
  | none =>
      match store with
      | none => (none, .error .parseError)
      | some tickets =>
          let ticket := newTicket r (lastId tickets)
          (save tickets ticket write, .ok ⟨201, encodeTicket c ticket⟩)

/-- A request for the validation of a text that claims the id. -/
def Store.validateTicket (c : Codec F) (store : Store) (id now : Int64) :
    Except JsonError Response :=
  match store with
  | none => .error .parseError
  | some tickets =>
      let (err, result) := verdict now id (lookupTicket id tickets)
      .ok ⟨validationStatus err, c.dump result⟩

def handleStore [Double F] (c : Codec F) (store : Store) :
    HttpRequest → Store × Except JsonError Response
  | .createTicket body clock write =>
      match c.parse body with
      | none => (store, .ok ⟨400, ascii "Invalid JSON"⟩)
      | some j =>
          match readRequest j with
          | .error e => (store, .error e)
          | .ok r => store.createTicket c r clock write
  | .validateTicket body now =>
      match c.parse (c.base64decode body) with
      | none => (store, .ok ⟨400, c.dump (refusal "INVALID_PAYLOAD")⟩)
      | some j =>
          match j.indexMut "ticket_id" >>= fun member => member.getInt64 with
          | .error e => (store, .error e)
          | .ok id => (store, store.validateTicket c id now)

/-! ### The simulation -/

/-- The file holds the tickets of the store, and is no document where the store is lost. -/
def Backs (c : Codec F) (file : TicketFile) : Store → Prop
  | some tickets => Holds c file tickets
  | none => ∃ text, file = some text ∧ c.extract text = none

theorem Backs.load_eq {c : Codec F} {file : TicketFile} (h : Backs c file none) :
    load c file = .error .parseError := by
  obtain ⟨text, rfl, hextract⟩ := h
  rw [load, hextract]

theorem Holds.save_backs {c : Codec F} (hc : c.Lawful) {file : TicketFile} {tickets : List Ticket}
    (h : Holds c file tickets) (t : Ticket) (write : Write) :
    ∃ file', save c file t write = .ok file' ∧ Backs c file' (Store.save tickets t write) := by
  cases write with
  | openFails => exact ⟨file, h.save_openFails hc t, h⟩
  | stopsShort written =>
      obtain ⟨text, hsave, hextract⟩ := h.save_stopsShort hc t written
      exact ⟨some text, hsave, text, rfl, hextract⟩
  | completes => exact h.save_completes hc t

section Simulation

variable [Double F] {c : Codec F} {file : TicketFile} {store : Store}

theorem handle_createTicket {body : Bytes} {clock : CreateClock} {write : Write}
    {response : Response} {file' : TicketFile}
    (h : createTicket c file body clock write = .ok (response, file')) :
    handle c file (.createTicket body clock write) = (file', .ok response) := by
  rw [handle, h]

/-- A body that reads as a request is served by the store as by the file. -/
theorem Backs.createTicket (hc : c.Lawful) (h : Backs c file store) {body : Bytes} {j : Json F}
    (hparse : c.parse body = some j) {r : CreateRequest} (hread : readRequest j = .ok r)
    (clock : CreateClock) (write : Write) :
    Backs c (handle c file (.createTicket body clock write)).1
        (store.createTicket c r clock write).1 ∧
      (handle c file (.createTicket body clock write)).2 =
        (store.createTicket c r clock write).2 := by
  cases hcheck : checkRequest r clock with
  | some refused =>
      simp only [Store.createTicket, hcheck,
        handle_createTicket (createTicket_of_refused hparse hread hcheck)]
      exact ⟨h, trivial⟩
  | none =>
      cases store with
      | none =>
          have hthrows : BackOffice.createTicket c file body clock write = .error .parseError := by
            rw [createTicket_of_parsed hparse, hread]
            simp only [Except.ok_bind, createTicketBase64, hcheck, getLastTicketId, h.load_eq]
            rfl
          simp only [handle, hthrows, Store.createTicket, hcheck]
          exact ⟨h, trivial⟩
      | some tickets =>
          have hholds : Holds c file tickets := h
          obtain ⟨file', hsave, hbacks⟩ :=
            hholds.save_backs hc (newTicket r (lastId tickets)) write
          have hcreate := hholds.createTicketBase64_eq hcheck hsave
          simp only [Store.createTicket, hcheck,
            handle_createTicket (createTicket_of_created hparse hread hcreate)]
          exact ⟨hbacks, trivial⟩

theorem Backs.validateTicket (h : Backs c file store) {body : Bytes} {id : Int64}
    (hid : claimedId c body = some id) (now : Int64) :
    validateTicket c file body now = store.validateTicket c id now := by
  cases store with
  | none =>
      rw [BackOffice.validateTicket, validateTicketBase64_of_claimedId hid, findById, h.load_eq]
      rfl
  | some tickets =>
      have hholds : Holds c file tickets := h
      rw [validateTicket_of_ok (hholds.validate_of_claimedId hid now)]
      rfl

theorem simulates_handleStore (hc : c.Lawful) :
    Simulates (Backs c) id (handle c) (handleStore c) := by
  intro file store request h
  cases request with
  | createTicket body clock write =>
      cases hparse : c.parse body with
      | none =>
          simp only [handleStore, hparse, handle_createTicket (createTicket_of_malformed hparse)]
          exact ⟨h, rfl⟩
      | some j =>
          cases hread : readRequest j with
          | error e =>
              have hthrows : createTicket c file body clock write = .error e := by
                rw [createTicket_of_parsed hparse, hread]
                rfl
              simp only [handle, hthrows, handleStore, hparse, hread]
              exact ⟨h, rfl⟩
          | ok r =>
              simp only [handleStore, hparse, hread]
              exact h.createTicket hc hparse hread clock write
  | validateTicket body now =>
      cases hparse : c.parse (c.base64decode body) with
      | none =>
          simp only [handleStore, hparse, handle, validateTicket, validateTicketBase64]
          exact ⟨h, rfl⟩
      | some j =>
          cases hmember : j.indexMut "ticket_id" >>= fun member => member.getInt64 with
          | error e =>
              have hthrows : validateTicket c file body now = .error e := by
                simp only [validateTicket, validateTicketBase64, hparse, ← bind_assoc, hmember]
                rfl
              simp only [handleStore, hparse, hmember, handle, hthrows]
              exact ⟨h, rfl⟩
          | ok id =>
              obtain ⟨member, hindex, hget⟩ := Except.bind_eq_ok_iff.mp hmember
              have hid := claimedId_eq_some_iff.mpr ⟨j, member, hparse, hindex, hget⟩
              simp only [handleStore, hparse, hmember, handle, h.validateTicket hid now]
              exact ⟨h, rfl⟩

/-- Over every run of requests the server answers as the store does, whatever the bodies say and
whatever becomes of the writes, and in the end the file holds what the store holds. -/
theorem server_refines_store (hc : c.Lawful) (hfile : Backs c file store)
    (requests : List HttpRequest) :
    answers (handle c) file requests = answers (handleStore c) store requests ∧
      Backs c (final (handle c) file requests) (final (handleStore c) store requests) := by
  have hsimulates := simulates_handleStore hc
  refine ⟨?_, hsimulates.final hfile requests⟩
  rw [hsimulates.answers hfile, List.map_id]

def dayBody : Bytes :=
  referenceCodec.dump (requestJson (.ofInt32 1) (.ofInt32 5) (.ofInt64 1000))

omit [Double F] in
/-- A ticket is issued, the next one is lost with it, and the first is not known any more. -/
theorem server_refines_store_outage :
    answers (handle referenceCodec) none
        [.createTicket dayBody ⟨1000, 1001⟩ .completes,
          .createTicket dayBody ⟨1002, 1002⟩ (.stopsShort 7),
          .validateTicket (encodeTicket referenceCodec ⟨1, 1000, 1, 5⟩) 2000] =
      answers (handleStore referenceCodec) (some [])
        [.createTicket dayBody ⟨1000, 1001⟩ .completes,
          .createTicket dayBody ⟨1002, 1002⟩ (.stopsShort 7),
          .validateTicket (encodeTicket referenceCodec ⟨1, 1000, 1, 5⟩) 2000] :=
  have hnew : Backs referenceCodec none (some []) := holds_none referenceCodec
  (server_refines_store referenceCodec_lawful hnew _).1

/-! ### After a write that has stopped short -/

/-- The answer is an exception, or a response that turns the request away. -/
def TurnsAway (answer : Except JsonError Response) : Prop :=
  ∀ response, answer = .ok response → response.code = 400

theorem createTicket_file {body : Bytes} {clock : CreateClock} {write : Write} {response : Response}
    {file' : TicketFile} (h : createTicket c file body clock write = .ok (response, file')) :
    file' = file ∨ ∃ t, save c file t write = .ok file' := by
  cases hparse : c.parse body with
  | none =>
      rw [createTicket_of_malformed hparse, Except.ok.injEq, Prod.mk.injEq] at h
      exact Or.inl h.2.symm
  | some j =>
      rw [createTicket_of_parsed hparse] at h
      simp only [Except.bind_eq_ok_iff, Except.pure_eq_ok, Except.ok.injEq, Prod.mk.injEq] at h
      obtain ⟨r, -, ⟨⟨err, result⟩, file''⟩, hcreate, -, rfl⟩ := h
      cases hcheck : checkRequest r clock with
      | some refused =>
          rw [createTicketBase64_of_refused hcheck, Except.ok.injEq, Prod.mk.injEq] at hcreate
          exact Or.inl hcreate.2.symm
      | none =>
          simp only [createTicketBase64, hcheck, Except.bind_eq_ok_iff, Except.pure_eq_ok,
            Except.ok.injEq, Prod.mk.injEq] at hcreate
          obtain ⟨last, -, saved, hsave, -, rfl⟩ := hcreate
          exact Or.inr ⟨_, hsave⟩

theorem Backs.handle_file (h : Backs c file none) (request : HttpRequest) :
    (handle c file request).1 = file := by
  cases request with
  | createTicket body clock write =>
      rw [handle]
      split
      · rename_i response file' hcreate
        rcases createTicket_file hcreate with rfl | ⟨t, hsave⟩
        · rfl
        · rw [save, h.load_eq] at hsave
          cases hsave
      · rfl
  | validateTicket body now => rfl

theorem handleStore_turnsAway (c : Codec F) (request : HttpRequest) :
    TurnsAway (handleStore c none request).2 := by
  intro response h
  cases request with
  | createTicket body clock write =>
      simp only [handleStore] at h
      split at h
      · exact Except.ok.inj h ▸ rfl
      · split at h
        · exact nomatch h
        · rw [Store.createTicket] at h
          split at h
          · exact Except.ok.inj h ▸ rfl
          · exact nomatch h
  | validateTicket body now =>
      simp only [handleStore] at h
      split at h
      · exact Except.ok.inj h ▸ rfl
      · split at h <;> exact nomatch h

omit [Double F] in
theorem validationStatus_ne_created (err : TicketErrorCode) : validationStatus err ≠ 201 := by
  cases err <;> decide

theorem handleStore_cases (c : Codec F) (store : Store) (request : HttpRequest) :
    ((handleStore c store request).1 = store ∧
        ∀ response, (handleStore c store request).2 = .ok response → response.code ≠ 201) ∨
      ∃ body clock write j r tickets, request = .createTicket body clock write ∧
        c.parse body = some j ∧ readRequest j = .ok r ∧ store = some tickets ∧
        handleStore c store request =
          (Store.save tickets (newTicket r (lastId tickets)) write,
            .ok ⟨201, encodeTicket c (newTicket r (lastId tickets))⟩) := by
  have hrefused : (400 : Int32) ≠ 201 := by decide
  cases request with
  | createTicket body clock write =>
      cases hparse : c.parse body with
      | none =>
          simp only [handleStore, hparse]
          exact Or.inl ⟨trivial, fun response h => Except.ok.inj h ▸ hrefused⟩
      | some j =>
          cases hread : readRequest j with
          | error e =>
              simp only [handleStore, hparse, hread]
              exact Or.inl ⟨trivial, fun response h => by cases h⟩
          | ok r =>
              simp only [handleStore, hparse, hread, Store.createTicket]
              cases hcheck : checkRequest r clock with
              | some refused =>
                  exact Or.inl ⟨rfl, fun response h => Except.ok.inj h ▸ hrefused⟩
              | none =>
                  cases store with
                  | none => exact Or.inl ⟨rfl, fun response h => by cases h⟩
                  | some tickets =>
                      exact Or.inr ⟨body, clock, write, j, r, tickets, rfl, hparse, hread, rfl, rfl⟩
  | validateTicket body now =>
      left
      simp only [handleStore]
      split
      · exact ⟨rfl, fun response h => Except.ok.inj h ▸ hrefused⟩
      · split
        · exact ⟨rfl, fun response h => by cases h⟩
        · cases store with
          | none => exact ⟨rfl, fun response h => by cases h⟩
          | some tickets =>
              exact ⟨rfl, fun response h => Except.ok.inj h ▸ validationStatus_ne_created _⟩

theorem handleStore_created {body : Bytes} {clock : CreateClock} {write : Write}
    {response : Response}
    (h : (handleStore c store (.createTicket body clock write)).2 = .ok response)
    (hcode : response.code = 201) :
    ∃ tickets t, (handleStore c store (.createTicket body clock write)).1 =
      Store.save tickets t write := by
  rcases handleStore_cases c store (.createTicket body clock write) with
    ⟨-, hother⟩ | ⟨_, _, _, _, r, tickets, ⟨⟩, -, -, -, hsaved⟩
  · exact absurd hcode (hother response h)
  · exact ⟨tickets, newTicket r (lastId tickets), congrArg Prod.fst hsaved⟩

theorem Backs.answers_of_lost (hc : c.Lawful) (h : Backs c file none)
    (requests : List HttpRequest) :
    final (handle c) file requests = file ∧
      ∀ answer ∈ answers (handle c) file requests, TurnsAway answer := by
  induction requests with
  | nil => exact ⟨rfl, fun _ hanswer => absurd hanswer List.not_mem_nil⟩
  | cons request requests ih =>
      have hfile := h.handle_file request
      have hanswer : TurnsAway (handle c file request).2 :=
        (simulates_handleStore hc file none request h).2 ▸ handleStore_turnsAway c request
      rw [final_cons, answers, hfile]
      exact ⟨ih.1, List.forall_mem_cons.mpr ⟨hanswer, ih.2⟩⟩

/-- A request may be answered with a ticket although the write of the file has stopped short. Then
all tickets are lost for good: whatever is asked later, nothing is written any more, no ticket is
issued and none is found valid, not even expired or unknown. -/
theorem lost_for_good (hc : c.Lawful) (hfile : Backs c file store) (earlier : List HttpRequest)
    {body : Bytes} {clock : CreateClock} {written : Nat} {response : Response} {file' : TicketFile}
    (hpost : handle c (final (handle c) file earlier)
      (.createTicket body clock (.stopsShort written)) = (file', .ok response))
    (hcode : response.code = 201) (later : List HttpRequest) :
    final (handle c) file' later = file' ∧ findAll c file' = .error .parseError ∧
      ∀ answer ∈ answers (handle c) file' later, TurnsAway answer := by
  obtain ⟨-, hreached⟩ := server_refines_store hc hfile earlier
  obtain ⟨hbacks, hanswer⟩ := simulates_handleStore hc _ _
    (.createTicket body clock (.stopsShort written)) hreached
  rw [hpost] at hbacks hanswer
  obtain ⟨tickets, t, hsaved⟩ := handleStore_created hanswer.symm hcode
  rw [hsaved] at hbacks
  have hlost : Backs c file' none := hbacks
  obtain ⟨hfinal, hanswers⟩ := hlost.answers_of_lost hc later
  refine ⟨hfinal, ?_, hanswers⟩
  rw [findAll, hlost.load_eq]
  rfl

omit [Double F] in
theorem lost_for_good_first_ticket :
    ∃ response file', handle referenceCodec none
        (.createTicket dayBody ⟨1000, 1001⟩ (.stopsShort 0)) = (file', .ok response) ∧
      response.code = 201 ∧ findAll referenceCodec file' = .error .parseError ∧
      ∀ answer ∈ answers (handle referenceCodec) file' [.validateTicket response.body 2000],
        TurnsAway answer := by
  have hnew := holds_none referenceCodec
  have hbacks : Backs referenceCodec none (some []) := hnew
  obtain ⟨members, hparse, hmembers⟩ := asksFor_requestJson referenceCodec_lawful (.ofInt32 1)
    (.ofInt32 5) (.ofInt64 1000)
  have hread := readRequest_object hmembers
  have hcheck : checkRequest (narrowed (.ofInt32 1) (.ofInt32 5) (.ofInt64 1000)) ⟨1000, 1001⟩ =
      none := by decide
  obtain ⟨file', hcreated⟩ := hnew.createTicketBase64_ok hcheck (.stopsShort 0)
  have hpost := handle_createTicket (createTicket_of_created hparse hread hcreated)
  obtain ⟨-, hfind, hanswers⟩ := lost_for_good referenceCodec_lawful hbacks [] hpost rfl
    [.validateTicket (encodeTicket referenceCodec _) 2000]
  exact ⟨_, file', hpost, rfl, hfind, hanswers⟩

end Simulation

end Ticketing.BackOffice
