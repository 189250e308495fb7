import Ticketing.BackOffice.Controller
import Ticketing.BackOffice.Forgery

/-!
# Payloads that are no tickets

Whatever text is presented, validation should end in one of four answers, and in "invalid payload"
for every text that names no ticket. It does so for text that is not JSON. A JSON value of another
shape gets past that test: most shapes make `operator[]` or the conversion throw, and an integer
that `int64_t` does not hold, or a fraction, is turned into the id of some other ticket.
-/

namespace Ticketing.BackOffice

variable {F : Type} [Double F] {c : Codec F}

/-- Decoded, the payload is an object with an integer `ticket_id` in the range of `int64_t`. -/
def NamesId (c : Codec F) (payload : Bytes) (id : Int64) : Prop :=
  ∃ members, c.parse (c.base64decode payload) = some (.object members) ∧
    SortedAssoc.find? "ticket_id" members = some (.ofInt64 id)

/-- Validation answers, with "invalid payload" exactly where no id is named and otherwise for the id
that is, and leaves the store alone. -/
def ValidatesTotally (c : Codec F) (file : TicketFile) (payload : Bytes) (now : Int64) : Prop :=
  ∃ code result, validateTicketBase64 c file payload now = .ok (code, result) ∧
    validateTicket c file payload now = .ok ⟨validationStatus code, c.dump result⟩ ∧
    code ∈ [.invalidPayload, .notFound, .expired, .noErr] ∧
    (code = .invalidPayload ↔ ¬ ∃ id, NamesId c payload id) ∧
    (validationStatus code = 400 ↔ ¬ ∃ id, NamesId c payload id) ∧
    (∀ id, NamesId c payload id →
      ∃ found, findById c file id = .ok found ∧ (code, result) = verdict now id found) ∧
    serve c file (.validate payload now) = file

theorem NamesId.claimedId_eq {payload : Bytes} {id : Int64} (h : NamesId c payload id) :
    claimedId c payload = some id := by
  obtain ⟨members, hparse, hfind⟩ := h
  refine claimedId_eq_some_iff.mpr ⟨_, _, hparse, rfl, ?_⟩
  rw [hfind, Option.getD_some, Json.getInt64_ofInt64]

omit [Double F] in
theorem verdict_code_mem (now id : Int64) (found : Option Ticket) :
    (verdict now id found : TicketErrorCode × Json F).1 ∈ [.notFound, .expired, .noErr] := by
  cases found with
  | none => exact List.mem_cons_self
  | some t =>
      rw [verdict]
      split <;> simp

theorem validationStatus_eq_400_iff {code : TicketErrorCode}
    (h : code ∈ [.invalidPayload, .notFound, .expired, .noErr]) :
    validationStatus code = 400 ↔ code = .invalidPayload := by
  simp only [List.mem_cons, List.not_mem_nil, or_false] at h
  rcases h with rfl | rfl | rfl | rfl <;> decide

/-- Validation is total exactly on the texts that are not JSON and on those that name an id. -/
theorem validatesTotally_iff {file : TicketFile} {tickets : List Ticket}
    (hfile : Holds c file tickets) (payload : Bytes) (now : Int64) :
    ValidatesTotally c file payload now ↔
      c.parse (c.base64decode payload) = none ∨ ∃ id, NamesId c payload id := by
  constructor
  · rintro ⟨code, result, hvalidate, -, -, hinvalid, -, -, -⟩
    cases hparse : c.parse (c.base64decode payload) with
    | none => exact Or.inl rfl
    | some j =>
        right
        by_contra hnot
        obtain ⟨id, found, -, -, hverdict⟩ := answer_of_parsed hparse hvalidate
        have hcode := verdict_code_mem (F := F) now id found
        rw [hverdict] at hcode
        have hanswered : code ∈ [.notFound, .expired, .noErr] := hcode
        rw [hinvalid.mpr hnot] at hanswered
        exact absurd hanswered (by decide)
  · rintro (hparse | ⟨id, hnames⟩)
    · have hnot : ¬ ∃ id, NamesId c payload id := by
        rintro ⟨id, members, hsome, -⟩
        rw [hparse] at hsome
        cases hsome
      have hvalidate : validateTicketBase64 c file payload now =
          .ok (.invalidPayload, refusal "INVALID_PAYLOAD") := by
        rw [validateTicketBase64, hparse]
        rfl
      exact ⟨_, _, hvalidate, validateTicket_of_ok hvalidate, List.mem_cons_self,
        iff_of_true rfl hnot, iff_of_true rfl hnot, fun id hnames => absurd ⟨id, hnames⟩ hnot, rfl⟩
    · have hvalidate := hfile.validate_of_claimedId hnames.claimedId_eq now
      have hcode := verdict_code_mem (F := F) now id (lookupTicket id tickets)
      have hne : (verdict now id (lookupTicket id tickets) : TicketErrorCode × Json F).1 ≠
          .invalidPayload := by
        intro heq
        rw [heq] at hcode
        exact absurd hcode (by decide)
      have hmem := List.mem_cons_of_mem TicketErrorCode.invalidPayload hcode
      have hnamed : ∃ id, NamesId c payload id := ⟨id, hnames⟩
      have hinvalid := iff_of_false hne (not_not_intro hnamed)
      refine ⟨_, _, hvalidate, validateTicket_of_ok hvalidate, hmem, hinvalid,
        (validationStatus_eq_400_iff hmem).trans hinvalid, fun id' hnames' => ?_, rfl⟩
      have hid := hnames.claimedId_eq
      rw [hnames'.claimedId_eq, Option.some.injEq] at hid
      subst hid
      exact ⟨_, hfile.findById_eq id', rfl⟩

theorem validatesTotally_iff_seven :
    ValidatesTotally referenceCodec none (encodeTicket referenceCodec ⟨7, 1000, 1, 5⟩) 2000 := by
  have hnew := holds_none referenceCodec
  obtain ⟨members, hmembers, hticket⟩ := describesTicket_ticketJson (F := Empty) ⟨7, 1000, 1, 5⟩
  apply (validatesTotally_iff hnew _ _).mpr
  exact Or.inr ⟨7, members, hmembers ▸ parse_encodeTicket referenceCodec_lawful _, hticket.ticketId⟩

/-- The text of an empty array is JSON, and validating it ends in an exception. -/
theorem validation_throws_on_array :
    ¬ ∀ (c : Codec Empty) (file : TicketFile) (tickets : List Ticket) (payload : Bytes)
      (now : Int64), Holds c file tickets → ValidatesTotally c file payload now := by
  intro hall
  have hparse : referenceCodec.parse (referenceCodec.base64decode
      (referenceCodec.base64encode (referenceCodec.dump (.array [])))) = some (.array []) := by
    rw [referenceCodec_lawful.base64decode_encode]
    exact referenceCodec_lawful.parse_dump _ (.array fun _ h => absurd h List.not_mem_nil)
  obtain ⟨code, result, hvalidate, -⟩ := hall referenceCodec none []
    (referenceCodec.base64encode (referenceCodec.dump (.array []))) 2000 (holds_none referenceCodec)
  simp only [validateTicketBase64, hparse, Json.indexMut, Except.error_bind, reduceCtorEq]
    at hvalidate

end Ticketing.BackOffice
