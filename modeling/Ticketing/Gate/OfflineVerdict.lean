import Ticketing.Expiry
import Ticketing.Gate.TicketProcessor
import Ticketing.ReferenceCodec

/-!
# The verdict of a gate that is on its own

Without an answer of the back office the gate goes by the expiry that the payload gives. The
integers of the payload may be as large as JSON allows: they are cut to the size of the fields, the
product is cut to an `int` and the sum to an `int64_t`. What comes out is an expiry date of its own,
and the verdict is wrong at every time between that date and the exact one.
-/

namespace Ticketing.Gate

open Wrapping

variable {F : Type} {c : Codec F}

/-- The payload is an object with these integers, of whatever size. -/
def Presents (c : Codec F) (payload : Bytes)
    (validityInDays lineNumber creationDate ticketId : JsonInteger) : Prop :=
  ∃ members, c.parse (c.base64decode payload) = some (.object members) ∧
    SortedAssoc.find? "validity_in_days" members = some (.numberInteger validityInDays) ∧
    SortedAssoc.find? "line_number" members = some (.numberInteger lineNumber) ∧
    SortedAssoc.find? "creation_date" members = some (.numberInteger creationDate) ∧
    SortedAssoc.find? "ticket_id" members = some (.numberInteger ticketId)

theorem Presents.parseBase64Ticket_eq {payload : Bytes}
    {validityInDays lineNumber creationDate ticketId : JsonInteger}
    (h : Presents c payload validityInDays lineNumber creationDate ticketId) :
    parseBase64Ticket c payload = some ⟨ticketId.toInt64, creationDate.toInt64,
      validityInDays.toInt32, lineNumber.toInt32⟩ := by
  obtain ⟨members, hparse, hvalidity, hline, hdate, hid⟩ := h
  rw [parseBase64Ticket, hparse, Option.bind_some]
  simp only [parseTicket, integerMember_of_find? hvalidity, integerMember_of_find? hline,
    integerMember_of_find? hdate, integerMember_of_find? hid, bind, Option.bind]

theorem parseBase64Ticket_isSome_iff {payload : Bytes} :
    (∃ t, parseBase64Ticket c payload = some t) ↔
      ∃ validityInDays lineNumber creationDate ticketId,
        Presents c payload validityInDays lineNumber creationDate ticketId := by
  constructor
  · rintro ⟨t, h⟩
    simp only [parseBase64Ticket, parseTicket, bind, Option.bind_eq_some_iff] at h
    obtain ⟨j, hparse, zv, hvalidity, zl, hline, zd, hdate, zi, hid, -⟩ := h
    obtain ⟨members, rfl, hfindValidity⟩ := find?_of_integerMember hvalidity
    obtain ⟨_, ⟨⟩, hfindLine⟩ := find?_of_integerMember hline
    obtain ⟨_, ⟨⟩, hfindDate⟩ := find?_of_integerMember hdate
    obtain ⟨_, ⟨⟩, hfindId⟩ := find?_of_integerMember hid
    exact ⟨zv, zl, zd, zi, members, hparse, hfindValidity, hfindLine, hfindDate, hfindId⟩
  · rintro ⟨zv, zl, zd, zi, h⟩
    exact ⟨_, h.parseBase64Ticket_eq⟩

/-! ### The expiry that the gate computes -/

/-- That the members have been cut to the size of the fields before makes no further difference. -/
theorem isTicketExpired_iff {now : Int64}
    {validityInDays lineNumber creationDate ticketId : JsonInteger} :
    isTicketExpired now ⟨ticketId.toInt64, creationDate.toInt64, validityInDays.toInt32,
        lineNumber.toInt32⟩ = true ↔
      wrappedExpiry creationDate.val validityInDays.val < now.toInt := by
  rw [isTicketExpired, decide_eq_true_iff, gt_iff_lt, Int64.lt_iff_toInt_lt, toInt_expiry_int]
  show wrappedExpiry (Int64.ofInt creationDate.val).toInt (Int32.ofInt validityInDays.val).toInt <
    _ ↔ _
  rw [Int64.toInt_ofInt, Int32.toInt_ofInt, wrappedExpiry, Int.mul_bmod_bmod, Int.bmod_add_bmod,
    wrappedExpiry]

/-! ### The verdict -/

/-- What is recorded of the payload at that time without an answer is right. -/
def VerdictExact (c : Codec F) (payload : Bytes) (validityInDays creationDate : JsonInteger)
    (now : Int64) : Prop :=
  ∀ (p : TicketProcessor) (timestamp : Int64), ∃ v,
    (p.onNewTicket c payload ⟨none, now, timestamp⟩).1.lastValidations = p.lastValidations ++ [v] ∧
      v.strategy = .offline ∧
      (v.result = .valid ↔ now.toInt ≤ exactExpiry creationDate.val validityInDays.val)

theorem Presents.validationOf_valid_iff {payload : Bytes}
    {validityInDays lineNumber creationDate ticketId : JsonInteger}
    (h : Presents c payload validityInDays lineNumber creationDate ticketId)
    (now timestamp : Int64) :
    (validationOf c payload ⟨none, now, timestamp⟩).strategy = .offline ∧
      ((validationOf c payload ⟨none, now, timestamp⟩).result = .valid ↔
        now.toInt ≤ wrappedExpiry creationDate.val validityInDays.val) := by
  rw [validationOf, h.parseBase64Ticket_eq, ← not_lt]
  simp only [isTicketExpired_iff]
  by_cases hexpired : wrappedExpiry creationDate.val validityInDays.val < now.toInt
  · simp [hexpired]
  · simp [hexpired]

theorem verdictExact_iff_lt {payload : Bytes}
    {validityInDays lineNumber creationDate ticketId : JsonInteger}
    (h : Presents c payload validityInDays lineNumber creationDate ticketId) {now : Int64} :
    VerdictExact c payload validityInDays creationDate now ↔
      (wrappedExpiry creationDate.val validityInDays.val < now.toInt ↔
        exactExpiry creationDate.val validityInDays.val < now.toInt) := by
  have hiff : (wrappedExpiry creationDate.val validityInDays.val < now.toInt ↔
      exactExpiry creationDate.val validityInDays.val < now.toInt) ↔
      (now.toInt ≤ wrappedExpiry creationDate.val validityInDays.val ↔
        now.toInt ≤ exactExpiry creationDate.val validityInDays.val) := by
    rw [← not_lt, ← not_lt, not_iff_not]
  rw [hiff]
  constructor
  · intro hverdict
    obtain ⟨v, hlast, -, hv⟩ := hverdict ⟨"", {}, []⟩ 0
    rw [TicketProcessor.onNewTicket_lastValidations] at hlast
    rw [← List.singleton_inj.mp (List.append_cancel_left hlast)] at hv
    exact (h.validationOf_valid_iff now 0).2.symm.trans hv
  · intro hsame p timestamp
    obtain ⟨hstrategy, hvalid⟩ := h.validationOf_valid_iff now timestamp
    exact ⟨_, p.onNewTicket_lastValidations c payload _, hstrategy, hvalid.trans hsame⟩

/-- The verdict is exact at all times exactly if the exact expiry is a date of `int64_t` and what the
product loses is lost from the sum as well, or both expiries are at or beyond the end of time.
Otherwise it is wrong exactly at the times between the two. -/
theorem verdictExact_iff {payload : Bytes}
    {validityInDays lineNumber creationDate ticketId : JsonInteger}
    (h : Presents c payload validityInDays lineNumber creationDate ticketId) :
    ((∀ now, VerdictExact c payload validityInDays creationDate now) ↔
      (Fits Int64.size (exactExpiry creationDate.val validityInDays.val) ∧
        (Int64.size : Int) ∣
          86400 * validityInDays.val - (86400 * validityInDays.val).bmod Int32.size) ∨
      (wrappedExpiry creationDate.val validityInDays.val = Int64.maxValue.toInt ∧
        Int64.maxValue.toInt < exactExpiry creationDate.val validityInDays.val)) ∧
    ∀ now, VerdictExact c payload validityInDays creationDate now ↔
      ¬ Straddle now.toInt (wrappedExpiry creationDate.val validityInDays.val)
        (exactExpiry creationDate.val validityInDays.val) := by
  constructor
  · rw [← wrappedExpiry_eq_iff, ← forall_lt_toInt_iff (fits_wrappedExpiry _ _)]
    exact forall_congr' fun now => verdictExact_iff_lt h
  · intro now
    rw [verdictExact_iff_lt h, not_straddle_iff]

def samplePayload (validityInDays : Int32) : Bytes :=
  referenceCodec.base64encode (referenceCodec.dump (ticketJson ⟨7, 1000, validityInDays, 5⟩))

theorem presents_samplePayload (validityInDays : Int32) :
    Presents referenceCodec (samplePayload validityInDays) (.ofInt32 validityInDays) (.ofInt32 5)
      (.ofInt64 1000) (.ofInt64 7) := by
  obtain ⟨members, hmembers, hticket⟩ :=
    describesTicket_ticketJson (F := Empty) ⟨7, 1000, validityInDays, 5⟩
  refine ⟨members, ?_, hticket.validityInDays, hticket.lineNumber, hticket.creationDate,
    hticket.ticketId⟩
  rw [samplePayload, referenceCodec_lawful.base64decode_encode, ← hmembers]
  exact referenceCodec_lawful.parse_dump _ (ticketJson_canonical _)

theorem verdictExact_iff_day :
    VerdictExact referenceCodec (samplePayload 1) (.ofInt32 1) (.ofInt64 1000) 2000 :=
  (verdictExact_iff (presents_samplePayload 1)).1.mpr (Or.inl (by decide)) 2000

/-- A payload for 24856 days is refused on the first of them. -/
theorem refused_offline :
    ¬ ∀ (c : Codec Empty) (payload : Bytes)
      (validityInDays lineNumber creationDate ticketId : JsonInteger) (now : Int64),
      Presents c payload validityInDays lineNumber creationDate ticketId →
      VerdictExact c payload validityInDays creationDate now := by
  intro hall
  have hverdict := hall referenceCodec _ _ _ _ _ 1000 (presents_samplePayload 24856)
  have hiff := (verdictExact_iff_lt (presents_samplePayload 24856)).mp hverdict
  exact absurd hiff (by decide)

end Ticketing.Gate
