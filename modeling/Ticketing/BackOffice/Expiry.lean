import Ticketing.BackOffice.Requests
import Ticketing.Expiry

/-!
# What creation admits and what validation honours

A request is checked with the expiry computed in `int64_t`, the stored ticket with a product in
`int`. The first computation goes wrong at the ends of `int64_t`, where a request can be classified
as the opposite of what it is; the second one goes wrong from 24856 days on, so that a ticket for
longer can be sold and refused in the same second.
-/

namespace Ticketing.BackOffice

open Wrapping

variable {F : Type}

/-! ### The two overloads -/

theorem isExpired_iff {now : Int64} {t : Ticket} :
    isExpired now t = true ↔
      wrappedExpiry t.creationDate.toInt t.validityInDays.toInt < now.toInt := by
  rw [isExpired, decide_eq_true_iff, gt_iff_lt, Int64.lt_iff_toInt_lt, toInt_expiry_int]

theorem isExpiredRequest_iff {now creationDate validityInDays : Int64} :
    isExpiredRequest now creationDate validityInDays = true ↔
      (exactExpiry creationDate.toInt validityInDays.toInt).bmod Int64.size < now.toInt := by
  rw [isExpiredRequest, decide_eq_true_iff, gt_iff_lt, Int64.lt_iff_toInt_lt, toInt_expiry_int64]

/-- The expiry of the request, as far as 64 bits hold it, has passed, or its date is yet to come. -/
def DatesRefused (requestDate validityInDays : Int) (clock : CreateClock) : Prop :=
  (exactExpiry requestDate validityInDays).bmod Int64.size < clock.expiryCheck.toInt ∨
    clock.futureCheck.toInt < requestDate

theorem checkRequest_eq_some_iff {r : CreateRequest} {clock : CreateClock} :
    (∃ refused, checkRequest r clock = some refused) ↔
      DatesRefused r.requestDate.toInt r.validityInDays.toInt clock := by
  rw [← Option.isSome_iff_exists, Option.isSome_iff_ne_none, ne_eq, checkRequest_eq_none_iff,
    not_and_or, Bool.not_eq_false, isExpiredRequest_iff, Int32.toInt_toInt64, not_le,
    Int64.lt_iff_toInt_lt, DatesRefused]

theorem isExpired_eq_isExpiredRequest {t : Ticket}
    (h : Fits Int32.size (86400 * t.validityInDays.toInt)) (now : Int64) :
    isExpired now t = isExpiredRequest now t.creationDate t.validityInDays.toInt64 := by
  rw [Bool.eq_iff_iff, isExpired_iff, isExpiredRequest_iff, Int32.toInt_toInt64,
    wrappedExpiry_of_fits h]

/-! ### Validation -/

/-- From the time `n` of its sale on, the stored ticket is taken as expired exactly when it is. -/
structure HonoursExpiry (n : Int64) (t : Ticket) : Prop where
  exact : ∀ now, n ≤ now →
    (isExpired now t = true ↔ exactExpiry t.creationDate.toInt t.validityInDays.toInt < now.toInt)
  overloads_agree : ∀ now,
    isExpired now t = isExpiredRequest now t.creationDate t.validityInDays.toInt64
  product_int : (t.validityInDays * 86400).toInt = 86400 * t.validityInDays.toInt
  product_int64 : (t.validityInDays.toInt64 * 86400).toInt = 86400 * t.validityInDays.toInt

theorem product_int_iff {validityInDays : Int32} :
    (validityInDays * 86400).toInt = 86400 * validityInDays.toInt ↔
      Fits Int32.size (86400 * validityInDays.toInt) := by
  rw [Int32.toInt_mul, Int.mul_comm]
  exact bmod_eq_self_iff (by decide)

theorem product_int64 (validityInDays : Int32) :
    (validityInDays.toInt64 * 86400).toInt = 86400 * validityInDays.toInt := by
  have hdays := validityInDays.le_toInt
  have hdays' := validityInDays.toInt_lt
  have hsize : (Int64.size : Int) = 18446744073709551616 := rfl
  rw [Int64.toInt_mul, Int32.toInt_toInt64, Int.mul_comm]
  apply (bmod_eq_self_iff (m := Int64.size) (by decide)).mpr
  rw [Fits, hsize, show (86400 : Int64).toInt = 86400 from rfl]
  omega

theorem honoursExpiry_of_not_expired {n : Int64} {t : Ticket}
    (hsold : isExpiredRequest n t.creationDate t.validityInDays.toInt64 = false) :
    HonoursExpiry n t ↔
      (-24855 ≤ t.validityInDays.toInt ∧ t.validityInDays.toInt ≤ 24855) ∧
        Fits Int64.size (exactExpiry t.creationDate.toInt t.validityInDays.toInt) := by
  rw [← fits_product_iff]
  have hexpired : ∀ now, Fits Int32.size (86400 * t.validityInDays.toInt) →
      (isExpired now t = true ↔
        (exactExpiry t.creationDate.toInt t.validityInDays.toInt).bmod Int64.size < now.toInt) := by
    intro now hproduct
    rw [isExpired_iff, wrappedExpiry_of_fits hproduct]
  constructor
  · intro h
    have hproduct := product_int_iff.mp h.product_int
    obtain ⟨hbelow, habove⟩ := exactExpiry_bounds t.creationDate t.validityInDays
    refine ⟨hproduct, fits_of_bmod_lt_iff_lt (fits_int64 n) ?_ habove hbelow ?_⟩
    · rw [← Bool.not_eq_true, isExpiredRequest_iff, Int32.toInt_toInt64] at hsold
      exact not_lt.mp hsold
    · intro a ha hle
      have hnow : (Int64.ofInt a).toInt = a := toInt_ofInt64_iff.mpr ha
      rw [← hnow, ← hexpired _ hproduct]
      apply h.exact
      rwa [Int64.le_iff_toInt_le, hnow]
  · rintro ⟨hproduct, hfits⟩
    refine ⟨fun now _ => ?_, isExpired_eq_isExpiredRequest hproduct, product_int_iff.mpr hproduct,
      product_int64 _⟩
    rw [hexpired now hproduct, (bmod_eq_self_iff (by decide)).mpr hfits]

/-- Every ticket that is sold is validated as it should be, exactly if its validity is at most 24855
days and its exact expiry is a date of `int64_t`. -/
theorem honoursExpiry_iff [Double F] {c : Codec F} (hc : c.Lawful) {file : TicketFile}
    {tickets : List Ticket} (hfile : Holds c file tickets) {r : CreateRequest} {clock : CreateClock}
    {encoded : Bytes} {file' : TicketFile}
    (hcreate : createTicketBase64 c file r clock .completes = .ok ((.noErr, encoded), file')) :
    findAll c file' = .ok (tickets ++ [newTicket r (lastId tickets)]) ∧
      (HonoursExpiry clock.expiryCheck (newTicket r (lastId tickets)) ↔
        (-24855 ≤ r.validityInDays.toInt ∧ r.validityInDays.toInt ≤ 24855) ∧
          Fits Int64.size (exactExpiry r.requestDate.toInt r.validityInDays.toInt)) := by
  obtain ⟨-, hfile'⟩ := hfile.accepted hc hcreate
  obtain ⟨hsold, -⟩ := checkRequest_eq_none_iff.mp (checkRequest_of_accepted hcreate)
  exact ⟨hfile'.findAll_eq,
    honoursExpiry_of_not_expired (t := newTicket r (lastId tickets)) hsold⟩

theorem honoursExpiry_iff_day :
    ∃ encoded file',
      createTicketBase64 referenceCodec none ⟨1, 5, 1000⟩ ⟨1000, 1001⟩ .completes =
        .ok ((.noErr, encoded), file') ∧
      findAll referenceCodec file' = .ok [newTicket ⟨1, 5, 1000⟩ 0] ∧
      HonoursExpiry 1000 (newTicket ⟨1, 5, 1000⟩ 0) := by
  have hnew := holds_none referenceCodec
  have hcheck : checkRequest ⟨1, 5, 1000⟩ ⟨1000, 1001⟩ = none := rfl
  obtain ⟨file', hcreate, -⟩ := hnew.createTicketBase64_completes referenceCodec_lawful hcheck
  obtain ⟨hstored, hhonours⟩ := honoursExpiry_iff referenceCodec_lawful hnew hcreate
  exact ⟨_, file', hcreate, hstored, hhonours.mpr (by decide)⟩

/-- A ticket for 24856 days is sold at time 1000 and refused from that time on. -/
theorem sold_and_refused :
    ¬ ∀ (c : Codec Empty) (file : TicketFile) (tickets : List Ticket) (r : CreateRequest)
      (clock : CreateClock) (encoded : Bytes) (file' : TicketFile) (t : Ticket), c.Lawful →
      Holds c file tickets →
      createTicketBase64 c file r clock .completes = .ok ((.noErr, encoded), file') →
      findAll c file' = .ok (tickets ++ [t]) → HonoursExpiry clock.expiryCheck t := by
  intro hall
  have hnew := holds_none referenceCodec
  have hcheck : checkRequest ⟨24856, 5, 1000⟩ ⟨1000, 1000⟩ = none := rfl
  obtain ⟨file', hcreate, hfile'⟩ :=
    hnew.createTicketBase64_completes referenceCodec_lawful hcheck
  have hhonours := hall referenceCodec none [] ⟨24856, 5, 1000⟩ ⟨1000, 1000⟩ _ file' _
    referenceCodec_lawful hnew hcreate hfile'.findAll_eq
  have hnow := (hhonours.exact 1000 (by decide)).mp rfl
  exact absurd hnow (by decide)

/-! ### Creation

A request has one clock reading here, so that there is one answer that its dates call for. -/

def exactOutcome (r : CreateRequest) (now : Int64) : TicketErrorCode :=
  if exactExpiry r.requestDate.toInt r.validityInDays.toInt < now.toInt then .expired
  else if now < r.requestDate then .fromFuture
  else .noErr

theorem exactOutcome_noErr_iff {r : CreateRequest} {now : Int64} :
    exactOutcome r now = .noErr ↔
      r.requestDate ≤ now ∧
        now.toInt ≤ exactExpiry r.requestDate.toInt r.validityInDays.toInt := by
  rw [exactOutcome, ← not_lt, ← not_lt]
  split
  · simp [*]
  · split <;> simp [*]

structure Current (t : Ticket) (now : Int64) : Prop where
  creationDate_le : t.creationDate ≤ now
  le_expiry : now.toInt ≤ exactExpiry t.creationDate.toInt t.validityInDays.toInt
  validityInDays_nonneg : 0 ≤ t.validityInDays

/-- The ticket has what the request asks for, and the id that comes after those of the others. -/
structure Fulfils (t : Ticket) (r : CreateRequest) (tickets : List Ticket) : Prop where
  ticketId : t.ticketId.toInt = (lastId tickets).toInt + 1
  creationDate : t.creationDate = r.requestDate
  validityInDays : t.validityInDays = r.validityInDays
  lineNumber : t.lineNumber = r.lineNumber

/-- The request is answered as its dates call for, and has the effect that goes with the answer. -/
def ClassifiesExactly [Double F] (c : Codec F) (file : TicketFile) (tickets : List Ticket)
    (r : CreateRequest) (now : Int64) : Prop :=
  ∃ text file', createTicketBase64 c file r ⟨now, now⟩ .completes =
      .ok ((exactOutcome r now, text), file') ∧
    (exactOutcome r now ≠ .noErr → file' = file) ∧
    (exactOutcome r now = .noErr → ∃ t, findAll c file' = .ok (tickets ++ [t]) ∧
      Fulfils t r tickets ∧ Current t now)

theorem current_newTicket {r : CreateRequest} {now lastTicketId : Int64}
    (h : exactOutcome r now = .noErr) : Current (newTicket r lastTicketId) now := by
  obtain ⟨hdate, hexpiry⟩ := exactOutcome_noErr_iff.mp h
  refine ⟨hdate, hexpiry, ?_⟩
  rw [Int64.le_iff_toInt_le] at hdate
  rw [exactExpiry] at hexpiry
  show (0 : Int32) ≤ r.validityInDays
  rw [Int32.le_iff_toInt_le, Int32.toInt_zero]
  omega

theorem room_one_iff {tickets : List Ticket} :
    Room 1 tickets ↔ (lastId tickets + 1).toInt = (lastId tickets).toInt + 1 := by
  constructor
  · exact Room.toInt_next (n := 0)
  · intro h
    have hle := (lastId tickets + 1).toInt_le
    rw [Room]
    omega

/-- An expiry that leaves `int64_t` and comes back at the other end does no harm where the clock is
beyond both. -/
def WrapsHarmlessly (expiry now : Int) : Prop :=
  Fits Int64.size expiry ∨
    (Int64.maxValue.toInt < expiry ∧ now ≤ expiry - Int64.size) ∨
    (expiry < Int64.minValue.toInt ∧ expiry + Int64.size < now)

instance decidableWrapsHarmlessly (expiry now : Int) : Decidable (WrapsHarmlessly expiry now) :=
  inferInstanceAs (Decidable (_ ∨ _))

theorem isExpiredRequest_iff_exact {r : CreateRequest} {now : Int64} :
    (isExpiredRequest now r.requestDate r.validityInDays.toInt64 = true ↔
        exactExpiry r.requestDate.toInt r.validityInDays.toInt < now.toInt) ↔
      WrapsHarmlessly (exactExpiry r.requestDate.toInt r.validityInDays.toInt) now.toInt := by
  have hsize : (Int64.size : Int) = 18446744073709551616 := rfl
  obtain ⟨hbelow, habove⟩ := exactExpiry_bounds r.requestDate r.validityInDays
  rw [isExpiredRequest_iff, Int32.toInt_toInt64,
    bmod_lt_iff_lt_iff (fits_int64 now) (by omega) hbelow, WrapsHarmlessly,
    Int64.toInt_maxValue, Int64.toInt_minValue, Fits, hsize]
  omega

theorem checkRequest_eq_exactOutcome_iff {r : CreateRequest} {now : Int64} :
    ((checkRequest r ⟨now, now⟩).map Prod.fst).getD .noErr = exactOutcome r now ↔
      (isExpiredRequest now r.requestDate r.validityInDays.toInt64 = true ↔
        exactExpiry r.requestDate.toInt r.validityInDays.toInt < now.toInt) := by
  rw [checkRequest, exactOutcome]
  by_cases hcheck : isExpiredRequest now r.requestDate r.validityInDays.toInt64 = true <;>
    by_cases hexact : exactExpiry r.requestDate.toInt r.validityInDays.toInt < now.toInt <;>
      by_cases hfuture : now < r.requestDate <;>
        simp [hcheck, hexact, hfuture]

/-- Creation answers as the dates call for exactly if the wrapping of the expiry does not bring it
to the other side of the clock and, where the request is to be granted, the ids are not used up. -/
theorem classifiesExactly_iff [Double F] {c : Codec F} (hc : c.Lawful) {file : TicketFile}
    {tickets : List Ticket} (hfile : Holds c file tickets) (r : CreateRequest) (now : Int64) :
    ClassifiesExactly c file tickets r now ↔
      WrapsHarmlessly (exactExpiry r.requestDate.toInt r.validityInDays.toInt) now.toInt ∧
      (r.requestDate ≤ now →
        now.toInt ≤ exactExpiry r.requestDate.toInt r.validityInDays.toInt → Room 1 tickets) := by
  rw [← isExpiredRequest_iff_exact, ← checkRequest_eq_exactOutcome_iff, ← and_imp,
    ← exactOutcome_noErr_iff]
  cases hcheck : checkRequest r ⟨now, now⟩ with
  | some refused =>
      have hrefused := checkRequest_ne_noErr hcheck
      rw [ClassifiesExactly, createTicketBase64_of_refused hcheck]
      constructor
      · rintro ⟨text, file', hcreate, -, -⟩
        rw [Except.ok.injEq, Prod.mk.injEq] at hcreate
        have houtcome := congrArg Prod.fst hcreate.1
        exact ⟨houtcome, fun hnoErr => absurd (houtcome.trans hnoErr) hrefused⟩
      · rintro ⟨houtcome, -⟩
        refine ⟨refused.2, file, ?_, fun _ => rfl, fun hnoErr => ?_⟩
        · rw [← houtcome]
          rfl
        · exact absurd (houtcome.trans hnoErr) hrefused
  | none =>
      obtain ⟨file', hcreate, hfile'⟩ := hfile.createTicketBase64_completes hc hcheck
      rw [ClassifiesExactly, hcreate]
      constructor
      · rintro ⟨text, file'', hsame, -, hgranted⟩
        rw [Except.ok.injEq, Prod.mk.injEq, Prod.mk.injEq] at hsame
        obtain ⟨⟨houtcome, -⟩, rfl⟩ := hsame
        refine ⟨houtcome, fun hnoErr => ?_⟩
        obtain ⟨t, hstored, hfulfils, -⟩ := hgranted hnoErr
        rw [hfile'.findAll_eq, Except.ok.injEq] at hstored
        have ht := List.singleton_inj.mp (List.append_cancel_left hstored)
        rw [room_one_iff]
        exact (congrArg (Int64.toInt ∘ Ticket.ticketId) ht).trans hfulfils.ticketId
      · rintro ⟨houtcome, hroom⟩
        have hnoErr : exactOutcome r now = .noErr := houtcome.symm
        rw [hnoErr]
        refine ⟨_, file', rfl, fun h => absurd rfl h, fun _ => ⟨_, hfile'.findAll_eq, ?_, ?_⟩⟩
        · exact ⟨room_one_iff.mp (hroom hnoErr), rfl, rfl, rfl⟩
        · exact current_newTicket hnoErr

theorem classifiesExactly_iff_day : ClassifiesExactly referenceCodec none [] ⟨1, 5, 1000⟩ 1000 :=
  (classifiesExactly_iff referenceCodec_lawful (holds_none referenceCodec) ⟨1, 5, 1000⟩ 1000).mpr
    ⟨by decide, fun _ _ => room_nil (by decide)⟩

/-- A request for minus one day from the earliest date of all has long expired and is granted. -/
theorem granted_expired :
    ¬ ∀ (c : Codec Empty) (file : TicketFile) (tickets : List Ticket) (r : CreateRequest)
      (now : Int64), c.Lawful → Holds c file tickets → ClassifiesExactly c file tickets r now := by
  intro hall
  have hnew := holds_none referenceCodec
  have hcheck : checkRequest ⟨-1, 5, Int64.minValue⟩ ⟨1000, 1000⟩ = none := by decide
  obtain ⟨file', hcreate, -⟩ := hnew.createTicketBase64_completes referenceCodec_lawful hcheck
  obtain ⟨text, file'', hsame, -, -⟩ := hall referenceCodec none [] ⟨-1, 5, Int64.minValue⟩ 1000
    referenceCodec_lawful hnew
  rw [hcreate, Except.ok.injEq, Prod.mk.injEq, Prod.mk.injEq] at hsame
  exact absurd hsame.1.1 (by decide)

end Ticketing.BackOffice
