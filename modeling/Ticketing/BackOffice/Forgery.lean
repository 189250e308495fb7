import Ticketing.BackOffice.Requests

/-!
# Payloads that disagree with the stored ticket

A payload should validate only if it carries what the stored ticket with its id says. The service
takes the id from the payload and everything else from the stored ticket; no other member of the
payload is looked at, and the error code for a wrong line is never used. So the answer depends on
the payload only through the id that it claims. Every text that names the id of a stored ticket
which has not expired validates, whatever else it says.
-/

namespace Ticketing.BackOffice

variable {F : Type} [Double F] {c : Codec F}

/-- The id that `int64_t ticket_id = j["ticket_id"]` makes of the payload. -/
def claimedId (c : Codec F) (payload : Bytes) : Option Int64 :=
  (c.parse (c.base64decode payload)).bind fun j =>
    ((j.indexMut "ticket_id").bind fun member => member.getInt64).toOption

/-- If the payload validates, it carries the stored ticket with its id. -/
def AcceptsOnlyGenuine (c : Codec F) (file : TicketFile) (payload : Bytes) (now : Int64) : Prop :=
  ∀ result, validateTicketBase64 c file payload now = .ok (.noErr, result) →
    ∃ t, findById c file t.ticketId = .ok (some t) ∧ Carries c payload t

/-- The payload names a stored ticket that has not expired and disagrees with it elsewhere. -/
def Forged (c : Codec F) (file : TicketFile) (payload : Bytes) (now : Int64) : Prop :=
  ∃ id t, claimedId c payload = some id ∧ findById c file id = .ok (some t) ∧
    isExpired now t = false ∧ ¬ Carries c payload t

/-! ### What the answer depends on -/

theorem claimedId_eq_some_iff {payload : Bytes} {id : Int64} :
    claimedId c payload = some id ↔ ∃ j member, c.parse (c.base64decode payload) = some j ∧
      j.indexMut "ticket_id" = .ok member ∧ member.getInt64 = .ok id := by
  rw [claimedId, Option.bind_eq_some_iff]
  apply exists_congr
  intro j
  rw [Except.toOption_eq_some_iff]
  show _ ∧ (j.indexMut "ticket_id" >>= fun member => member.getInt64) = .ok id ↔ _
  rw [Except.bind_eq_ok_iff, exists_and_left]

theorem claimedId_of_carries {payload : Bytes} {t : Ticket} (h : Carries c payload t) :
    claimedId c payload = some t.ticketId := by
  obtain ⟨j, hparse, members, rfl, hmembers⟩ := h
  refine claimedId_eq_some_iff.mpr ⟨_, _, hparse, rfl, ?_⟩
  rw [hmembers.ticketId, Option.getD_some, Json.getInt64_ofInt64]

theorem validateTicketBase64_of_claimedId {payload : Bytes} {id : Int64}
    (h : claimedId c payload = some id) (file : TicketFile) (now : Int64) :
    validateTicketBase64 c file payload now = (findById c file id).map (verdict now id) := by
  obtain ⟨j, member, hparse, hindex, hget⟩ := claimedId_eq_some_iff.mp h
  simp only [validateTicketBase64, hparse, hindex, hget, Except.ok_bind, Except.pure_eq_ok]
  cases findById c file id <;> rfl

theorem Holds.validate_of_claimedId {file : TicketFile} {tickets : List Ticket}
    (hfile : Holds c file tickets) {payload : Bytes} {id : Int64}
    (h : claimedId c payload = some id) (now : Int64) :
    validateTicketBase64 c file payload now = .ok (verdict now id (lookupTicket id tickets)) := by
  rw [validateTicketBase64_of_claimedId h, hfile.findById_eq]
  rfl

theorem answer_of_parsed {payload : Bytes} {j : Json F}
    (hparse : c.parse (c.base64decode payload) = some j) {file : TicketFile} {now : Int64}
    {answer : TicketErrorCode × Json F}
    (h : validateTicketBase64 c file payload now = .ok answer) :
    ∃ id found, claimedId c payload = some id ∧ findById c file id = .ok found ∧
      verdict now id found = answer := by
  simp only [validateTicketBase64, hparse, Except.bind_eq_ok_iff] at h
  obtain ⟨member, hindex, id, hget, found, hfind, hverdict⟩ := h
  exact ⟨id, found, claimedId_eq_some_iff.mpr ⟨j, member, hparse, hindex, hget⟩, hfind,
    Except.ok.inj hverdict⟩

theorem claimedId_of_validate {payload : Bytes} {file : TicketFile} {now : Int64} {result : Json F}
    (h : validateTicketBase64 c file payload now = .ok (.noErr, result)) :
    ∃ id, claimedId c payload = some id := by
  cases hparse : c.parse (c.base64decode payload) with
  | none =>
      rw [validateTicketBase64, hparse] at h
      cases h
  | some j =>
      obtain ⟨id, -, hid, -⟩ := answer_of_parsed hparse h
      exact ⟨id, hid⟩

theorem validateTicketBase64_noErr_iff (file : TicketFile) (payload : Bytes) (now : Int64) :
    (∃ result, validateTicketBase64 c file payload now = .ok (.noErr, result)) ↔
      ∃ id t, claimedId c payload = some id ∧ findById c file id = .ok (some t) ∧
        isExpired now t = false := by
  constructor
  · rintro ⟨result, hvalidate⟩
    obtain ⟨id, hid⟩ := claimedId_of_validate hvalidate
    rw [validateTicketBase64_of_claimedId hid] at hvalidate
    cases hfind : findById c file id with
    | error e =>
        rw [hfind] at hvalidate
        exact nomatch hvalidate
    | ok found =>
        rw [hfind] at hvalidate
        obtain ⟨t, rfl, hexpired⟩ :=
          verdict_noErr_iff.mp (congrArg Prod.fst (Except.ok.inj hvalidate))
        exact ⟨id, t, hid, hfind, hexpired⟩
  · rintro ⟨id, t, hid, hfind, hexpired⟩
    refine ⟨validated id, ?_⟩
    rw [validateTicketBase64_of_claimedId hid, hfind, Except.map, verdict, hexpired]
    rfl

/-! ### When a payload is accepted -/

theorem AcceptsOnlyGenuine.not_forged {file : TicketFile} {payload : Bytes} {now : Int64}
    (h : AcceptsOnlyGenuine c file payload now) : ¬ Forged c file payload now := by
  rintro ⟨id, t, hid, hfind, hexpired, hcarries⟩
  obtain ⟨result, hvalidate⟩ :=
    (validateTicketBase64_noErr_iff _ _ _).mpr ⟨id, t, hid, hfind, hexpired⟩
  obtain ⟨t', hfind', hcarries'⟩ := h result hvalidate
  rw [claimedId_of_carries hcarries', Option.some.injEq] at hid
  rw [hid, hfind, Except.ok.injEq, Option.some.injEq] at hfind'
  exact hcarries (hfind' ▸ hcarries')

/-- In every store that requests lead to, the service accepts only genuine payloads unless the
payload is forged, and a forged one it accepts. -/
theorem acceptsOnlyGenuine_iff (hc : c.Lawful) {file : TicketFile} {tickets : List Ticket}
    (hfile : Holds c file tickets) (requests : List Request) (payload : Bytes) (now : Int64) :
    AcceptsOnlyGenuine c (serveAll c file requests) payload now ↔
      ¬ Forged c (serveAll c file requests) payload now := by
  refine ⟨AcceptsOnlyGenuine.not_forged, fun hnot result hvalidate => ?_⟩
  obtain ⟨more, hreached, -⟩ := hfile.serveAll hc requests
  obtain ⟨id, t, hid, hfind, hexpired⟩ :=
    (validateTicketBase64_noErr_iff _ _ _).mp ⟨result, hvalidate⟩
  have hlookup := hfind
  rw [hreached.findById_eq, Except.ok.injEq] at hlookup
  have hkey : t.ticketId = id := KeyedLog.key_of_lookup hlookup
  refine ⟨t, hkey ▸ hfind, ?_⟩
  by_contra hcarries
  exact hnot ⟨id, t, hid, hfind, hexpired, hcarries⟩

/-- With the ticket 1 for one day on line 5 in the store, a payload that says that ticket 1 is for
9999 days on line 99 is forged. -/
theorem forged_nines :
    Forged referenceCodec (serveAll referenceCodec none [.create ⟨1, 5, 1000⟩ ⟨1000, 1001⟩])
      (encodeTicket referenceCodec ⟨1, 1000, 9999, 99⟩) 2000 := by
  have hnew := holds_none referenceCodec
  have hcheck : checkRequest ⟨1, 5, 1000⟩ ⟨1000, 1001⟩ = none := rfl
  obtain ⟨file', hcreate, hfile'⟩ := hnew.createTicketBase64_completes referenceCodec_lawful hcheck
  have hserve : serveAll referenceCodec none [.create ⟨1, 5, 1000⟩ ⟨1000, 1001⟩] = file' := by
    rw [serveAll, List.foldl_cons, List.foldl_nil, serve, hcreate]
  rw [hserve]
  refine ⟨1, ⟨1, 1000, 1, 5⟩, ?_, hfile'.findById_eq 1, by decide, ?_⟩
  · exact claimedId_of_carries ((carries_encodeTicket_iff referenceCodec_lawful).mpr rfl)
  · rw [carries_encodeTicket_iff referenceCodec_lawful]
    decide

theorem acceptsOnlyGenuine_iff_nines :
    ¬ AcceptsOnlyGenuine referenceCodec
      (serveAll referenceCodec none [.create ⟨1, 5, 1000⟩ ⟨1000, 1001⟩])
      (encodeTicket referenceCodec ⟨1, 1000, 9999, 99⟩) 2000 := by
  have hnew := holds_none referenceCodec
  rw [acceptsOnlyGenuine_iff referenceCodec_lawful hnew, not_not]
  exact forged_nines

theorem accepts_forged :
    ¬ ∀ (c : Codec Empty) (file : TicketFile) (tickets : List Ticket) (requests : List Request)
      (payload : Bytes) (now : Int64), c.Lawful → Holds c file tickets →
      AcceptsOnlyGenuine c (serveAll c file requests) payload now := by
  intro hall
  have hnew := holds_none referenceCodec
  have haccepts := hall referenceCodec none [] [.create ⟨1, 5, 1000⟩ ⟨1000, 1001⟩]
    (encodeTicket referenceCodec ⟨1, 1000, 9999, 99⟩) 2000 referenceCodec_lawful hnew
  exact haccepts.not_forged forged_nines

end Ticketing.BackOffice
