import Ticketing.BackOffice.Requests
import Ticketing.Library.StepRun

/-!
# When writing the ticket file goes wrong

`persist` opens the ticket file for writing, which truncates it, writes the new text and looks at
nothing afterwards. This module follows the two ways in which that can go wrong: the process stops
before all of the text is written, and a stream fails without anybody noticing.
-/

namespace Ticketing.BackOffice

open StepRun JsonText

variable {F : Type} [Double F] {c : Codec F}

/-! ### The process stops

Until the file is opened it is the old one. From then on it holds a beginning of the new text, and
only the whole of it is a document. -/

/-- The files that the process can leave when it stops inside `save`. -/
inductive LeftBySave (c : Codec F) (file : TicketFile) (t : Ticket) : TicketFile → Prop
  | beforeOpening : LeftBySave c file t file
  | afterOpening {text written : Bytes} (hsave : save c file t .completes = .ok (some text))
      (hcut : written <+: text) : LeftBySave c file t (some written)

/-- A fresh repository on the file finds the tickets that were stored, perhaps with the new one. -/
def FindsOldOrNew (c : Codec F) (tickets : List Ticket) (t : Ticket) (left : TicketFile) : Prop :=
  ∃ found, findAll c left = .ok found ∧ (found = tickets ∨ found = tickets ++ [t])

theorem leftBySave_first_byte : ∃ file text,
    Holds referenceCodec file [⟨1, 1000, 1, 5⟩] ∧
      save referenceCodec file ⟨2, 2000, 1, 5⟩ .completes = .ok (some text) ∧
      [openBrace] <+: text ∧ LeftBySave referenceCodec file ⟨2, 2000, 1, 5⟩ (some [openBrace]) := by
  have hnew := holds_none referenceCodec
  obtain ⟨file, -, hfile⟩ := hnew.save_completes referenceCodec_lawful ⟨1, 1000, 1, 5⟩
  obtain ⟨-, members, -, -, -, -, hsave⟩ := hfile.save_eq referenceCodec_lawful ⟨2, 2000, 1, 5⟩
  obtain ⟨rest, hrest⟩ := first_printValue_object (.indented 4) 0 members
  have hcut : [openBrace] <+: referenceCodec.dump4 (.object members) := ⟨rest, hrest.symm⟩
  exact ⟨file, _, hfile, hsave .completes, hcut, .afterOpening (hsave .completes) hcut⟩

/-- Stopped after the first byte of the new text, the process has lost the ticket that was stored. -/
theorem stopped_save_loses_tickets : ∃ file,
    Holds referenceCodec file [⟨1, 1000, 1, 5⟩] ∧
      LeftBySave referenceCodec file ⟨2, 2000, 1, 5⟩ (some [openBrace]) ∧
      findAll referenceCodec (some [openBrace]) = .error .parseError ∧
      ¬ FindsOldOrNew referenceCodec [⟨1, 1000, 1, 5⟩] ⟨2, 2000, 1, 5⟩ (some [openBrace]) := by
  obtain ⟨file, text, hfile, -, -, hleft⟩ := leftBySave_first_byte
  have hthrows : findAll referenceCodec (some [openBrace]) = .error .parseError := rfl
  refine ⟨file, hfile, hleft, hthrows, ?_⟩
  rintro ⟨found, hfind, -⟩
  rw [hthrows] at hfind
  cases hfind

/-- Stopped before the file is opened or with the whole text written, `save` leaves the tickets as
they were or with the new one; in between it leaves a text that is no document. -/
theorem stopped_save (hc : c.Lawful) {file : TicketFile} {tickets : List Ticket}
    (hfile : Holds c file tickets) {t : Ticket} {left : TicketFile}
    (hleft : LeftBySave c file t left) :
    (left = file ∧ findAll c left = .ok tickets) ∨
    (save c file t .completes = .ok left ∧ findAll c left = .ok (tickets ++ [t])) ∨
    ∃ text written, save c file t .completes = .ok (some text) ∧ left = some written ∧
      written <+: text ∧ written ≠ text ∧ c.extract written = none := by
  cases hleft with
  | beforeOpening => exact Or.inl ⟨rfl, hfile.findAll_eq⟩
  | @afterOpening text written hsave hcut =>
      obtain ⟨-, members, -, hcanonical, hentries, -, hsave'⟩ := hfile.save_eq hc t
      have htext : c.dump4 (.object members) = text :=
        Option.some.inj (Except.ok.inj ((hsave' .completes).symm.trans hsave))
      right
      by_cases hwhole : written = text
      · have hnew : Holds c (some written) (tickets ++ [t]) := by
          rw [hwhole, ← htext]
          exact ⟨members, hc.extract_dump4 _ hcanonical, hentries⟩
        exact Or.inl ⟨hwhole ▸ hsave, hnew.findAll_eq⟩
      · rw [← htext] at hcut hwhole hsave
        exact Or.inr ⟨_, written, hsave, rfl, hcut, hwhole,
          hc.extract_cut members written hcanonical hcut hwhole⟩

theorem stopped_save_first_byte : ∃ file text,
    Holds referenceCodec file [⟨1, 1000, 1, 5⟩] ∧
      save referenceCodec file ⟨2, 2000, 1, 5⟩ .completes = .ok (some text) ∧
      [openBrace] <+: text ∧ [openBrace] ≠ text ∧ referenceCodec.extract [openBrace] = none := by
  obtain ⟨file, text, hfile, hsave, hcut, hleft⟩ := leftBySave_first_byte
  have hthrows : findAll referenceCodec (some [openBrace]) = .error .parseError := rfl
  rcases stopped_save referenceCodec_lawful hfile hleft with
    ⟨-, hfind⟩ | ⟨-, hfind⟩ | ⟨text', written, hsave', hwritten, -, hne, hextract⟩
  · rw [hthrows] at hfind
    cases hfind
  · rw [hthrows] at hfind
    cases hfind
  · obtain rfl := Option.some.inj hwritten
    rw [hsave, Except.ok.injEq, Option.some.injEq] at hsave'
    exact ⟨file, text, hfile, hsave, hcut, hsave' ▸ hne, hextract⟩

/-! ### A write fails

The caller of `create_ticket_base64` is given a ticket whether the write has succeeded or not. -/

/-- A call of `create_ticket_base64` and what becomes of its write. -/
structure CreateCall where
  request : CreateRequest
  clock : CreateClock
  write : Write

def outcome (c : Codec F) (file : TicketFile) (call : CreateCall) :
    Except JsonError ((TicketErrorCode × Bytes) × TicketFile) :=
  createTicketBase64 c file call.request call.clock call.write

def fileAfter (c : Codec F) (file : TicketFile) (call : CreateCall) : TicketFile :=
  match outcome c file call with
  | .ok (_, file') => file'
  | .error _ => file

def issuedText (c : Codec F) (file : TicketFile) (call : CreateCall) : Option Bytes :=
  match outcome c file call with
  | .ok ((code, text), _) => if code = .noErr then some text else none
  | .error _ => none

def issuedTexts (c : Codec F) : TicketFile → List CreateCall → List Bytes
  | _, [] => []
  | file, call :: calls =>
      (issuedText c file call).toList ++ issuedTexts c (fileAfter c file call) calls

/-- If the call returns a ticket, the file after the call has it under its id. -/
def StoresIssued (c : Codec F) (file : TicketFile) (call : CreateCall) (file' : TicketFile) :
    Prop :=
  ∀ encoded, issuedText c file call = some encoded →
    ∃ t, Carries c encoded t ∧ findById c file' t.ticketId = .ok (some t)

/-- Every ticket that the run returns has been stored, and no two have one id. -/
def HandsOutStored (c : Codec F) (file : TicketFile) (calls : List CreateCall) : Prop :=
  Along (fun file call => some (fileAfter c file call)) (StoresIssued c) file calls ∧
    (issuedTexts c file calls).Pairwise (DifferentIds c)

/-- Every request that passes the checks has its write complete. -/
def WritesComplete (calls : List CreateCall) : Prop :=
  ∀ call ∈ calls, checkRequest call.request call.clock = none → call.write = .completes

theorem outcome_of_refused {file : TicketFile} {call : CreateCall}
    {refused : TicketErrorCode × Bytes} (h : checkRequest call.request call.clock = some refused) :
    fileAfter c file call = file ∧ issuedText c file call = none := by
  have houtcome : outcome c file call = .ok (refused, file) := createTicketBase64_of_refused h _
  rw [fileAfter, issuedText, houtcome]
  exact ⟨rfl, if_neg (checkRequest_ne_noErr h)⟩

theorem outcome_of_accepted {file : TicketFile} {tickets : List Ticket}
    (hfile : Holds c file tickets) {call : CreateCall}
    (hcheck : checkRequest call.request call.clock = none) {file' : TicketFile}
    (hsave : save c file (newTicket call.request (lastId tickets)) call.write = .ok file') :
    fileAfter c file call = file' ∧
      issuedText c file call = some (encodeTicket c (newTicket call.request (lastId tickets))) := by
  have houtcome : outcome c file call =
      .ok ((.noErr, encodeTicket c (newTicket call.request (lastId tickets))), file') :=
    hfile.createTicketBase64_eq hcheck hsave
  rw [fileAfter, issuedText, houtcome]
  exact ⟨rfl, if_pos rfl⟩

theorem not_storesIssued_of_incomplete (hc : c.Lawful) {file : TicketFile} {tickets : List Ticket}
    (hfile : Holds c file tickets) {n : Nat} (hroom : Room (n + 1) tickets) {call : CreateCall}
    (hcheck : checkRequest call.request call.clock = none) (hwrite : call.write ≠ .completes) :
    ¬ StoresIssued c file call (fileAfter c file call) := by
  have hnone : lookupTicket (lastId tickets + 1) tickets = none :=
    KeyedLog.lookup_eq_none_iff.mpr fun _ hr =>
      KeyedLog.key_ne_of_largest_lt hroom.lastId_lt_next hr
  obtain ⟨file', hsave, hfind⟩ : ∃ file',
      save c file (newTicket call.request (lastId tickets)) call.write = .ok file' ∧
        findById c file' (lastId tickets + 1) ≠
          .ok (some (newTicket call.request (lastId tickets))) := by
    cases hw : call.write with
    | openFails =>
        refine ⟨file, hfile.save_openFails hc _, ?_⟩
        rw [hfile.findById_eq, hnone]
        exact nofun
    | stopsShort written =>
        obtain ⟨text, hsave, hextract⟩ :=
          hfile.save_stopsShort hc (newTicket call.request (lastId tickets)) written
        refine ⟨some text, hsave, ?_⟩
        rw [findById, load, hextract]
        intro heq
        cases heq
    | completes => exact absurd hw hwrite
  obtain ⟨hafter, hissued⟩ := outcome_of_accepted hfile hcheck hsave
  intro hstores
  obtain ⟨t, hcarries, hstored⟩ := hstores _ hissued
  rw [hafter, ← (carries_encodeTicket_iff hc).mp hcarries] at hstored
  exact hfind hstored

theorem outcome_of_complete (hc : c.Lawful) {file : TicketFile} {tickets : List Ticket}
    (hfile : Holds c file tickets) {call : CreateCall}
    (hcheck : checkRequest call.request call.clock = none) (hwrite : call.write = .completes) :
    Holds c (fileAfter c file call) (tickets ++ [newTicket call.request (lastId tickets)]) ∧
      issuedText c file call = some (encodeTicket c (newTicket call.request (lastId tickets))) := by
  obtain ⟨file', hsave, hfile'⟩ := hfile.save_completes hc (newTicket call.request (lastId tickets))
  rw [← hwrite] at hsave
  obtain ⟨hafter, hissued⟩ := outcome_of_accepted hfile hcheck hsave
  exact ⟨hafter ▸ hfile', hissued⟩

theorem storesIssued_iff (hc : c.Lawful) {file : TicketFile} {tickets : List Ticket}
    (hfile : Holds c file tickets) {n : Nat} (hroom : Room (n + 1) tickets) (call : CreateCall) :
    StoresIssued c file call (fileAfter c file call) ↔
      (checkRequest call.request call.clock = none → call.write = .completes) := by
  cases hcheck : checkRequest call.request call.clock with
  | some refused =>
      refine ⟨fun _ => nofun, fun _ encoded hencoded => ?_⟩
      rw [(outcome_of_refused hcheck).2] at hencoded
      exact nomatch hencoded
  | none =>
      constructor
      · intro hstores _
        by_contra hwrite
        exact not_storesIssued_of_incomplete hc hfile hroom hcheck hwrite hstores
      · intro hwrite encoded hencoded
        obtain ⟨hfile', hissued⟩ := outcome_of_complete hc hfile hcheck (hwrite rfl)
        obtain rfl := Option.some.inj (hissued.symm.trans hencoded)
        refine ⟨_, (carries_encodeTicket_iff hc).mpr rfl, ?_⟩
        rw [hfile'.findById_eq]
        exact congrArg Except.ok (KeyedLog.lookup_concat_of_largest_lt
          (r := newTicket call.request (lastId tickets)) hroom.lastId_lt_next)

/-- A call whose write completes, where there is one, keeps a ledger in the file. What it returns is
the text of a ticket with the next id, which is the largest from then on. -/
theorem holds_fileAfter (hc : c.Lawful) {file : TicketFile} {tickets : List Ticket}
    (hfile : Holds c file tickets) {n : Nat} (hroom : Room (n + 1) tickets) {call : CreateCall}
    (hwrite : checkRequest call.request call.clock = none → call.write = .completes) :
    ∃ tickets', Holds c (fileAfter c file call) tickets' ∧ Room n tickets' ∧
      lastId tickets ≤ lastId tickets' ∧
      ∀ encoded, issuedText c file call = some encoded →
        ∃ t, encoded = encodeTicket c t ∧ lastId tickets < t.ticketId ∧
          t.ticketId = lastId tickets' := by
  cases hcheck : checkRequest call.request call.clock with
  | some refused =>
      obtain ⟨hafter, hissued⟩ := outcome_of_refused (c := c) hcheck
      refine ⟨tickets, hafter ▸ hfile, hroom.of_le (Nat.le_succ n), le_rfl, fun encoded h => ?_⟩
      rw [hissued] at h
      exact nomatch h
  | none =>
      obtain ⟨hfile', hissued⟩ := outcome_of_complete hc hfile hcheck (hwrite hcheck)
      have hnext := hroom.lastId_concat (newTicket_ticketId call.request (lastId tickets))
      have hlt := hroom.lastId_lt_next
      refine ⟨_, hfile', hroom.concat rfl, hnext ▸ hlt.le, fun encoded h => ?_⟩
      exact ⟨_, Option.some.inj (h.symm.trans hissued), hlt, hnext.symm⟩

theorem along_storesIssued_iff (hc : c.Lawful) {file : TicketFile} {tickets : List Ticket}
    (hfile : Holds c file tickets) {calls : List CreateCall} (hroom : Room calls.length tickets) :
    Along (fun file call => some (fileAfter c file call)) (StoresIssued c) file calls ↔
      WritesComplete calls := by
  induction calls generalizing file tickets with
  | nil => exact ⟨fun _ _ hcall => absurd hcall List.not_mem_nil, fun _ => along_nil _⟩
  | cons call calls ih =>
      rw [along_cons, WritesComplete, List.forall_mem_cons, ← storesIssued_iff hc hfile hroom call]
      simp only [Option.some.injEq, forall_eq']
      apply and_congr_right
      intro hstores
      obtain ⟨tickets', hfile', hroom', -, -⟩ :=
        holds_fileAfter hc hfile hroom ((storesIssued_iff hc hfile hroom call).mp hstores)
      exact ih hfile' hroom'

theorem issuedTexts_of_writesComplete (hc : c.Lawful) {file : TicketFile} {tickets : List Ticket}
    (hfile : Holds c file tickets) {calls : List CreateCall} (hroom : Room calls.length tickets)
    (h : WritesComplete calls) :
    (∀ encoded ∈ issuedTexts c file calls,
      ∃ t, encoded = encodeTicket c t ∧ lastId tickets < t.ticketId) ∧
    (issuedTexts c file calls).Pairwise (DifferentIds c) := by
  induction calls generalizing file tickets with
  | nil => exact ⟨fun _ hencoded => absurd hencoded List.not_mem_nil, List.Pairwise.nil⟩
  | cons call calls ih =>
      obtain ⟨hcomplete, hcalls⟩ := List.forall_mem_cons.mp h
      obtain ⟨tickets', hfile', hroom', hle, hissued⟩ := holds_fileAfter hc hfile hroom hcomplete
      obtain ⟨habove, hpairwise⟩ := ih hfile' hroom' hcalls
      rw [issuedTexts]
      cases htext : issuedText c file call with
      | none =>
          rw [Option.toList_none, List.nil_append]
          refine ⟨fun encoded hencoded => ?_, hpairwise⟩
          obtain ⟨t, rfl, hlt⟩ := habove encoded hencoded
          exact ⟨t, rfl, hle.trans_lt hlt⟩
      | some encoded =>
          obtain ⟨t, rfl, hlt, hlast⟩ := hissued encoded htext
          rw [Option.toList_some, List.singleton_append]
          refine ⟨List.forall_mem_cons.mpr ⟨⟨t, rfl, hlt⟩, fun later hlater => ?_⟩,
            List.pairwise_cons.mpr ⟨fun later hlater => ?_, hpairwise⟩⟩
          · obtain ⟨t', rfl, hlt'⟩ := habove later hlater
            exact ⟨t', rfl, hle.trans_lt hlt'⟩
          · obtain ⟨t', rfl, hlt'⟩ := habove later hlater
            exact (differentIds_encodeTicket_iff hc).mpr (hlast ▸ hlt'.ne)

/-- A run hands out only stored tickets with ids of their own exactly if every request that passes
the checks has its write complete. -/
theorem handsOutStored_iff (hc : c.Lawful) {file : TicketFile} {tickets : List Ticket}
    (hfile : Holds c file tickets) {calls : List CreateCall} (hroom : Room calls.length tickets) :
    HandsOutStored c file calls ↔ WritesComplete calls := by
  rw [HandsOutStored, along_storesIssued_iff hc hfile hroom]
  exact and_iff_left_of_imp fun h => (issuedTexts_of_writesComplete hc hfile hroom h).2

/-- The second write fails: of a request that is refused, which has none, and of one that is not. -/
theorem handsOutStored_iff_two_calls :
    HandsOutStored referenceCodec none
        [⟨⟨1, 5, 1000⟩, ⟨1000, 1001⟩, .completes⟩, ⟨⟨1, 5, 1000⟩, ⟨900, 900⟩, .openFails⟩] ∧
      ¬ HandsOutStored referenceCodec none
        [⟨⟨1, 5, 1000⟩, ⟨1000, 1001⟩, .completes⟩, ⟨⟨1, 5, 1000⟩, ⟨1002, 1002⟩, .openFails⟩] := by
  have hnew := holds_none referenceCodec
  rw [handsOutStored_iff referenceCodec_lawful hnew (room_nil (by decide)),
    handsOutStored_iff referenceCodec_lawful hnew (room_nil (by decide)), WritesComplete,
    WritesComplete]
  decide

/-- A ticket is returned although the ticket file cannot be opened for writing. -/
theorem hands_out_unstored :
    ¬ ∀ (c : Codec Empty) (file : TicketFile) (tickets : List Ticket) (calls : List CreateCall),
      c.Lawful → Holds c file tickets → Room calls.length tickets →
      HandsOutStored c file calls := by
  intro hall
  have hnew := holds_none referenceCodec
  have hroom : Room 1 [] := room_nil (by decide)
  have hstores := (hall referenceCodec none [] [⟨⟨1, 5, 1000⟩, ⟨1000, 1001⟩, .openFails⟩]
    referenceCodec_lawful hnew hroom).1 _ rfl
  exact not_storesIssued_of_incomplete referenceCodec_lawful hnew (n := 0) hroom rfl
    (by decide) hstores.1

end Ticketing.BackOffice
