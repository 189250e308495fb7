import Ticketing.BackOffice.Controller
import Ticketing.BackOffice.Expiry

/-!
# Bodies of requests for tickets

The controller turns away a body that is not JSON and leaves all other checking to implicit
conversions. A member that is missing or of the wrong kind makes one of them throw, a boolean or a
fraction is taken for an `int`, and an integer that is too large is cut to size without a word.
-/

namespace Ticketing.BackOffice

open Wrapping

variable {F : Type}

/-! ### Integer requests -/

/-- The members of a body that has integers where the controller reads, whatever their size. -/
structure RequestMembers (members : List (String × Json F))
    (validityInDays lineNumber requestDate : JsonInteger) : Prop where
  validityInDays :
    SortedAssoc.find? "validity_in_days" members = some (.numberInteger validityInDays)
  lineNumber : SortedAssoc.find? "line_number" members = some (.numberInteger lineNumber)
  requestDate : SortedAssoc.find? "request_date" members = some (.numberInteger requestDate)

/-- The body is an object that asks for a ticket with these integers. -/
def AsksFor (c : Codec F) (body : Bytes) (validityInDays lineNumber requestDate : JsonInteger) :
    Prop :=
  ∃ members, c.parse body = some (.object members) ∧
    RequestMembers members validityInDays lineNumber requestDate

/-- What the conversions leave of the three integers. -/
def narrowed (validityInDays lineNumber requestDate : JsonInteger) : CreateRequest :=
  ⟨validityInDays.toInt32, lineNumber.toInt32, requestDate.toInt64⟩

def requestJson (validityInDays lineNumber requestDate : JsonInteger) : Json F :=
  .object [
    ("line_number", .numberInteger lineNumber),
    ("request_date", .numberInteger requestDate),
    ("validity_in_days", .numberInteger validityInDays)]

theorem asksFor_requestJson {c : Codec F} (hc : c.Lawful)
    (validityInDays lineNumber requestDate : JsonInteger) :
    AsksFor c (c.dump (requestJson validityInDays lineNumber requestDate)) validityInDays lineNumber
      requestDate := by
  have hcanonical : (requestJson validityInDays lineNumber requestDate : Json F).Canonical := by
    apply Json.Canonical.object
    · rw [SortedAssoc.Sorted]
      simp (disch := decide) only [List.pairwise_cons, List.mem_cons, forall_eq_or_imp,
        List.not_mem_nil, false_imp_iff, implies_true, List.Pairwise.nil, and_true]
      decide
    · intro p hp
      simp only [List.mem_cons, List.not_mem_nil, or_false] at hp
      rcases hp with rfl | rfl | rfl <;> exact .numberInteger _
  refine ⟨_, hc.parse_dump _ hcanonical, ?_, ?_, ?_⟩ <;>
    simp (disch := decide) only [SortedAssoc.find?_cons_self, SortedAssoc.find?_cons_of_ne]

/-! ### What the controller makes of a body -/

variable [Double F] {c : Codec F} {file : TicketFile} {tickets : List Ticket} {body : Bytes}
variable {clock : CreateClock} {write : Write}

/-- The arguments that the controller passes on for a parsed body. -/
def readRequest (j : Json F) : Except JsonError CreateRequest := do
  let validityInDays ← (← j.indexMut "validity_in_days").getInt32
  let lineNumber ← (← j.indexMut "line_number").getInt32
  let requestDate ← (← j.indexMut "request_date").getInt64
  return ⟨validityInDays, lineNumber, requestDate⟩

theorem readRequest_object {members : List (String × Json F)}
    {validityInDays lineNumber requestDate : JsonInteger}
    (h : RequestMembers members validityInDays lineNumber requestDate) :
    readRequest (.object members) = .ok (narrowed validityInDays lineNumber requestDate) := by
  simp only [readRequest, Json.indexMut, h.validityInDays, h.lineNumber, h.requestDate,
    Option.getD_some, Json.getInt32, Json.getInt64, Except.ok_bind, Except.pure_eq_ok, narrowed]

theorem createTicket_of_malformed (hparse : c.parse body = none) :
    createTicket c file body clock write = .ok (⟨400, ascii "Invalid JSON"⟩, file) := by
  rw [createTicket, hparse]
  rfl

theorem createTicket_of_parsed {j : Json F} (hparse : c.parse body = some j) :
    createTicket c file body clock write = (do
      let r ← readRequest j
      let ((err, result), file) ← createTicketBase64 c file r clock write
      return (if err ≠ .noErr then ⟨400, result⟩ else ⟨201, result⟩, file)) := by
  simp only [createTicket, hparse, readRequest, bind_assoc, pure_bind]

theorem createTicket_of_refused {j : Json F} (hparse : c.parse body = some j) {r : CreateRequest}
    (hread : readRequest j = .ok r) {refused : TicketErrorCode × Bytes}
    (hcheck : checkRequest r clock = some refused) :
    createTicket c file body clock write = .ok (⟨400, refused.2⟩, file) := by
  have hne := checkRequest_ne_noErr hcheck
  rw [createTicket_of_parsed hparse, hread]
  simp only [createTicketBase64_of_refused hcheck, Except.ok_bind, Except.pure_eq_ok, if_pos hne]

theorem createTicket_of_created {j : Json F} (hparse : c.parse body = some j) {r : CreateRequest}
    (hread : readRequest j = .ok r) {encoded : Bytes} {file' : TicketFile}
    (hcreate : createTicketBase64 c file r clock write = .ok ((.noErr, encoded), file')) :
    createTicket c file body clock write = .ok (⟨201, encoded⟩, file') := by
  rw [createTicket_of_parsed hparse, hread]
  simp only [hcreate, Except.ok_bind, Except.pure_eq_ok, ne_eq, not_true_eq_false, if_false]

theorem createTicket_of_asksFor (hfile : Holds c file tickets)
    {validityInDays lineNumber requestDate : JsonInteger}
    (h : AsksFor c body validityInDays lineNumber requestDate) (clock : CreateClock)
    (write : Write) :
    (∃ refused, checkRequest (narrowed validityInDays lineNumber requestDate) clock =
        some refused ∧
      createTicket c file body clock write = .ok (⟨400, refused.2⟩, file)) ∨
    ∃ encoded file', createTicket c file body clock write = .ok (⟨201, encoded⟩, file') := by
  obtain ⟨members, hparse, hmembers⟩ := h
  have hread := readRequest_object hmembers
  cases hcheck : checkRequest (narrowed validityInDays lineNumber requestDate) clock with
  | some refused =>
      exact Or.inl ⟨refused, rfl, createTicket_of_refused hparse hread hcheck⟩
  | none =>
      obtain ⟨file', hcreated⟩ := hfile.createTicketBase64_ok hcheck write
      exact Or.inr ⟨_, file', createTicket_of_created hparse hread hcreated⟩

/-! ### Conversions -/

/-- The value is of a kind that converts to `int`, and this is what the conversion makes of it. -/
inductive ConvertsToInt32 : Json F → Int → Prop
  | boolean (b : Bool) : ConvertsToInt32 (.boolean b) (if b then 1 else 0)
  | numberInteger (z : JsonInteger) : ConvertsToInt32 (.numberInteger z) (z.val.bmod Int32.size)
  | numberFloat (x : F) : ConvertsToInt32 (.numberFloat x) (Double.toInt32 x).toInt

/-- The value is of a kind that converts to `int64_t`, and this is what the conversion makes of
it. -/
inductive ConvertsToInt64 : Json F → Int → Prop
  | numberInteger (z : JsonInteger) : ConvertsToInt64 (.numberInteger z) (z.val.bmod Int64.size)
  | numberFloat (x : F) : ConvertsToInt64 (.numberFloat x) (Double.toInt64 x).toInt

theorem convertsToInt32_iff {j : Json F} {n : Int} :
    ConvertsToInt32 j n ↔ ∃ x, j.getInt32 = .ok x ∧ x.toInt = n := by
  constructor
  · rintro (b | z | x)
    · exact ⟨_, rfl, by cases b <;> rfl⟩
    · exact ⟨_, rfl, Int32.toInt_ofInt⟩
    · exact ⟨_, rfl, rfl⟩
  · rintro ⟨x, hx, rfl⟩
    cases j with
    | boolean b =>
        cases hx
        cases b
        · exact .boolean false
        · exact .boolean true
    | numberInteger z =>
        cases hx
        rw [JsonInteger.toInt32, Int32.toInt_ofInt]
        exact .numberInteger z
    | numberFloat d =>
        cases hx
        exact .numberFloat d
    | _ => cases hx

theorem convertsToInt64_iff {j : Json F} {n : Int} :
    ConvertsToInt64 j n ↔ ∃ x, j.getInt64 = .ok x ∧ x.toInt = n := by
  constructor
  · rintro (z | x)
    · exact ⟨_, rfl, Int64.toInt_ofInt⟩
    · exact ⟨_, rfl, rfl⟩
  · rintro ⟨x, hx, rfl⟩
    cases j with
    | numberInteger z =>
        cases hx
        rw [JsonInteger.toInt64, Int64.toInt_ofInt]
        exact .numberInteger z
    | numberFloat d =>
        cases hx
        exact .numberFloat d
    | _ => cases hx

omit [Double F] in
/-- A missing member is null to the controller, which neither conversion takes. -/
theorem some_of_getD {A : Type} (get : Json F → Except JsonError A)
    (hnull : ∀ x, get .null ≠ .ok x) {found : Option (Json F)} {x : A}
    (h : get (found.getD .null) = .ok x) : ∃ j, found = some j ∧ get j = .ok x := by
  cases found with
  | none => exact absurd h (hnull x)
  | some j => exact ⟨j, rfl, h⟩

/-- The members of a body that convert where the controller reads, with what comes out. -/
structure ConvertibleMembers (members : List (String × Json F))
    (validityInDays lineNumber requestDate : Int) : Prop where
  validityInDays :
    ∃ j, SortedAssoc.find? "validity_in_days" members = some j ∧ ConvertsToInt32 j validityInDays
  lineNumber : ∃ j, SortedAssoc.find? "line_number" members = some j ∧ ConvertsToInt32 j lineNumber
  requestDate :
    ∃ j, SortedAssoc.find? "request_date" members = some j ∧ ConvertsToInt64 j requestDate

theorem object_of_readRequest {j : Json F} {r : CreateRequest} (h : readRequest j = .ok r) :
    ∃ members, j = .object members := by
  cases j with
  | object members => exact ⟨members, rfl⟩
  | _ => cases h

theorem convertibleMembers_iff {members : List (String × Json F)}
    {validityInDays lineNumber requestDate : Int} :
    ConvertibleMembers members validityInDays lineNumber requestDate ↔
      ∃ r, readRequest (.object members) = .ok r ∧ r.validityInDays.toInt = validityInDays ∧
        r.lineNumber.toInt = lineNumber ∧ r.requestDate.toInt = requestDate := by
  constructor
  · rintro ⟨⟨jv, hfindDays, hv⟩, ⟨jl, hfindLine, hl⟩, ⟨jd, hfindDate, hd⟩⟩
    obtain ⟨days, hdays, rfl⟩ := convertsToInt32_iff.mp hv
    obtain ⟨line, hline, rfl⟩ := convertsToInt32_iff.mp hl
    obtain ⟨date, hdate, rfl⟩ := convertsToInt64_iff.mp hd
    refine ⟨⟨days, line, date⟩, ?_, rfl, rfl, rfl⟩
    simp only [readRequest, Json.indexMut, hfindDays, hfindLine, hfindDate, Option.getD_some,
      hdays, hline, hdate, Except.ok_bind, Except.pure_eq_ok]
  · rintro ⟨r, hread, rfl, rfl, rfl⟩
    simp only [readRequest, Json.indexMut, Except.ok_bind, Except.bind_eq_ok_iff] at hread
    obtain ⟨days, hdays, line, hline, date, hdate, hr⟩ := hread
    cases hr
    have hnull : ∀ x, (Json.null : Json F).getInt32 ≠ .ok x := fun x h => by cases h
    have hnull' : ∀ x, (Json.null : Json F).getInt64 ≠ .ok x := fun x h => by cases h
    obtain ⟨jv, hfindDays, hv⟩ := some_of_getD Json.getInt32 hnull hdays
    obtain ⟨jl, hfindLine, hl⟩ := some_of_getD Json.getInt32 hnull hline
    obtain ⟨jd, hfindDate, hd⟩ := some_of_getD Json.getInt64 hnull' hdate
    exact ⟨⟨jv, hfindDays, convertsToInt32_iff.mpr ⟨_, hv, rfl⟩⟩,
      ⟨jl, hfindLine, convertsToInt32_iff.mpr ⟨_, hl, rfl⟩⟩,
      ⟨jd, hfindDate, convertsToInt64_iff.mpr ⟨_, hd, rfl⟩⟩⟩

/-! ### Clean rejection -/

/-- The request ends in 201 or 400, in 400 where the body has not the integers it should have, and
without a ticket the store is as before. -/
def RejectsCleanly (c : Codec F) (file : TicketFile) (body : Bytes) (clock : CreateClock)
    (write : Write) : Prop :=
  ∃ response file', createTicket c file body clock write = .ok (response, file') ∧
    (response.code = 201 ∨ response.code = 400) ∧
    ((¬ ∃ validityInDays lineNumber requestDate,
      AsksFor c body validityInDays lineNumber requestDate) → response.code = 400) ∧
    (response.code ≠ 201 → file' = file)

/-- A request is rejected cleanly exactly if its body is not JSON, or has its three integers, or
converts all the same and is then refused for its dates. -/
theorem rejectsCleanly_iff (hfile : Holds c file tickets) (body : Bytes) (clock : CreateClock)
    (write : Write) :
    RejectsCleanly c file body clock write ↔
      c.parse body = none ∨
      (∃ validityInDays lineNumber requestDate,
        AsksFor c body validityInDays lineNumber requestDate) ∨
      ∃ members validityInDays lineNumber requestDate, c.parse body = some (.object members) ∧
        ConvertibleMembers members validityInDays lineNumber requestDate ∧
        DatesRefused requestDate validityInDays clock := by
  constructor
  · rintro ⟨response, file', hcreate, -, hrejects, -⟩
    cases hparse : c.parse body with
    | none => exact Or.inl rfl
    | some j =>
        right
        cases hread : readRequest j with
        | error e =>
            rw [createTicket_of_parsed hparse, hread] at hcreate
            cases hcreate
        | ok r =>
            cases hcheck : checkRequest r clock with
            | some refused =>
                obtain ⟨members, rfl⟩ := object_of_readRequest hread
                exact Or.inr ⟨members, _, _, _, rfl,
                  convertibleMembers_iff.mpr ⟨r, hread, rfl, rfl, rfl⟩,
                  checkRequest_eq_some_iff.mp ⟨refused, hcheck⟩⟩
            | none =>
                left
                by_contra hnot
                obtain ⟨file'', hcreated⟩ := hfile.createTicketBase64_ok hcheck write
                rw [createTicket_of_created hparse hread hcreated, Except.ok.injEq,
                  Prod.mk.injEq] at hcreate
                have hcode : (201 : Int32) = 400 := by
                  rw [← hrejects hnot, ← hcreate.1]
                exact absurd hcode (by decide)
  · rintro (hparse | ⟨zv, zl, zd, hasks⟩ | ⟨members, _, _, _, hparse, hmembers, hdates⟩)
    · exact ⟨_, file, createTicket_of_malformed hparse, Or.inr rfl, fun _ => rfl, fun _ => rfl⟩
    · rcases createTicket_of_asksFor hfile hasks clock write with
        ⟨refused, -, hcreate⟩ | ⟨encoded, file', hcreate⟩
      · exact ⟨_, file, hcreate, Or.inr rfl, fun _ => rfl, fun _ => rfl⟩
      · exact ⟨_, file', hcreate, Or.inl rfl, fun hnot => absurd ⟨zv, zl, zd, hasks⟩ hnot,
          fun hne => absurd rfl hne⟩
    · obtain ⟨r, hread, rfl, -, rfl⟩ := convertibleMembers_iff.mp hmembers
      obtain ⟨refused, hcheck⟩ := checkRequest_eq_some_iff.mpr hdates
      exact ⟨_, file, createTicket_of_refused hparse hread hcheck, Or.inr rfl, fun _ => rfl,
        fun _ => rfl⟩

theorem rejectsCleanly_iff_day : RejectsCleanly referenceCodec none
    (referenceCodec.dump (requestJson (.ofInt32 1) (.ofInt32 5) (.ofInt64 1000))) ⟨1000, 1001⟩
    .completes :=
  (rejectsCleanly_iff (holds_none referenceCodec) _ _ _).mpr
    (Or.inr (Or.inl ⟨_, _, _, asksFor_requestJson referenceCodec_lawful _ _ _⟩))

/-- The body `[]` is JSON, and asking for a ticket with it ends in an exception. -/
theorem request_throws_on_array :
    ¬ ∀ (c : Codec Empty) (file : TicketFile) (tickets : List Ticket) (body : Bytes)
      (clock : CreateClock) (write : Write), Holds c file tickets →
      RejectsCleanly c file body clock write := by
  intro hall
  have hparse : referenceCodec.parse (referenceCodec.dump (.array [])) = some (.array []) :=
    referenceCodec_lawful.parse_dump _ (.array fun _ h => absurd h List.not_mem_nil)
  obtain ⟨response, file', hcreate, -⟩ := hall referenceCodec none []
    (referenceCodec.dump (.array [])) ⟨1000, 1000⟩ .completes (holds_none referenceCodec)
  rw [createTicket_of_parsed hparse] at hcreate
  cases hcreate

/-! ### Values -/

structure Says (t : Ticket) (validityInDays lineNumber requestDate : JsonInteger) : Prop where
  validityInDays : t.validityInDays.toInt = validityInDays.val
  lineNumber : t.lineNumber.toInt = lineNumber.val
  creationDate : t.creationDate.toInt = requestDate.val

def FitFields (validityInDays lineNumber requestDate : JsonInteger) : Prop :=
  Fits Int32.size validityInDays.val ∧ Fits Int32.size lineNumber.val ∧
    Fits Int64.size requestDate.val

/-- If there is a ticket, the stored one and the one in the response have the three integers; and
there is none where an integer does not fit its field. -/
def KeepsValues (c : Codec F) (file : TicketFile) (tickets : List Ticket) (body : Bytes)
    (clock : CreateClock) (validityInDays lineNumber requestDate : JsonInteger) : Prop :=
  (∀ response file', createTicket c file body clock .completes = .ok (response, file') →
    response.code = 201 → ∃ t, findAll c file' = .ok (tickets ++ [t]) ∧
      Carries c response.body t ∧ Says t validityInDays lineNumber requestDate) ∧
  (¬ FitFields validityInDays lineNumber requestDate →
    ∃ response, createTicket c file body clock .completes = .ok (response, file) ∧
      response.code = 400)

omit [Double F] in
theorem says_newTicket_iff {validityInDays lineNumber requestDate : JsonInteger}
    {lastTicketId : Int64} :
    Says (newTicket (narrowed validityInDays lineNumber requestDate) lastTicketId) validityInDays
        lineNumber requestDate ↔
      FitFields validityInDays lineNumber requestDate := by
  rw [FitFields, ← toInt_ofInt32_iff, ← toInt_ofInt32_iff, ← toInt_ofInt64_iff]
  exact ⟨fun h => ⟨h.validityInDays, h.lineNumber, h.creationDate⟩,
    fun ⟨hvalidity, hline, hdate⟩ => ⟨hvalidity, hline, hdate⟩⟩

omit [Double F] in
theorem checkRequest_narrowed_iff (validityInDays lineNumber requestDate : JsonInteger)
    (clock : CreateClock) :
    (∃ refused, checkRequest (narrowed validityInDays lineNumber requestDate) clock =
        some refused) ↔
      DatesRefused (requestDate.val.bmod Int64.size) (validityInDays.val.bmod Int32.size) clock := by
  rw [checkRequest_eq_some_iff, ← Int64.toInt_ofInt, ← Int32.toInt_ofInt]
  rfl

/-- The values of a request are kept exactly if they all fit, or what is left of them is refused for
its dates. -/
theorem keepsValues_iff (hc : c.Lawful) (hfile : Holds c file tickets)
    {validityInDays lineNumber requestDate : JsonInteger}
    (hasks : AsksFor c body validityInDays lineNumber requestDate) (clock : CreateClock) :
    KeepsValues c file tickets body clock validityInDays lineNumber requestDate ↔
      FitFields validityInDays lineNumber requestDate ∨
        DatesRefused (requestDate.val.bmod Int64.size) (validityInDays.val.bmod Int32.size)
          clock := by
  rw [← checkRequest_narrowed_iff validityInDays lineNumber requestDate clock]
  obtain ⟨members, hparse, hmembers⟩ := hasks
  have hread := readRequest_object hmembers
  cases hcheck : checkRequest (narrowed validityInDays lineNumber requestDate) clock with
  | some refused =>
      refine iff_of_true ⟨?_, fun _ => ?_⟩ (Or.inr ⟨refused, rfl⟩)
      · intro response file' hcreate hcode
        rw [createTicket_of_refused hparse hread hcheck, Except.ok.injEq, Prod.mk.injEq] at hcreate
        rw [← hcreate.1] at hcode
        cases hcode
      · exact ⟨_, createTicket_of_refused hparse hread hcheck, rfl⟩
  | none =>
      obtain ⟨file', hcreated, hfile'⟩ := hfile.createTicketBase64_completes hc hcheck
      have hcreate := createTicket_of_created hparse hread hcreated
      constructor
      · rintro ⟨hkeeps, -⟩
        obtain ⟨t, hstored, -, hsays⟩ := hkeeps _ _ hcreate rfl
        rw [hfile'.findAll_eq, Except.ok.injEq] at hstored
        rw [← List.singleton_inj.mp (List.append_cancel_left hstored)] at hsays
        exact Or.inl (says_newTicket_iff.mp hsays)
      · rintro (hfit | ⟨refused, hrefused⟩)
        · refine ⟨?_, fun hnot => absurd hfit hnot⟩
          intro response file'' hsame _
          rw [hcreate, Except.ok.injEq, Prod.mk.injEq] at hsame
          obtain ⟨rfl, rfl⟩ := hsame
          exact ⟨_, hfile'.findAll_eq, (carries_encodeTicket_iff hc).mpr rfl,
            says_newTicket_iff.mpr hfit⟩
        · cases hrefused

theorem keepsValues_iff_day : KeepsValues referenceCodec none []
    (referenceCodec.dump (requestJson (.ofInt32 1) (.ofInt32 5) (.ofInt64 1000))) ⟨1000, 1001⟩
    (.ofInt32 1) (.ofInt32 5) (.ofInt64 1000) :=
  (keepsValues_iff referenceCodec_lawful (holds_none referenceCodec)
    (asksFor_requestJson referenceCodec_lawful _ _ _) _).mpr
    (Or.inl (show Fits _ _ ∧ Fits _ _ ∧ Fits _ _ by decide))

theorem validity_cut_short :
    ¬ ∀ (c : Codec Empty) (file : TicketFile) (tickets : List Ticket) (body : Bytes)
      (clock : CreateClock) (validityInDays lineNumber requestDate : JsonInteger), c.Lawful →
      Holds c file tickets → AsksFor c body validityInDays lineNumber requestDate →
      KeepsValues c file tickets body clock validityInDays lineNumber requestDate := by
  intro hall
  have hnew := holds_none referenceCodec
  have hasks := asksFor_requestJson referenceCodec_lawful (.ofInt64 4294967297) (.ofInt32 5)
    (.ofInt64 1000)
  obtain ⟨members, hparse, hmembers⟩ := id hasks
  have hcheck : checkRequest (narrowed (.ofInt64 4294967297) (.ofInt32 5) (.ofInt64 1000))
      ⟨1000, 1000⟩ = none := by decide
  obtain ⟨file', hcreated, -⟩ := hnew.createTicketBase64_completes referenceCodec_lawful hcheck
  have hcreate := createTicket_of_created hparse (readRequest_object hmembers) hcreated
  obtain ⟨hkeeps, -⟩ := hall referenceCodec none [] _ ⟨1000, 1000⟩ _ _ _ referenceCodec_lawful
    hnew hasks
  obtain ⟨t, -, hcarries, hsays⟩ := hkeeps _ _ hcreate rfl
  have hdays := hsays.validityInDays
  rw [← (carries_encodeTicket_iff referenceCodec_lawful).mp hcarries] at hdays
  exact absurd hdays (by decide)

end Ticketing.BackOffice
