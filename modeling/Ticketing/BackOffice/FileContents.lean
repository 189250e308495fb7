import Ticketing.BackOffice.Ledger
import Ticketing.ReferenceCodec

/-!
# Arbitrary contents of the ticket file

The repository has a branch for malformed JSON, but reads with `>>`, which throws before that branch
and which stops after the first value and so takes some malformed texts for what they begin with. A
document of another shape makes `operator[]` or a conversion fail. So the repository can be used on
those files only in which all entries can be read.
-/

namespace Ticketing.BackOffice

variable {F : Type}

/-! ### Entries that can be read -/

/-- The value converts to `int64_t`. -/
def IsNumber : Json F → Prop
  | .numberInteger _ | .numberFloat _ => True
  | _ => False

/-- The value converts to `int`. -/
def IsNumberOrBoolean : Json F → Prop
  | .boolean _ | .numberInteger _ | .numberFloat _ => True
  | _ => False

def Readable (entry : Json F) : Prop :=
  ∃ members ticketId creationDate validityInDays lineNumber, entry = .object members ∧
    SortedAssoc.find? "ticket_id" members = some ticketId ∧ IsNumber ticketId ∧
    SortedAssoc.find? "creation_date" members = some creationDate ∧ IsNumber creationDate ∧
    SortedAssoc.find? "validity_in_days" members = some validityInDays ∧
    IsNumberOrBoolean validityInDays ∧
    SortedAssoc.find? "line_number" members = some lineNumber ∧ IsNumberOrBoolean lineNumber

theorem index_eq_ok_iff {j v : Json F} {key : String} :
    j.index key = .ok v ↔
      ∃ members, j = .object members ∧ SortedAssoc.find? key members = some v := by
  cases j with
  | object members =>
      cases hfind : SortedAssoc.find? key members <;> simp [Json.index, hfind]
  | _ => simp [Json.index]

variable [Double F]

theorem getInt64_ok_iff {j : Json F} : (∃ x, j.getInt64 = .ok x) ↔ IsNumber j := by
  cases j <;> simp [Json.getInt64, IsNumber]

theorem getInt32_ok_iff {j : Json F} : (∃ x, j.getInt32 = .ok x) ↔ IsNumberOrBoolean j := by
  cases j <;> simp [Json.getInt32, IsNumberOrBoolean]

theorem readable_iff {entry : Json F} : Readable entry ↔ ∃ t, readTicket entry = .ok t := by
  constructor
  · rintro ⟨members, vi, vd, vv, vl, rfl, hi, hni, hd, hnd, hv, hnv, hl, hnl⟩
    obtain ⟨id, hid⟩ := getInt64_ok_iff.mpr hni
    obtain ⟨date, hdate⟩ := getInt64_ok_iff.mpr hnd
    obtain ⟨days, hdays⟩ := getInt32_ok_iff.mpr hnv
    obtain ⟨line, hline⟩ := getInt32_ok_iff.mpr hnl
    refine ⟨⟨id, date, days, line⟩, ?_⟩
    simp only [readTicket, Json.index_object hi, Json.index_object hd, Json.index_object hv,
      Json.index_object hl, hid, hdate, hdays, hline, Except.ok_bind, Except.pure_eq_ok]
  · rintro ⟨t, h⟩
    simp only [readTicket, Except.bind_eq_ok_iff] at h
    obtain ⟨vi, hi, id, hid, vd, hd, date, hdate, vv, hv, days, hdays, vl, hl, line, hline, -⟩ := h
    obtain ⟨members, rfl, hfindId⟩ := index_eq_ok_iff.mp hi
    obtain ⟨_, ⟨⟩, hfindDate⟩ := index_eq_ok_iff.mp hd
    obtain ⟨_, ⟨⟩, hfindDays⟩ := index_eq_ok_iff.mp hv
    obtain ⟨_, ⟨⟩, hfindLine⟩ := index_eq_ok_iff.mp hl
    exact ⟨members, vi, vd, vv, vl, rfl, hfindId, getInt64_ok_iff.mp ⟨id, hid⟩, hfindDate,
      getInt64_ok_iff.mp ⟨date, hdate⟩, hfindDays, getInt32_ok_iff.mp ⟨days, hdays⟩, hfindLine,
      getInt32_ok_iff.mp ⟨line, hline⟩⟩

/-! ### The loops over readable entries -/

def HasId (entry : Json F) (id : Int64) : Prop :=
  ∃ members v, entry = .object members ∧ SortedAssoc.find? "ticket_id" members = some v ∧
    v.eqInt64 id = true

theorem findIn_ok {entries : List (Json F)} (h : ∀ entry ∈ entries, Readable entry) (id : Int64) :
    ∃ found, findIn id entries = .ok found := by
  induction entries with
  | nil => exact ⟨none, rfl⟩
  | cons entry entries ih =>
      obtain ⟨hentry, hentries⟩ := List.forall_mem_cons.mp h
      obtain ⟨t, ht⟩ := readable_iff.mp hentry
      obtain ⟨members, vi, -, -, -, rfl, hi, -⟩ := hentry
      rw [findIn, Json.index_object hi, Except.ok_bind, ht]
      split
      · exact ⟨some t, rfl⟩
      · exact ih hentries

theorem findIn_append {before after : List (Json F)} {entry : Json F} {t : Ticket}
    (hbefore : ∀ e ∈ before, Readable e) (hids : ∀ e ∈ before, ¬ HasId e t.ticketId)
    (hentry : DescribesTicket entry t) :
    findIn t.ticketId (before ++ entry :: after) = .ok (some t) := by
  induction before with
  | nil =>
      rw [List.nil_append, findIn, hentry.index_ticketId, Except.ok_bind, Json.eqInt64_ofInt64,
        readTicket_of_describes hentry, if_pos (beq_self_eq_true _)]
      rfl
  | cons e before ih =>
      obtain ⟨he, hreadable⟩ := List.forall_mem_cons.mp hbefore
      obtain ⟨hid, hothers⟩ := List.forall_mem_cons.mp hids
      obtain ⟨members, vi, -, -, -, rfl, hi, -⟩ := he
      have hne : ¬ vi.eqInt64 t.ticketId = true := fun heq => hid ⟨members, vi, rfl, hi, heq⟩
      rw [List.cons_append, findIn, Json.index_object hi, Except.ok_bind, if_neg hne]
      exact ih hreadable hothers

theorem foldlM_ok {entries : List (Json F)} (h : ∀ entry ∈ entries, Readable entry)
    (floor : Int64) :
    ∃ last, entries.foldlM (fun maxId t => return max maxId (← (← t.index "ticket_id").getInt64))
      floor = (.ok last : Except JsonError Int64) := by
  induction entries generalizing floor with
  | nil => exact ⟨floor, rfl⟩
  | cons entry entries ih =>
      obtain ⟨hentry, hentries⟩ := List.forall_mem_cons.mp h
      obtain ⟨members, vi, -, -, -, rfl, hi, hni, -⟩ := hentry
      obtain ⟨id, hid⟩ := getInt64_ok_iff.mpr hni
      rw [List.foldlM_cons, Json.index_object hi]
      simp only [Except.ok_bind, hid, Except.pure_eq_ok]
      exact ih hentries _

/-! ### Tolerance -/

/-- With this text in the file every operation that reads ends without an exception, a text that is
not JSON is as good as no file, and a well-formed entry that comes first with its id is found, be
the others as they may. -/
structure Tolerates (c : Codec F) (text : Bytes) : Prop where
  findById_ok : ∀ id, ∃ found, findById c (some text) id = .ok found
  findAll_ok : ∃ all, findAll c (some text) = .ok all
  getLastTicketId_ok : ∃ last, getLastTicketId c (some text) = .ok last
  malformed : c.parse text = none → (∀ id, findById c (some text) id = .ok none) ∧
    findAll c (some text) = .ok [] ∧ getLastTicketId c (some text) = .ok 0
  finds : ∀ document tickets before entry after t, c.extract text = some document →
    document.indexMut "tickets" = .ok tickets → tickets.elements = before ++ entry :: after →
    (∀ e ∈ before, ¬ HasId e t.ticketId) → DescribesTicket entry t →
    findById c (some text) t.ticketId = .ok (some t)

/-- The repository tolerates exactly the texts that begin with a document whose entries can all be
read, and of those that are not JSON as a whole the ones without entries. -/
theorem tolerates_iff (c : Codec F) (text : Bytes) :
    Tolerates c text ↔
      ∃ document tickets, c.extract text = some document ∧
        document.indexMut "tickets" = .ok tickets ∧
        (∀ entry ∈ tickets.elements, Readable entry) ∧
        (c.parse text = none → tickets.elements = []) := by
  have hload : ∀ document, c.extract text = some document → load c (some text) = .ok document := by
    intro document hextract
    rw [load, hextract]
  constructor
  · intro h
    obtain ⟨all, hall⟩ := h.findAll_ok
    rw [findAll, Except.bind_eq_ok_iff] at hall
    obtain ⟨document, hdocument, hall⟩ := hall
    rw [Except.bind_eq_ok_iff] at hall
    obtain ⟨tickets, hindex, hall⟩ := hall
    have hextract : c.extract text = some document := by
      rw [load] at hdocument
      split at hdocument
      · cases hdocument
      · rename_i hsome
        rw [hsome, Except.ok.inj hdocument]
    refine ⟨document, tickets, hextract, hindex, ?_, fun hparse => ?_⟩
    · simp only [readable_iff]
      exact Except.mapM_ok_iff.mp ⟨all, hall⟩
    · obtain ⟨-, hempty, -⟩ := h.malformed hparse
      simp only [findAll, hload document hextract, hindex, Except.ok_bind] at hempty
      exact List.forall₂_nil_right_iff.mp (Except.mapM_eq_ok_iff.mp hempty)
  · rintro ⟨document, tickets, hextract, hindex, hreadable, hempty⟩
    refine ⟨fun id => ?_, ?_, ?_, fun hparse => ?_, ?_⟩
    · simp only [findById, hload document hextract, hindex, Except.ok_bind]
      exact findIn_ok hreadable id
    · simp only [findAll, hload document hextract, hindex, Except.ok_bind]
      simp only [readable_iff] at hreadable
      exact Except.mapM_ok_iff.mpr hreadable
    · simp only [getLastTicketId, hload document hextract, hindex, Except.ok_bind]
      exact foldlM_ok hreadable 0
    · simp only [findById, findAll, getLastTicketId, hload document hextract, hindex,
        Except.ok_bind, hempty hparse]
      exact ⟨fun _ => rfl, rfl, rfl⟩
    · intro document' tickets' before entry after t hextract' hindex' hsplit hids hentry
      rw [hextract, Option.some.injEq] at hextract'
      subst hextract'
      rw [hindex, Except.ok.injEq] at hindex'
      subst hindex'
      simp only [findById, hload document hextract, hindex, Except.ok_bind, hsplit]
      apply findIn_append (fun e he => hreadable e ?_) hids hentry
      rw [hsplit]
      exact List.mem_append_left _ he

/-- An empty file is not taken for an empty store. -/
theorem throws_on_empty_file :
    ¬ ∀ (c : Codec Empty) (text : Bytes), c.Lawful → Tolerates c text := by
  intro hall
  obtain ⟨all, hfindAll⟩ := (hall referenceCodec [] referenceCodec_lawful).findAll_ok
  cases hfindAll

end Ticketing.BackOffice
