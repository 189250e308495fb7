import Ticketing.BackOffice.Ledger
import Ticketing.Library.Refinement
import Ticketing.ReferenceCodec

/-!
# The repository refines a list

The four operations of the repository in any order, with the process stopped and started again
between any two, do to the file and answer what the same operations on a list of tickets do and
answer. What else the document in the file holds stays where it is.
-/

namespace Ticketing.BackOffice

open Refinement

variable {F : Type}

/-- What happens to a repository. A new process finds the file as the old one left it. -/
inductive RepositoryCall where
  | save (ticket : Ticket)
  | findById (id : Int64)
  | findAll
  | getLastTicketId
  | restart

inductive RepositoryAnswer where
  | nothing
  | ticket (found : Option Ticket)
  | tickets (all : List Ticket)
  | id (last : Int64)

/-! ### The two machines -/

/-- A call of the repository whose writes succeed. All that an object of the class keeps is the path
of the file. -/
def callRepository [Double F] (c : Codec F) (file : TicketFile) :
    RepositoryCall → TicketFile × Except JsonError RepositoryAnswer
  | .save ticket =>
      match save c file ticket .completes with
      | .ok file' => (file', .ok .nothing)
      | .error e => (file, .error e)
  | .findById id => (file, (findById c file id).map .ticket)
  | .findAll => (file, (findAll c file).map .tickets)
  | .getLastTicketId => (file, (getLastTicketId c file).map .id)
  | .restart => (file, .ok .nothing)

def callList (tickets : List Ticket) : RepositoryCall → List Ticket × RepositoryAnswer
  | .save ticket => (tickets ++ [ticket], .nothing)
  | .findById id => (tickets, .ticket (tickets.find? fun t => t.ticketId = id))
  | .findAll => (tickets, .tickets tickets)
  | .getLastTicketId => (tickets, .id ((tickets.map Ticket.ticketId).foldl max 0))
  | .restart => (tickets, .nothing)

/-- The tickets that the calls save, in their order. -/
def saved : List RepositoryCall → List Ticket
  | [] => []
  | .save ticket :: calls => ticket :: saved calls
  | _ :: calls => saved calls

theorem final_callList (tickets : List Ticket) (calls : List RepositoryCall) :
    final callList tickets calls = tickets ++ saved calls := by
  induction calls generalizing tickets with
  | nil => exact (List.append_nil tickets).symm
  | cons call calls ih =>
      rw [final_cons, ih]
      cases call with
      | save ticket => exact List.append_assoc tickets [ticket] (saved calls)
      | _ => rfl

theorem foldl_max_ticketId (tickets : List Ticket) :
    (tickets.map Ticket.ticketId).foldl max 0 = lastId tickets := List.foldl_map

/-! ### The simulation -/

def memberOf (c : Codec F) (file : TicketFile) (key : String) : Option (Json F) :=
  match load c file with
  | .ok (.object members) => SortedAssoc.find? key members
  | _ => none

/-- The file has the members of the first one but for the tickets. -/
def SameOthers (c : Codec F) (file₀ file : TicketFile) : Prop :=
  ∀ key, key ≠ "tickets" → memberOf c file key = memberOf c file₀ key

theorem Holds.save_sameOthers {c : Codec F} (hc : c.Lawful) {file : TicketFile}
    {tickets : List Ticket} (h : Holds c file tickets) (t : Ticket) {file' : TicketFile}
    (hsave : save c file t .completes = .ok file') : SameOthers c file file' := by
  obtain ⟨old, members, hload, hcanonical, -, hothers, hsave'⟩ := h.save_eq hc t
  rw [hsave', Except.ok.injEq] at hsave
  intro key hkey
  have hload' : load c file' = .ok (.object members) := by
    rw [← hsave, persist, load, hc.extract_dump4 _ hcanonical]
  simp only [memberOf, hload, hload']
  exact hothers key hkey

/-- The file holds the tickets of the list, and beside them what the first file holds. -/
def Represents (c : Codec F) (file₀ file : TicketFile) (tickets : List Ticket) : Prop :=
  Holds c file tickets ∧ SameOthers c file₀ file

theorem simulates_callList [Double F] {c : Codec F} (hc : c.Lawful) (file₀ : TicketFile) :
    Simulates (Represents c file₀) .ok (callRepository c) callList := by
  rintro file tickets call ⟨hholds, hothers⟩
  cases call with
  | save ticket =>
      obtain ⟨file', hsave, hholds'⟩ := hholds.save_completes hc ticket
      have hothers' := hholds.save_sameOthers hc ticket hsave
      simp only [callRepository, hsave]
      refine ⟨⟨hholds', fun key hkey => ?_⟩, rfl⟩
      rw [hothers' key hkey, hothers key hkey]
  | findById id =>
      refine ⟨⟨hholds, hothers⟩, ?_⟩
      rw [callRepository, hholds.findById_eq]
      rfl
  | findAll =>
      refine ⟨⟨hholds, hothers⟩, ?_⟩
      rw [callRepository, hholds.findAll_eq]
      rfl
  | getLastTicketId =>
      refine ⟨⟨hholds, hothers⟩, ?_⟩
      rw [callRepository, hholds.getLastTicketId_eq, callList, foldl_max_ticketId]
      rfl
  | restart => exact ⟨⟨hholds, hothers⟩, rfl⟩

/-- Every run of calls is answered as by the list that the file holds at first, and leaves a file
that holds that list with the saved tickets behind it and is otherwise unchanged. -/
theorem repository_refines_list [Double F] {c : Codec F} (hc : c.Lawful) {file : TicketFile}
    {tickets : List Ticket} (hfile : Holds c file tickets) (calls : List RepositoryCall) :
    answers (callRepository c) file calls = (answers callList tickets calls).map .ok ∧
      findAll c (final (callRepository c) file calls) = .ok (tickets ++ saved calls) ∧
      ∀ key, key ≠ "tickets" →
        memberOf c (final (callRepository c) file calls) key = memberOf c file key := by
  have hsimulates := simulates_callList hc file
  have hstart : Represents c file file tickets := ⟨hfile, fun _ _ => rfl⟩
  obtain ⟨hholds, hothers⟩ := hsimulates.final hstart calls
  rw [final_callList] at hholds
  exact ⟨hsimulates.answers hstart calls, hholds.findAll_eq, hothers⟩

theorem repository_refines_list_twins :
    answers (callRepository referenceCodec) none
        [.save ⟨3, 1000, 1, 5⟩, .restart, .save ⟨3, 2000, 2, 6⟩, .findById 3, .getLastTicketId] =
      [.ok .nothing, .ok .nothing, .ok .nothing, .ok (.ticket (some ⟨3, 1000, 1, 5⟩)),
        .ok (.id 3)] := by
  have hnew := holds_none referenceCodec
  exact (repository_refines_list referenceCodec_lawful hnew
    [.save ⟨3, 1000, 1, 5⟩, .restart, .save ⟨3, 2000, 2, 6⟩, .findById 3, .getLastTicketId]).1

end Ticketing.BackOffice
