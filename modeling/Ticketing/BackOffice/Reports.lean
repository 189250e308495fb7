import Mathlib.Logic.Function.Basic

/-!
# The transaction tracking service

`back-office/src/TransactionTrackingServiceImpl.cpp`: the last report of every machine, kept in a
map under a mutex. The messages are those of `proto/transaction_tracking.proto`.
-/

namespace Ticketing.BackOffice

structure GateTicketsValidationReport where
  machineId : String
  totalProcessed : Int32
  validCount : Int32
  invalidCount : Int32
  deriving DecidableEq

inductive StatusCode where
  | ok
  | invalidArgument
  | notFound
  deriving DecidableEq

structure Status where
  code : StatusCode
  message : String
  deriving DecidableEq

/-- `m_reports`. -/
abbrev Reports := String → Option GateTicketsValidationReport

/-- A request is a pointer, which may be null. -/
def submitReport (reports : Reports) (request : Option GateTicketsValidationReport) :
    Status × Reports :=
  match request with
  | none => (⟨.invalidArgument, "empty request"⟩, reports)
  | some report =>
      if report.machineId = "" then (⟨.invalidArgument, "machine_id is required"⟩, reports)
      else (⟨.ok, ""⟩, Function.update reports report.machineId (some report))

def getReport (reports : Reports) (machineId : Option String) :
    Status × Option GateTicketsValidationReport :=
  match machineId with
  | none => (⟨.invalidArgument, "empty request"⟩, none)
  | some machineId =>
      if machineId = "" then (⟨.invalidArgument, "machine_id is required"⟩, none)
      else
        match reports machineId with
        | none => (⟨.notFound, "report not found for machine_id: " ++ machineId⟩, none)
        | some report => (⟨.ok, ""⟩, some report)

theorem submitReport_code_eq_ok_iff (reports : Reports) (report : GateTicketsValidationReport) :
    (submitReport reports (some report)).1.code = .ok ↔ report.machineId ≠ "" := by
  unfold submitReport
  by_cases h : report.machineId = "" <;> simp [h]

theorem submitReport_self {reports : Reports} {report : GateTicketsValidationReport}
    (hok : (submitReport reports (some report)).1.code = .ok) :
    (submitReport reports (some report)).2 report.machineId = some report := by
  rw [submitReport_code_eq_ok_iff] at hok
  simp only [submitReport, if_neg hok, Function.update_self]

theorem submitReport_of_ne {reports : Reports} {report : GateTicketsValidationReport}
    {machineId : String} (hne : machineId ≠ report.machineId) :
    (submitReport reports (some report)).2 machineId = reports machineId := by
  unfold submitReport
  by_cases h : report.machineId = ""
  · simp only [if_pos h]
  · simp only [if_neg h, Function.update_of_ne hne]

theorem submitReport_refused {reports : Reports} {request : Option GateTicketsValidationReport}
    (hrefused : (submitReport reports request).1.code ≠ .ok) :
    (submitReport reports request).2 = reports := by
  unfold submitReport at hrefused ⊢
  cases request with
  | none => rfl
  | some report =>
      by_cases h : report.machineId = ""
      · simp only [if_pos h]
      · simp only [if_neg h, ne_eq, not_true_eq_false] at hrefused

/-- What is answered does not depend on the reports that are kept. -/
theorem submitReport_status (reports reports' : Reports)
    (request : Option GateTicketsValidationReport) :
    (submitReport reports request).1 = (submitReport reports' request).1 := by
  unfold submitReport
  cases request with
  | none => rfl
  | some report => by_cases h : report.machineId = "" <;> simp only [h, if_true, if_false]

theorem submitReport_eq_some {reports : Reports} {report kept : GateTicketsValidationReport}
    {machineId : String} (h : (submitReport reports (some report)).2 machineId = some kept) :
    reports machineId = some kept ∨ (machineId = report.machineId ∧ kept = report) := by
  by_cases heq : machineId = report.machineId
  · by_cases hok : (submitReport reports (some report)).1.code = .ok
    · rw [heq, submitReport_self hok, Option.some.injEq] at h
      exact Or.inr ⟨heq, h.symm⟩
    · rw [submitReport_refused hok] at h
      exact Or.inl h
  · rw [submitReport_of_ne heq] at h
    exact Or.inl h

end Ticketing.BackOffice
