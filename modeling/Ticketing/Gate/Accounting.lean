import Mathlib.Data.List.Induction
import Ticketing.Gate.TicketProcessor

/-!
# The gate's accounts

Every call of `on_new_ticket` ends in one `record_transaction`, whichever of its three exits it
takes. The counters, the list of validations, the XML report and the snapshot for the retry queue
are all updated there, so that they stay in step over any sequence of calls. The measure they are
compared with is the `tally` of a list of validations.
-/

namespace Ticketing.Gate

variable {F : Type}

/-- The counters of a list of validations, as far as 32 bits hold them. -/
def tally (vs : List TicketValidation) : ValidationStats where
  total := UInt32.ofNat vs.length
  valid := UInt32.ofNat (vs.countP (·.result = .valid))
  invalid := UInt32.ofNat (vs.countP (·.result = .invalid))
  online := UInt32.ofNat (vs.countP (·.strategy = .online))
  offline := UInt32.ofNat (vs.countP (·.strategy = .offline))

theorem tally_concat (vs : List TicketValidation) (v : TicketValidation) :
    tally (vs ++ [v]) = (tally vs).record v := by
  obtain ⟨payload, strategy, result, timestamp⟩ := v
  cases strategy <;> cases result <;>
    simp [tally, ValidationStats.record, List.countP_append, UInt32.ofNat_add]

theorem countP_add_countP_not {α : Type} (p q : α → Bool) (hpq : ∀ x, q x = !p x) (l : List α) :
    l.countP p + l.countP q = l.length := by
  rw [List.length_eq_countP_add_countP p (l := l)]
  congr 1
  apply List.countP_congr
  intro x _
  simp [hpq]

theorem tally_total_eq_results (vs : List TicketValidation) :
    (tally vs).total = (tally vs).valid + (tally vs).invalid := by
  simp only [tally, ← UInt32.ofNat_add]
  rw [countP_add_countP_not]
  intro v
  cases v.result <;> rfl

theorem tally_total_eq_strategies (vs : List TicketValidation) :
    (tally vs).total = (tally vs).online + (tally vs).offline := by
  simp only [tally, ← UInt32.ofNat_add]
  rw [countP_add_countP_not]
  intro v
  cases v.strategy <;> rfl

/-! ### What a validation says -/

theorem validationOf_ticketBase64 (c : Codec F) (payload : Bytes) (env : Surroundings) :
    (validationOf c payload env).ticketBase64 = payload := by
  unfold validationOf
  split
  · rfl
  · split <;> rfl

theorem validationOf_online_iff (c : Codec F) (payload : Bytes) (env : Surroundings) :
    (validationOf c payload env).strategy = .online ↔
      (parseBase64Ticket c payload).isSome ∧ env.response.isSome := by
  unfold validationOf
  split
  · rename_i hparse
    simp [hparse]
  · rename_i t hparse
    split
    · rename_i hresponse
      simp [hresponse]
    · rename_i response hresponse
      simp [hparse, hresponse]

/-- Valid means that the payload parsed, and that the answer was a success or, without an answer,
that the ticket was not expired. -/
theorem validationOf_valid_iff (c : Codec F) (payload : Bytes) (env : Surroundings) :
    (validationOf c payload env).result = .valid ↔
      ∃ t, parseBase64Ticket c payload = some t ∧
        ((∃ response, env.response = some response ∧ 200 ≤ response.statusCode ∧
            response.statusCode < 300) ∨
          (env.response = none ∧ isTicketExpired env.now t = false)) := by
  unfold validationOf
  split
  · rename_i hparse
    simp [hparse]
  · rename_i t hparse
    split
    · rename_i hresponse
      simp [hparse, hresponse]
    · rename_i response hresponse
      simp [hparse, hresponse]

/-! ### Reading a report -/

namespace XmlElement

def name : XmlElement → String
  | .leaf name _ => name
  | .node name _ => name

def children : XmlElement → List XmlElement
  | .leaf _ _ => []
  | .node _ children => children

def child? (e : XmlElement) (name : String) : Option XmlElement :=
  e.children.find? fun child => child.name = name

def text? (e : XmlElement) (name : String) : Option XmlText :=
  match e.child? name with
  | some (.leaf _ text) => some text
  | _ => none

def validations (report : XmlElement) : List XmlElement :=
  match report.child? "Validations" with
  | some e => e.children
  | none => []

/-- The counters of the `Validation` elements of a report, counted by the texts they hold. -/
def tally (report : XmlElement) : ValidationStats where
  total := UInt32.ofNat report.validations.length
  valid :=
    UInt32.ofNat (report.validations.countP (·.text? "Result" = some (.chars (ascii "VALID"))))
  invalid :=
    UInt32.ofNat (report.validations.countP (·.text? "Result" = some (.chars (ascii "INVALID"))))
  online :=
    UInt32.ofNat (report.validations.countP (·.text? "Strategy" = some (.chars (ascii "ONLINE"))))
  offline :=
    UInt32.ofNat (report.validations.countP (·.text? "Strategy" = some (.chars (ascii "OFFLINE"))))

/-- The summary of the report holds these counters. -/
def SummaryIs (report : XmlElement) (stats : ValidationStats) : Prop :=
  ∃ summary, report.child? "Summary" = some summary ∧
    summary.text? "TotalValidations" = some (.unsigned stats.total) ∧
    summary.text? "ValidCount" = some (.unsigned stats.valid) ∧
    summary.text? "InvalidCount" = some (.unsigned stats.invalid) ∧
    summary.text? "OnlineCount" = some (.unsigned stats.online) ∧
    summary.text? "OfflineCount" = some (.unsigned stats.offline)

end XmlElement

theorem validationElement_result (v : TicketValidation) :
    (validationElement v).text? "Result" =
      some (.chars (ascii (if v.result = .valid then "VALID" else "INVALID"))) := rfl

theorem validationElement_strategy (v : TicketValidation) :
    (validationElement v).text? "Strategy" =
      some (.chars (ascii (if v.strategy = .online then "ONLINE" else "OFFLINE"))) := rfl

theorem buildXml_validations (gateId : String) (stats : ValidationStats)
    (vs : List TicketValidation) :
    (buildXml gateId stats vs).validations = vs.map validationElement := rfl

theorem buildXml_summary (gateId : String) (stats : ValidationStats) (vs : List TicketValidation) :
    (buildXml gateId stats vs).SummaryIs stats :=
  ⟨_, rfl, rfl, rfl, rfl, rfl, rfl⟩

/-- The texts of the `Validation` elements tell the validations apart as the fields do. -/
theorem buildXml_tally (gateId : String) (stats : ValidationStats) (vs : List TicketValidation) :
    (buildXml gateId stats vs).tally = tally vs := by
  have hne : ascii "VALID" ≠ ascii "INVALID" := by decide
  have hne' : ascii "ONLINE" ≠ ascii "OFFLINE" := by decide
  have hresult : ∀ v : TicketValidation,
      (validationElement v).text? "Result" = some (.chars (ascii "VALID")) ↔ v.result = .valid := by
    intro v
    rw [validationElement_result]
    cases v.result <;> simp [hne.symm]
  have hresult' : ∀ v : TicketValidation,
      (validationElement v).text? "Result" = some (.chars (ascii "INVALID")) ↔
        v.result = .invalid := by
    intro v
    rw [validationElement_result]
    cases v.result <;> simp [hne]
  have hstrategy : ∀ v : TicketValidation,
      (validationElement v).text? "Strategy" = some (.chars (ascii "ONLINE")) ↔
        v.strategy = .online := by
    intro v
    rw [validationElement_strategy]
    cases v.strategy <;> simp [hne'.symm]
  have hstrategy' : ∀ v : TicketValidation,
      (validationElement v).text? "Strategy" = some (.chars (ascii "OFFLINE")) ↔
        v.strategy = .offline := by
    intro v
    rw [validationElement_strategy]
    cases v.strategy <;> simp [hne']
  simp only [XmlElement.tally, tally, buildXml_validations, List.length_map, List.countP_map,
    Function.comp_def, hresult, hresult', hstrategy, hstrategy']

/-! ### Runs -/

/-- The processor with everything it has handed to the outside, oldest first. -/
structure History where
  processor : TicketProcessor
  reports : List XmlElement := []
  snapshots : List ValidationStats := []

def History.onNewTicket (c : Codec F) (h : History) (call : Bytes × Surroundings) : History :=
  let (p, report, snapshot) := h.processor.onNewTicket c call.1 call.2
  ⟨p, h.reports ++ [report], h.snapshots ++ [snapshot]⟩

theorem History.reports_onNewTicket (c : Codec F) (h : History) (call : Bytes × Surroundings) :
    let p := (h.onNewTicket c call).processor
    (h.onNewTicket c call).reports =
      h.reports ++ [buildXml p.gateId p.stats p.lastValidations] := rfl

/-- The calls in turn, on a processor that has just been made. -/
def serve (c : Codec F) (gateId : String) (calls : List (Bytes × Surroundings)) : History :=
  calls.foldl (History.onNewTicket c) ⟨{ gateId := gateId }, [], []⟩

theorem serve_concat (c : Codec F) (gateId : String) (calls : List (Bytes × Surroundings))
    (call : Bytes × Surroundings) :
    serve c gateId (calls ++ [call]) = (serve c gateId calls).onNewTicket c call := by
  rw [serve, List.foldl_concat, ← serve]

theorem serve_lastValidations (c : Codec F) (gateId : String)
    (calls : List (Bytes × Surroundings)) :
    (serve c gateId calls).processor.lastValidations =
      calls.map fun call => validationOf c call.1 call.2 := by
  induction calls using List.reverseRecOn with
  | nil => rfl
  | append_singleton calls call ih =>
      rw [serve_concat, List.map_append, ← ih]
      rfl

theorem serve_gateId (c : Codec F) (gateId : String) (calls : List (Bytes × Surroundings)) :
    (serve c gateId calls).processor.gateId = gateId := by
  induction calls using List.reverseRecOn with
  | nil => rfl
  | append_singleton calls call ih =>
      rw [serve_concat]
      exact ih

theorem serve_stats (c : Codec F) (gateId : String) (calls : List (Bytes × Surroundings)) :
    (serve c gateId calls).processor.stats =
      tally (serve c gateId calls).processor.lastValidations := by
  induction calls using List.reverseRecOn with
  | nil => rfl
  | append_singleton calls call ih =>
      rw [serve_concat]
      show (serve c gateId calls).processor.stats.record _ =
        tally ((serve c gateId calls).processor.lastValidations ++ [_])
      rw [tally_concat, ih]

/-- What a function makes of the beginnings of a list that grows: what it has made of the old ones,
and what it makes of the whole list. -/
theorem map_take_concat {A B : Type} (f : List A → B) (xs : List A) (x : A) :
    ((List.range (xs.length + 1)).map fun i => f ((xs ++ [x]).take (i + 1))) =
      ((List.range xs.length).map fun i => f (xs.take (i + 1))) ++ [f (xs ++ [x])] := by
  rw [List.range_succ, List.map_append, List.map_singleton]
  congr 1
  · apply List.map_congr_left
    intro i hi
    rw [List.take_append_of_le_length (List.mem_range.mp hi)]
  · rw [List.take_of_length_le]
    rw [List.length_append, List.length_singleton]

theorem length_serve_lastValidations (c : Codec F) (gateId : String)
    (calls : List (Bytes × Surroundings)) :
    (serve c gateId calls).processor.lastValidations.length = calls.length := by
  rw [serve_lastValidations, List.length_map]

theorem serve_lastValidations_concat (c : Codec F) (gateId : String)
    (calls : List (Bytes × Surroundings)) (call : Bytes × Surroundings) :
    (serve c gateId (calls ++ [call])).processor.lastValidations =
      (serve c gateId calls).processor.lastValidations ++ [validationOf c call.1 call.2] := by
  rw [serve_concat]
  rfl

theorem serve_reports_concat (c : Codec F) (gateId : String) (calls : List (Bytes × Surroundings))
    (call : Bytes × Surroundings) :
    let vs := (serve c gateId (calls ++ [call])).processor.lastValidations
    (serve c gateId (calls ++ [call])).reports =
      (serve c gateId calls).reports ++ [buildXml gateId (tally vs) vs] := by
  intro vs
  rw [serve_concat, History.reports_onNewTicket, ← serve_concat, serve_gateId, serve_stats]

theorem serve_reports (c : Codec F) (gateId : String) (calls : List (Bytes × Surroundings)) :
    (serve c gateId calls).reports = (List.range calls.length).map fun i =>
      let vs := (serve c gateId calls).processor.lastValidations.take (i + 1)
      buildXml gateId (tally vs) vs := by
  induction calls using List.reverseRecOn with
  | nil => rfl
  | append_singleton calls call ih =>
      rw [serve_reports_concat, ih, serve_lastValidations_concat, List.length_append,
        List.length_singleton, ← length_serve_lastValidations c gateId calls]
      exact (map_take_concat (fun vs => buildXml gateId (tally vs) vs) _ _).symm

theorem serve_snapshots_concat (c : Codec F) (gateId : String)
    (calls : List (Bytes × Surroundings)) (call : Bytes × Surroundings) :
    (serve c gateId (calls ++ [call])).snapshots = (serve c gateId calls).snapshots ++
      [tally (serve c gateId (calls ++ [call])).processor.lastValidations] := by
  rw [← serve_stats, serve_concat]
  rfl

theorem serve_snapshots (c : Codec F) (gateId : String) (calls : List (Bytes × Surroundings)) :
    (serve c gateId calls).snapshots = (List.range calls.length).map fun i =>
      tally ((serve c gateId calls).processor.lastValidations.take (i + 1)) := by
  induction calls using List.reverseRecOn with
  | nil => rfl
  | append_singleton calls call ih =>
      rw [serve_snapshots_concat, ih, serve_lastValidations_concat, List.length_append,
        List.length_singleton, ← length_serve_lastValidations c gateId calls]
      exact (map_take_concat tally _ _).symm

/-- The accounts of a gate after any sequence of calls. -/
theorem accounts_exact (c : Codec F) (gateId : String) (calls : List (Bytes × Surroundings)) :
    let h := serve c gateId calls
    let entries := h.processor.lastValidations
    entries.length = calls.length ∧
      (∀ (i : Nat) (call : Bytes × Surroundings), calls[i]? = some call →
        ∃ entry, entries[i]? = some entry ∧ entry.ticketBase64 = call.1 ∧
          (entry.strategy = .online ↔
            (parseBase64Ticket c call.1).isSome ∧ call.2.response.isSome) ∧
          (entry.result = .valid ↔
            ∃ t, parseBase64Ticket c call.1 = some t ∧
              ((∃ response, call.2.response = some response ∧ 200 ≤ response.statusCode ∧
                  response.statusCode < 300) ∨
                (call.2.response = none ∧ isTicketExpired call.2.now t = false)))) ∧
      h.processor.stats = tally entries ∧
      h.processor.stats.total = h.processor.stats.valid + h.processor.stats.invalid ∧
      h.processor.stats.total = h.processor.stats.online + h.processor.stats.offline ∧
      h.reports.length = calls.length ∧
      (∀ i < calls.length, ∃ report, h.reports[i]? = some report ∧
        report.validations = (entries.take (i + 1)).map validationElement) ∧
      (∀ report ∈ h.reports, report.SummaryIs report.tally) ∧
      h.snapshots.length = calls.length ∧
      ∀ i < calls.length, h.snapshots[i]? = some (tally (entries.take (i + 1))) := by
  intro h entries
  have hentries : entries = calls.map fun call => validationOf c call.1 call.2 :=
    serve_lastValidations c gateId calls
  have hstats : h.processor.stats = tally entries := serve_stats c gateId calls
  have hreports := serve_reports c gateId calls
  have hsnapshots := serve_snapshots c gateId calls
  refine ⟨length_serve_lastValidations c gateId calls, ?_, hstats, ?_, ?_, ?_, ?_, ?_, ?_, ?_⟩
  · intro i call hcall
    refine ⟨validationOf c call.1 call.2, by rw [hentries, List.getElem?_map, hcall]; rfl,
      validationOf_ticketBase64 c _ _, validationOf_online_iff c _ _, validationOf_valid_iff c _ _⟩
  · rw [hstats]
    exact tally_total_eq_results entries
  · rw [hstats]
    exact tally_total_eq_strategies entries
  · rw [hreports, List.length_map, List.length_range]
  · intro i hi
    refine ⟨buildXml gateId (tally (entries.take (i + 1))) (entries.take (i + 1)), ?_,
      buildXml_validations _ _ _⟩
    rw [hreports, List.getElem?_map, List.getElem?_range hi]
    rfl
  · intro report hreport
    rw [hreports] at hreport
    obtain ⟨i, -, rfl⟩ := List.mem_map.mp hreport
    rw [buildXml_tally]
    exact buildXml_summary _ _ _
  · rw [hsnapshots, List.length_map, List.length_range]
  · intro i hi
    rw [hsnapshots, List.getElem?_map, List.getElem?_range hi]
    rfl

end Ticketing.Gate
