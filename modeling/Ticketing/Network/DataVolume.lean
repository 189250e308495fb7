import Ticketing.BackOffice.Server
import Ticketing.Gate.Accounting
import Ticketing.Network.Convergence

/-!
# The directory that the programs share

`docker-compose.yml` mounts one directory as `/data` in the container of the back office and in that
of every gate. The back office keeps its tickets there; a gate writes the report of its validations
there after each of them, as `persist_xml_report` of `gate/src/TicketProcessor.cpp` does it: the
whole text anew, with no look at what becomes of it. How tinyxml2 prints a document is a parameter.

No program takes any notice of the others' files. So each finds its own file as if it had the
directory to itself, and a report that has been cut short lasts until the next validation only.
-/

namespace Ticketing.Network

open Refinement BackOffice Gate

/-! ### Paths -/

/-- `TICKETS_FILE_PATH` -/
def ticketsPath : String := "/data/" ++ "tickets.json"

def reportPath (gateId : String) : String := "/data/" ++ (gateId ++ ".xml")

variable {GateName : Type*} {ids : GateName → String} {File : Type*} {resolve : String → File}

/-- The names in `/data` that the programs use. -/
def usedNames (ids : GateName → String) : Set String :=
  insert "tickets.json" (Set.range fun g => ids g ++ ".xml")

/-- Looking up a path leads to a file, and the names that are used in `/data` to different ones. -/
def TellsApart (resolve : String → File) (ids : GateName → String) : Prop :=
  Set.InjOn (fun name => resolve ("/data/" ++ name)) (usedNames ids)

theorem tickets_ne_xml (gateId : String) : "tickets.json" ≠ gateId ++ ".xml" := by
  intro heq
  have hlast := congrArg (fun s : String => s.toList.getLast?) heq
  simp [String.toList_append, List.getLast?_append] at hlast

theorem TellsApart.report_ne_tickets (h : TellsApart resolve ids) (g : GateName) :
    resolve (reportPath (ids g)) ≠ resolve ticketsPath := by
  intro heq
  have hreport : ids g ++ ".xml" ∈ usedNames ids := Set.mem_insert_of_mem _ ⟨g, rfl⟩
  exact tickets_ne_xml (ids g) (h (Set.mem_insert _ _) hreport heq.symm)

theorem TellsApart.reportPath_inj (h : TellsApart resolve ids) (hids : Function.Injective ids)
    {g g' : GateName} (heq : resolve (reportPath (ids g)) = resolve (reportPath (ids g'))) :
    g = g' := by
  have hname : ids g ++ ".xml" = ids g' ++ ".xml" :=
    h (Set.mem_insert_of_mem _ ⟨g, rfl⟩) (Set.mem_insert_of_mem _ ⟨g', rfl⟩) heq
  have hlist := congrArg String.toList hname
  rw [String.toList_append, String.toList_append] at hlist
  exact hids (String.toList_inj.mp (List.append_cancel_right hlist))

/-- One step on the way along a path, in a file system without links. -/
def follow (place : List (List Char)) (name : List Char) : List (List Char) :=
  if name = [] ∨ name = ['.'] then place
  else if name = ['.', '.'] then place.dropLast
  else place ++ [name]

/-- The place that an absolute path leads to. -/
def followPath (path : String) : List (List Char) := (path.toList.splitOn '/').foldl follow []

theorem followPath_data {name : String} (hslash : '/' ∉ name.toList) (hlong : 2 < name.length) :
    followPath ("/data/" ++ name) = [['d', 'a', 't', 'a'], name.toList] := by
  have hpath : ("/data/" ++ name).toList = ['/', 'd', 'a', 't', 'a'] ++ '/' :: name.toList :=
    String.toList_append
  have hdata : ['/', 'd', 'a', 't', 'a'].splitOn '/' = [[], ['d', 'a', 't', 'a']] := by decide
  rw [← String.length_toList] at hlong
  have hname (short : List Char) (hshort : short.length ≤ 2) : name.toList ≠ short := by
    rintro rfl
    omega
  rw [followPath, hpath, List.splitOn_append_cons_self, hdata, List.splitOn_eq_singleton hslash]
  simp [follow, hname [] (by decide), hname ['.'] (by decide), hname ['.', '.'] (by decide)]

/-- Such a file system tells the names apart if no gate has a slash in its id. -/
theorem tellsApart_followPath (hslash : ∀ g, '/' ∉ (ids g).toList) :
    TellsApart followPath ids := by
  have hused : ∀ name ∈ usedNames ids, '/' ∉ name.toList ∧ 2 < name.length := by
    intro name hname
    rcases hname with rfl | ⟨g, rfl⟩
    · decide
    · rw [String.toList_append, List.mem_append, String.length_append]
      refine ⟨fun hmem => ?_, Nat.lt_add_left _ (by decide)⟩
      exact hmem.elim (hslash g) (by decide)
  intro name hname name' hname' heq
  obtain ⟨hplain, hlong⟩ := hused name hname
  obtain ⟨hplain', hlong'⟩ := hused name' hname'
  dsimp only at heq
  rw [followPath_data hplain hlong, followPath_data hplain' hlong'] at heq
  exact String.toList_inj.mp (List.cons.inj (List.cons.inj heq).2).1

/-! ### Reports on disk -/

variable {F : Type}

/-- Whether the file could be opened, and the file afterwards. -/
def persistXmlReport (file : Option Bytes) (xml : Bytes) : Write → Bool × Option Bytes
  | .openFails => (false, file)
  | .stopsShort written => (true, some (xml.dropLast.take written))
  | .completes => (true, some xml)

/-- A call of `on_new_ticket`, with what becomes of the write of the report. -/
structure TicketCall where
  payload : Bytes
  env : Surroundings
  write : Write

structure ReportingGate where
  processor : TicketProcessor
  report : Option Bytes

/-- The text of a report, which reaches `persist_xml_report` by way of `CStr()`. -/
def reportText (print : XmlElement → Bytes) (report : XmlElement) : Bytes := cStr (print report)

def ReportingGate.onNewTicket (c : Codec F) (print : XmlElement → Bytes) (r : ReportingGate)
    (call : TicketCall) : ReportingGate × Unit :=
  let (p, report, _) := r.processor.onNewTicket c call.payload call.env
  -- `build_and_persist_xml` does not look at the result
  let (_, file) := persistXmlReport r.report (reportText print report) call.write
  (⟨p, file⟩, ())

/-- A text as tinyxml2 writes it. -/
def escapeXml (s : Bytes) : Bytes :=
  s.flatMap fun b =>
    if b = 38 then ascii "&amp;" else if b = 60 then ascii "&lt;"
    else if b = 62 then ascii "&gt;" else [b]

def printText : XmlText → Bytes
  | .chars s => escapeXml s
  | .unsigned n => ascii (toString n.toNat)
  | .unsigned64 n => ascii (toString n.toNat)

def newLine (depth : Nat) : Bytes := 10 :: List.replicate (4 * depth) 32

mutual

/-- An element as `XMLPrinter` prints it: its elements are indented, its text is not. -/
def printElement (depth : Nat) : XmlElement → Bytes
  | .leaf name text =>
      ascii ("<" ++ name ++ ">") ++ printText text ++ ascii ("</" ++ name ++ ">")
  | .node name [] => ascii ("<" ++ name ++ "/>")
  | .node name (child :: children) =>
      ascii ("<" ++ name ++ ">") ++ printElements (depth + 1) (child :: children) ++
        newLine depth ++ ascii ("</" ++ name ++ ">")

def printElements (depth : Nat) : List XmlElement → Bytes
  | [] => []
  | child :: children => newLine depth ++ printElement depth child ++ printElements depth children

end

def printXml (root : XmlElement) : Bytes := printElement 0 root ++ ascii "\n"

/-! ### The shared directory -/

variable [DecidableEq GateName] [DecidableEq File]

/-- What the programs keep in memory between two calls, and what is in the files. The back office
keeps nothing. -/
structure DataVolume (GateName File : Type*) where
  processors : GateName → TicketProcessor
  files : File → Option Bytes

inductive Operation (GateName : Type*) where
  | request (q : HttpRequest)
  | newTicket (g : GateName) (call : TicketCall)

def DataVolume.reportFile (resolve : String → File) (d : DataVolume GateName File)
    (g : GateName) : File := resolve (reportPath (d.processors g).gateId)

def DataVolume.gate (resolve : String → File) (g : GateName) (d : DataVolume GateName File) :
    ReportingGate := ⟨d.processors g, d.files (d.reportFile resolve g)⟩

def DataVolume.tickets (resolve : String → File) (d : DataVolume GateName File) : TicketFile :=
  d.files (resolve ticketsPath)

/-- One call of one program. Only a request has a response. -/
def perform [Double F] (c : Codec F) (print : XmlElement → Bytes) (resolve : String → File)
    (d : DataVolume GateName File) :
    Operation GateName → DataVolume GateName File × Option (Except JsonError Response)
  | .request q =>
      let (file, answer) := handle c (d.tickets resolve) q
      ({ d with files := Function.update d.files (resolve ticketsPath) file }, some answer)
  | .newTicket g call =>
      let (r, _) := (d.gate resolve g).onNewTicket c print call
      ({ processors := Function.update d.processors g r.processor
         files := Function.update d.files (d.reportFile resolve g) r.report }, none)

def Operation.request? : Operation GateName → Option HttpRequest
  | .request q => some q
  | .newTicket _ _ => none

def Operation.callOf? (g : GateName) : Operation GateName → Option TicketCall
  | .request _ => none
  | .newTicket g' call => if g' = g then some call else none

def Named (ids : GateName → String) (d : DataVolume GateName File) : Prop :=
  ∀ g, (d.processors g).gateId = ids g

theorem ReportingGate.onNewTicket_gateId (c : Codec F) (print : XmlElement → Bytes)
    (r : ReportingGate) (call : TicketCall) :
    (r.onNewTicket c print call).1.processor.gateId = r.processor.gateId := rfl

section Components

variable [Double F] {c : Codec F} {print : XmlElement → Bytes}

theorem Named.perform {d : DataVolume GateName File} (h : Named ids d) (op : Operation GateName) :
    Named ids (perform c print resolve d op).1 := by
  cases op with
  | request q => exact h
  | newTicket g call =>
      exact (Function.forall_update_iff d.processors fun g p => p.gateId = ids g).mpr
        ⟨h g, fun g' _ => h g'⟩

theorem component_backOffice (hresolve : TellsApart resolve ids) :
    Component (Named ids) (DataVolume.tickets resolve) Operation.request? some
      (perform c print resolve) (handle c) where
  kept d op h := h.perform op
  own_part d op q _ hop := by
    cases op with
    | request q' =>
        obtain rfl := Option.some.inj hop
        exact Function.update_self _ _ _
    | newTicket g call => cases hop
  own_answer d op q _ hop := by
    cases op with
    | request q' =>
        obtain rfl := Option.some.inj hop
        rfl
    | newTicket g call => cases hop
  other_part d op h hop := by
    cases op with
    | request q => cases hop
    | newTicket g call =>
        have hne := hresolve.report_ne_tickets g
        rw [← h g] at hne
        exact Function.update_of_ne hne.symm _ _

theorem component_gate (hresolve : TellsApart resolve ids) (hids : Function.Injective ids)
    (g : GateName) :
    Component (Named ids) (DataVolume.gate resolve g) (Operation.callOf? g) (fun _ => none)
      (perform c print resolve) (ReportingGate.onNewTicket c print) where
  kept d op h := h.perform op
  own_part d op call _ hop := by
    cases op with
    | request q => cases hop
    | newTicket g' call' =>
        rw [Operation.callOf?] at hop
        split at hop
        · rename_i hg
          obtain rfl := Option.some.inj hop
          subst hg
          simp only [perform, DataVolume.gate, DataVolume.reportFile, Function.update_self,
            ReportingGate.onNewTicket_gateId]
        · cases hop
  own_answer d op call _ hop := by
    cases op with
    | request q => cases hop
    | newTicket g' call' => rfl
  other_part d op h hop := by
    cases op with
    | request q =>
        have hne := hresolve.report_ne_tickets g
        rw [← h g] at hne
        simp only [perform, DataVolume.gate, DataVolume.reportFile, Function.update_of_ne hne]
    | newTicket g' call =>
        have hg : g ≠ g' := by
          rintro rfl
          simp [Operation.callOf?] at hop
        have hne : resolve (reportPath (d.processors g).gateId) ≠
            resolve (reportPath (d.processors g').gateId) := by
          rw [h g, h g']
          exact fun heq => hg (hresolve.reportPath_inj hids heq)
        simp only [perform, DataVolume.gate, DataVolume.reportFile, Function.update_of_ne hg,
          Function.update_of_ne hne]

variable (c print) in
/-- However the calls of the programs are interleaved in the shared directory: the back office
answers and leaves the ticket file as if there were no gates, and every gate records and leaves its
report as if there was nobody else. -/
theorem programs_undisturbed (hresolve : TellsApart resolve ids) (hids : Function.Injective ids)
    {d : DataVolume GateName File} (hnamed : Named ids d) (ops : List (Operation GateName)) :
    ownAnswers (perform c print resolve) Operation.request? d ops =
        (answers (handle c) (d.tickets resolve) (ops.filterMap Operation.request?)).map some ∧
      (final (perform c print resolve) d ops).tickets resolve =
        final (handle c) (d.tickets resolve) (ops.filterMap Operation.request?) ∧
      ∀ g, (final (perform c print resolve) d ops).gate resolve g =
        final (ReportingGate.onNewTicket c print) (d.gate resolve g)
          (ops.filterMap (Operation.callOf? g)) := by
  have hback : Component (Named ids) (DataVolume.tickets resolve) Operation.request? some
      (perform c print resolve) (handle c) := component_backOffice hresolve
  exact ⟨hback.answers hnamed ops, hback.final hnamed ops,
    fun g => (component_gate hresolve hids g).final hnamed ops⟩

omit [DecidableEq File] [DecidableEq GateName] [Double F] in
theorem tellsApart_twoGates : TellsApart followPath twoGates :=
  tellsApart_followPath fun b => by cases b <;> decide

def newVolume : DataVolume Bool (List (List Char)) where
  processors b := { gateId := twoGates b }
  files _ := none

theorem programs_undisturbed_two_gates :
    (final (perform referenceCodec printXml followPath) newVolume
        [.newTicket true ⟨ascii "a", ⟨none, 0, 1⟩, .completes⟩,
          .request (.createTicket dayBody ⟨1000, 1001⟩ .completes),
          .newTicket false ⟨ascii "b", ⟨none, 2, 2⟩, .stopsShort 9⟩]).tickets followPath =
      final (handle referenceCodec) none [.createTicket dayBody ⟨1000, 1001⟩ .completes] :=
  have hnamed : Named twoGates newVolume := fun _ => rfl
  (programs_undisturbed referenceCodec printXml tellsApart_twoGates twoGates_injective
    hnamed _).2.1

/-! ### The report of a gate -/

def validationsOf (c : Codec F) (calls : List TicketCall) : List TicketValidation :=
  calls.map fun call => validationOf c call.payload call.env

omit [Double F] in
theorem final_processor (gateId : String) (file : Option Bytes) (calls : List TicketCall) :
    (final (ReportingGate.onNewTicket c print) ⟨{ gateId := gateId }, file⟩ calls).processor =
      ⟨gateId, tally (validationsOf c calls), validationsOf c calls⟩ := by
  induction calls using List.reverseRecOn with
  | nil => rfl
  | append_singleton calls call ih =>
      have hconcat : validationsOf c (calls ++ [call]) =
          validationsOf c calls ++ [validationOf c call.payload call.env] := List.map_append
      rw [final, List.foldl_concat, ← final, hconcat, tally_concat]
      simp only [ReportingGate.onNewTicket, ih]
      rfl

omit [Double F] in
theorem final_of_openFails {r : ReportingGate} {calls : List TicketCall}
    (h : ∀ call ∈ calls, call.write = .openFails) :
    (final (ReportingGate.onNewTicket c print) r calls).report = r.report := by
  induction calls generalizing r with
  | nil => rfl
  | cons call calls ih =>
      obtain ⟨hcall, hcalls⟩ := List.forall_mem_cons.mp h
      rw [final_cons, ih hcalls, ReportingGate.onNewTicket, hcall]
      rfl

omit [Double F] in
theorem report_of_call (gateId : String) (file : Option Bytes) (before : List TicketCall)
    (call : TicketCall) :
    (final (ReportingGate.onNewTicket c print) ⟨{ gateId := gateId }, file⟩
        (before ++ [call])).report =
      (persistXmlReport
        (final (ReportingGate.onNewTicket c print) ⟨{ gateId := gateId }, file⟩ before).report
        (reportText print (buildXml gateId (tally (validationsOf c (before ++ [call])))
          (validationsOf c (before ++ [call])))) call.write).2 := by
  have hconcat : validationsOf c (before ++ [call]) =
      validationsOf c before ++ [validationOf c call.payload call.env] := List.map_append
  rw [final, List.foldl_concat, ← final, hconcat, tally_concat]
  simp only [ReportingGate.onNewTicket, final_processor]
  rfl

variable (c print) in
/-- The file for the reports of a gate holds what the last call left there that could open it: the
report on all validations of the gate up to that call, or as much of it as was written. Whatever has
become of the writes before does not matter, nor do the other programs. -/
theorem report_file_of_last_write (hresolve : TellsApart resolve ids)
    (hids : Function.Injective ids) {d : DataVolume GateName File}
    (hnew : ∀ g, d.processors g = { gateId := ids g }) {ops : List (Operation GateName)}
    {g : GateName} {before after : List TicketCall} {call : TicketCall}
    (hcalls : ops.filterMap (Operation.callOf? g) = before ++ call :: after)
    (hafter : ∀ later ∈ after, later.write = .openFails) :
    let vs := validationsOf c (before ++ [call])
    let text := reportText print (buildXml (ids g) (tally vs) vs)
    let file := (final (perform c print resolve) d ops).files (resolve (reportPath (ids g)))
    (call.write = .completes → file = some text) ∧
      ∀ written, call.write = .stopsShort written → file = some (text.dropLast.take written) := by
  intro vs text file
  have hnamed : Named ids d := fun g => by rw [hnew g]
  have hgate : (final (perform c print resolve) d ops).gate resolve g =
      final (ReportingGate.onNewTicket c print) (d.gate resolve g) (before ++ call :: after) :=
    hcalls ▸ (component_gate hresolve hids g).final hnamed ops
  have hstart : d.gate resolve g = ⟨{ gateId := ids g }, (d.gate resolve g).report⟩ := by
    rw [DataVolume.gate, hnew g]
  rw [hstart] at hgate
  have hid : ((final (perform c print resolve) d ops).processors g).gateId = ids g := by
    have hprocessor := congrArg (fun r : ReportingGate => r.processor.gateId) hgate
    rwa [final_processor] at hprocessor
  have hfile : file = ((final (perform c print resolve) d ops).gate resolve g).report := by
    rw [DataVolume.gate, DataVolume.reportFile, hid]
  rw [hfile, hgate, List.append_cons, final, List.foldl_append, ← final, ← final,
    final_of_openFails hafter, report_of_call]
  constructor
  · intro hwrite
    rw [hwrite]
    rfl
  · intro written hwrite
    rw [hwrite]
    rfl

/-- Of three writes the first stops short and the last fails. -/
theorem report_file_of_last_write_second_of_three :
    let first : TicketCall := ⟨ascii "a", ⟨none, 0, 1⟩, .stopsShort 9⟩
    let second : TicketCall := ⟨ascii "b", ⟨none, 2, 2⟩, .completes⟩
    let vs := validationsOf referenceCodec [first, second]
    (final (perform referenceCodec printXml followPath) newVolume
        [.newTicket true first, .newTicket false second, .newTicket true second,
          .newTicket true ⟨ascii "c", ⟨none, 3, 3⟩, .openFails⟩]).files
        (followPath (reportPath "GATE-1")) =
      some (reportText printXml (buildXml "GATE-1" (tally vs) vs)) := by
  intro first second vs
  have hcalls : [.newTicket true first, .newTicket false second, .newTicket true second,
      .newTicket true ⟨ascii "c", ⟨none, 3, 3⟩, .openFails⟩].filterMap (Operation.callOf? true) =
      [first] ++ second :: [⟨ascii "c", ⟨none, 3, 3⟩, .openFails⟩] := rfl
  have hafter : ∀ later ∈ [(⟨ascii "c", ⟨none, 3, 3⟩, .openFails⟩ : TicketCall)],
      later.write = .openFails := by
    intro later hlater
    rw [List.mem_singleton.mp hlater]
  have hnew : ∀ g, newVolume.processors g = { gateId := twoGates g } := fun _ => rfl
  exact (report_file_of_last_write referenceCodec printXml tellsApart_twoGates twoGates_injective
    hnew hcalls hafter).1 rfl

end Components

end Ticketing.Network
