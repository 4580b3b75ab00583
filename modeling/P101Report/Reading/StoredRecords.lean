import P101Report.Model.Lifecycle
import P101Report.Output.MermaidReport
import P101Report.Reading.Numbering

/-!
# The stored events are the accepted records

The number of an event is computed before its line is accepted, from the counter of accepted
records. Since the counter and the stored events grow together, the stored events are the accepted
records in file order, each numbered by its position (`StoresRecords`, `StoresCalls`), and neither a
rollback nor finalization writes them (`rollbackFailedExec_keeps`, `finalizeLeaks_onlyInterns`).
-/

set_option autoImplicit false

namespace P101Report

open Decimal

variable {lib : ToolEventLib}

/-- The state in which a run reads its logs: a zeroed model with its run model. -/
def startState (health : lib.HealthInner) (runModel : Option lib.RunModel) (err : ErrState) :
    State lib :=
  ⟨{ ReportModel.zeroed lib health with runModel }, err⟩

/-- The record of a read that the library's parser accepts. -/
def LineRead.record (lib : ToolEventLib) (read : LineRead) : ToolEventRecord :=
  match read.status with
  | .line text => (lib.parseLine text).2
  | _ => {}

/-- The record that a read of this status adds to the accepted ones. -/
def acceptedOf (lib : ToolEventLib) (status : LineStatus) (read : LineRead) :
    List ToolEventRecord :=
  if status = .ok then [read.record lib] else []

/-- The accepted records of a log, in file order. -/
def accepted (status : State lib → LineRead → LineStatus)
    (step : State lib → LineRead → State lib) :
    State lib → List LineRead → List ToolEventRecord
  | _, [] => []
  | st, read :: rest =>
    acceptedOf lib (status st read) read ++ accepted status step (step st read) rest

/-- The stored resource events are these records, numbered from `1`. -/
structure StoresRecords (model : ReportModel lib) (records : List ToolEventRecord) : Prop where
  counter : model.resourceRecords = records.length
  length : model.resources.items.length = records.length
  stored : ∀ {i : Nat} {record : ToolEventRecord}, records[i]? = some record →
    ∃ site, model.resources.items[i]? = some (.ofRecord record (i + 1) site) ∧
      model.sites.items[site]? = some record.site

/-- The stored call events are these records, numbered from `1`. -/
structure StoresCalls (model : ReportModel lib) (records : List ToolEventRecord) : Prop where
  counter : model.callRecords = records.length
  stored : model.calls.items = records.mapIdx fun i record => CallEvent.ofRecord record (i + 1)

/-! ## The accepted records are stored -/

/-- The stored events stay the records while sites are interned. -/
theorem StoresRecords.of_grown {model model' : ReportModel lib} {records : List ToolEventRecord}
    (h : StoresRecords model records) (hcounter : model'.resourceRecords = model.resourceRecords)
    (hresources : model'.resources.items = model.resources.items)
    (hsites : model.sites.items <+: model'.sites.items) : StoresRecords model' records := by
  refine ⟨hcounter.trans h.counter, by rw [hresources, h.length], ?_⟩
  intro i record hrecord
  obtain ⟨site, hstored, hsite⟩ := h.stored hrecord
  exact ⟨site, by rw [hresources, hstored], getElem?_of_grown hsites hsite⟩

theorem StoresCalls.of_eq {model model' : ReportModel lib} {records : List ToolEventRecord}
    (h : StoresCalls model records) (hcounter : model'.callRecords = model.callRecords)
    (hcalls : model'.calls = model.calls) : StoresCalls model' records :=
  ⟨hcounter.trans h.counter, by rw [hcalls, h.stored]⟩

/-- The event of the next record is stored behind the others. -/
theorem StoresRecords.concat {model model' : ReportModel lib} {records : List ToolEventRecord}
    {record : ToolEventRecord} {site : Nat} (h : StoresRecords model records)
    (hcounter : model'.resourceRecords = model.resourceRecords + 1)
    (hresources : model'.resources.items =
      model.resources.items ++ [.ofRecord record (model.resourceRecords + 1) site])
    (hsites : model.sites.items <+: model'.sites.items)
    (hsite : model'.sites.items[site]? = some record.site) :
    StoresRecords model' (records ++ [record]) := by
  refine ⟨by simp [hcounter, h.counter], by simp [hresources, h.length], ?_⟩
  intro i last hlast
  rcases Nat.lt_or_ge i records.length with hlt | hge
  · -- one of the earlier records
    rw [List.getElem?_append_left hlt] at hlast
    obtain ⟨site', hstored, hsite'⟩ := h.stored hlast
    refine ⟨site', ?_, getElem?_of_grown hsites hsite'⟩
    rw [hresources, List.getElem?_append_left (by rw [h.length]; exact hlt), hstored]
  · obtain ⟨hlt, -⟩ := List.getElem?_eq_some_iff.1 hlast
    rw [List.length_append, List.length_singleton] at hlt
    obtain rfl : i = records.length := by omega
    rw [List.getElem?_concat_length, Option.some.injEq] at hlast
    subst hlast
    refine ⟨site, ?_, hsite⟩
    rw [hresources, ← h.length, List.getElem?_concat_length, h.counter, h.length]

theorem countResource_stores {status : LineStatus} {event : ResourceEvent} {st : State lib}
    (h : (countResource status event st).err.error = false) :
    (countResource status event st).model.sites = st.model.sites ∧
      (countResource status event st).model.resources.items =
        st.model.resources.items ++ if status = .ok then [event] else [] := by
  cases status with
  | ok =>
    rw [countResource] at h ⊢
    obtain ⟨hsites, -⟩ := ingestResource_frame
      { st with model := { st.model with resourceRecords := st.model.resourceRecords + 1 } } event
    obtain ⟨-, htables⟩ := ingestResource_tables event _ h
    have hresources := congrArg Tables.resources htables
    dsimp only at hresources
    rw [Tables.ingest_resources] at hresources
    exact ⟨hsites, hresources⟩
  | _ => exact ⟨rfl, (List.append_nil _).symm⟩

theorem readResourceLine_stores {text : List UInt8} {st : State lib}
    {records : List ToolEventRecord} (h : (readResourceLine text st).err.error = false)
    (hnamed : SitesNamed st.model) (hstores : StoresRecords st.model records) :
    let status := (parseResourceLine text (st.model.resourceRecords + 1) st).1
    SitesGrow st.model (readResourceLine text st).model ∧
      StoresRecords (readResourceLine text st).model
        (records ++ if status = .ok then [(lib.parseLine text).2] else []) := by
  have hparse : (parseResourceLine text (st.model.resourceRecords + 1) st).2.2.err.error = false :=
    countResource_sticky _ _ _ h
  obtain ⟨hframe, -⟩ := parseResourceLine_frame text (st.model.resourceRecords + 1) st
  obtain ⟨hgrow, hevent⟩ := parseResourceLine_ok hnamed hparse
  dsimp only
  rw [readResourceLine] at h ⊢
  generalize parseResourceLine text (st.model.resourceRecords + 1) st = parsed
    at h hframe hgrow hevent ⊢
  obtain ⟨status, event, st'⟩ := parsed
  dsimp only at h hframe hgrow hevent ⊢
  obtain ⟨hsites, hresources⟩ := countResource_stores h
  obtain ⟨hcounts, -, -⟩ := countResource_counts status event st'
  have hcounter : (countResource status event st').model.resourceRecords = _ :=
    congrArg Counts.records hcounts
  have hgrow' : SitesGrow st.model (countResource status event st').model :=
    hgrow.trans (.of_eq hgrow.named hsites)
  -- parsing has changed neither the counter nor the stored events
  have hrecords : st'.model.records.resourceCounts.records = st.model.resourceRecords := by
    rw [hframe]
    rfl
  have hbefore : st'.model.resources = st.model.resources := by rw [hframe]
  refine ⟨hgrow', ?_⟩
  by_cases hok : status = .ok
  · obtain ⟨site, rfl, hsite⟩ := hevent hok
    rw [if_pos hok] at hresources ⊢
    rw [hbefore] at hresources
    apply hstores.concat _ hresources hgrow'.grown (by rw [hsites, hsite])
    rw [hcounter, hok, Counts.add]
    exact congrArg (· + 1) hrecords
  · rw [if_neg hok, List.append_nil] at hresources ⊢
    apply hstores.of_grown _ (by rw [hresources, hbefore]) hgrow'.grown
    rw [hcounter]
    cases status with
    | ok => exact absurd rfl hok
    | _ => exact hrecords

/-- Without an error the read itself has raised none. -/
theorem readStep_raised {onMalformed : State lib → State lib}
    {onLine : List UInt8 → State lib → State lib} (hmalformed : Sticky onMalformed)
    (hline : ∀ text, Sticky (onLine text)) {st : State lib} {read : LineRead}
    (h : (readStep onMalformed onLine st read).err.error = false) :
    st.raiseIf read.raised = st := by
  apply (@raiseIf_ok lib read.raised st _).2
  dsimp only [readStep] at h
  cases hstatus : read.status with
  | error => simpa only [hstatus] using h
  | malformed =>
    simp only [hstatus] at h
    exact hmalformed _ h
  | line text =>
    simp only [hstatus] at h
    exact hline text _ h

/-- **A resource line.** Without an error it adds its record when it is accepted, and nothing
otherwise. -/
theorem resourceStep_stores {st : State lib} {read : LineRead} {records : List ToolEventRecord}
    (hread : read.status ≠ .error) (h : (resourceStep st read).err.error = false)
    (hnamed : SitesNamed st.model) (hstores : StoresRecords st.model records) :
    SitesGrow st.model (resourceStep st read).model ∧
      StoresRecords (resourceStep st read).model
        (records ++ acceptedOf lib (resourceStatus st read) read) := by
  have hraised := readStep_raised (countResource_sticky _ _) readResourceLine_sticky h
  rw [resourceStep, readStep] at h ⊢
  rw [resourceStatus, acceptedOf, LineRead.record]
  simp only [hraised] at h ⊢
  cases hstatus : read.status with
  | error => exact absurd hstatus hread
  | malformed =>
    simp only [hstatus, reduceCtorEq, if_false, List.append_nil] at h ⊢
    exact ⟨.of_eq hnamed rfl, hstores.of_grown rfl rfl List.prefix_rfl⟩
  | line text =>
    simp only [hstatus] at h ⊢
    exact readResourceLine_stores h hnamed hstores

theorem countCall_stores {status : LineStatus} {event : CallEvent} {st : State lib}
    (h : (countCall status event st).err.error = false) :
    (countCall status event st).model.calls.items =
      st.model.calls.items ++ if status = .ok then [event] else [] := by
  cases status with
  | ok =>
    rw [countCall] at h ⊢
    exact (addCall_ok event h).2.2
  | _ => exact (List.append_nil _).symm

theorem readCallLine_stores {text : List UInt8} {st : State lib}
    {records : List ToolEventRecord} (h : (readCallLine text st).err.error = false)
    (hstores : StoresCalls st.model records) :
    let status := (parseCallLine text (st.model.callRecords + 1) st).1
    StoresCalls (readCallLine text st).model
      (records ++ if status = .ok then [(lib.parseLine text).2] else []) := by
  obtain ⟨hframe, -, hevent⟩ := parseCallLine_ok text (st.model.callRecords + 1) st
  dsimp only
  rw [readCallLine] at h ⊢
  generalize parseCallLine text (st.model.callRecords + 1) st = parsed at h hframe hevent ⊢
  obtain ⟨status, event, st'⟩ := parsed
  dsimp only at h hframe hevent ⊢
  have hcalls := countCall_stores h
  have hcounter : (countCall status event st').model.callRecords = _ :=
    congrArg Counts.records (countCall_counts status event st').1
  have hrecords : st'.model.records.callCounts.records = records.length := by
    rw [hframe]
    exact hstores.counter
  have hbefore : st'.model.calls.items = _ := (congrArg Table.items (by rw [hframe])).trans
    hstores.stored
  rw [hbefore] at hcalls
  by_cases hok : status = .ok
  · obtain ⟨-, rfl⟩ := hevent hok
    rw [if_pos hok] at hcalls ⊢
    refine ⟨?_, by rw [hcalls, List.mapIdx_concat, hstores.counter]⟩
    rw [hcounter, hok, Counts.add, List.length_append, List.length_singleton]
    exact congrArg (· + 1) hrecords
  · rw [if_neg hok, List.append_nil] at hcalls ⊢
    refine ⟨?_, hcalls⟩
    rw [hcounter]
    cases status with
    | ok => exact absurd rfl hok
    | _ => exact hrecords

/-- **A call line.** -/
theorem callStep_stores {st : State lib} {read : LineRead} {records : List ToolEventRecord}
    (hread : read.status ≠ .error) (h : (callStep st read).err.error = false)
    (hstores : StoresCalls st.model records) :
    StoresCalls (callStep st read).model (records ++ acceptedOf lib (callStatus st read) read) := by
  have hraised := readStep_raised (countCall_sticky _ _) readCallLine_sticky h
  rw [callStep, readStep] at h ⊢
  rw [callStatus, acceptedOf, LineRead.record]
  simp only [hraised] at h ⊢
  cases hstatus : read.status with
  | error => exact absurd hstatus hread
  | malformed =>
    simp only [hstatus, reduceCtorEq, if_false, List.append_nil] at h ⊢
    exact hstores.of_eq rfl rfl
  | line text =>
    simp only [hstatus] at h ⊢
    exact readCallLine_stores h hstores

/-! ## Logs -/

/-- **A resource log.** -/
theorem resourceRun_stores {st : State lib} {reads : List LineRead}
    {records : List ToolEventRecord} (hreads : ∀ read ∈ reads, read.status ≠ .error)
    (h : (reads.foldl resourceStep st).err.error = false) (hnamed : SitesNamed st.model)
    (hstores : StoresRecords st.model records) :
    SitesGrow st.model (reads.foldl resourceStep st).model ∧
      StoresRecords (reads.foldl resourceStep st).model
        (records ++ accepted resourceStatus resourceStep st reads) := by
  induction reads generalizing st records with
  | nil =>
    rw [accepted, List.append_nil]
    exact ⟨.refl hnamed, hstores⟩
  | cons read rest ih =>
    obtain ⟨-, hstep, -⟩ := everyStep_of_ok resourceStep_sticky h
    obtain ⟨hgrow, hadded⟩ := resourceStep_stores (hreads read List.mem_cons_self) hstep hnamed
      hstores
    obtain ⟨hrest, hall⟩ := ih (fun read hread => hreads read (List.mem_cons_of_mem _ hread)) h
      hgrow.named hadded
    rw [accepted, ← List.append_assoc]
    exact ⟨hgrow.trans hrest, hall⟩

/-- **A call log.** -/
theorem callRun_stores {st : State lib} {reads : List LineRead} {records : List ToolEventRecord}
    (hreads : ∀ read ∈ reads, read.status ≠ .error)
    (h : (reads.foldl callStep st).err.error = false) (hstores : StoresCalls st.model records) :
    StoresCalls (reads.foldl callStep st).model
      (records ++ accepted callStatus callStep st reads) := by
  induction reads generalizing st records with
  | nil =>
    rw [accepted, List.append_nil]
    exact hstores
  | cons read rest ih =>
    obtain ⟨-, hstep, -⟩ := everyStep_of_ok callStep_sticky h
    have hadded := callStep_stores (hreads read List.mem_cons_self) hstep hstores
    rw [accepted, ← List.append_assoc]
    exact ih (fun read hread => hreads read (List.mem_cons_of_mem _ hread)) h hadded

/-! ## Finalization -/

/-- `f` adds sites at most, of all that the reader writes, also when it raises an error. -/
def OnlyInterns (lib : ToolEventLib) (f : State lib → State lib) : Prop :=
  ∀ st, (f st).model.resources = st.model.resources ∧
    (f st).model.records = st.model.records ∧
    st.model.sites.items <+: (f st).model.sites.items

theorem OnlyInterns.comp {f f' : State lib → State lib} (hf' : OnlyInterns lib f')
    (hf : OnlyInterns lib f) : OnlyInterns lib fun st => f' (f st) := by
  intro st
  obtain ⟨hresources, hrecords, hsites⟩ := hf st
  obtain ⟨hresources', hrecords', hsites'⟩ := hf' (f st)
  exact ⟨hresources'.trans hresources, hrecords'.trans hrecords, hsites.trans hsites'⟩

theorem OnlyInterns.of_keeps {f : State lib → State lib}
    (h : Keeps lib ReportModel.readPart f) : OnlyInterns lib f := by
  intro st
  have hsites : (f st).model.sites = st.model.sites := congrArg Prod.fst (h st)
  have hstored := congrArg Prod.snd (h st)
  exact ⟨congrArg Prod.fst hstored, congrArg Prod.snd hstored, by rw [hsites]⟩

theorem OnlyInterns.id : OnlyInterns lib fun st => st := .of_keeps .id

theorem internSite_onlyInterns (fileName functionName : Option Text) (lineNumber : Int) :
    OnlyInterns lib fun st => (internSite fileName functionName lineNumber st).2 := by
  intro st
  have hframe := internSite_frame fileName functionName lineNumber st
  dsimp only at hframe ⊢
  rw [hframe]
  refine ⟨rfl, rfl, ?_⟩
  dsimp only
  rw [internSite]
  dsimp only
  split
  · exact List.prefix_rfl
  · obtain ⟨table, err, hitems, ⟨hgrown, -⟩ | ⟨hgrown, -⟩⟩ :=
      @growTable_cases lib _ lib.sizeofSite st.model.sites st.err
    · rw [hgrown, ← hitems]
    · rw [hgrown]
      simp [hitems]

theorem finalizeFinding_onlyInterns (source : LifecycleFinding) :
    OnlyInterns lib (finalizeFinding source) := by
  have hsite := @internSite_onlyInterns lib source.fileName source.functionName source.lineNumber
  have hprevious := @internSite_onlyInterns lib source.previousFileName
    source.previousFunctionName source.previousLineNumber
  have hadd : ∀ finding : Finding, OnlyInterns lib (addFindingInternal finding) :=
    fun finding => .of_keeps (addFindingInternal_keeps readPart_ignoresTables finding)
  intro st
  rw [finalizeFinding]
  dsimp only
  -- the site of the earlier record is interned only when there is one
  split
  · exact (hadd _).comp (hprevious.comp hsite) st
  · exact (hadd _).comp hsite st

theorem finalizeFindings_onlyInterns (sources : List (Option LifecycleFinding)) :
    OnlyInterns lib (finalizeFindings sources) := by
  induction sources with
  | nil => exact OnlyInterns.id
  | cons source rest ih =>
    intro st
    cases source with
    | none =>
      rw [finalizeFindings]
      split <;> exact OnlyInterns.id st
    | some source =>
      rw [finalizeFindings]
      split
      · exact OnlyInterns.id st
      · exact ih.comp (finalizeFinding_onlyInterns source) st

theorem finalizeGeneric_onlyInterns : OnlyInterns lib finalizeGeneric := by
  intro st
  -- the library's state is no part of what the reader writes
  have hlooped (lifecycle : lib.Lifecycle) (sources : List (Option LifecycleFinding)) :=
    finalizeFindings_onlyInterns sources (loopStart lifecycle st)
  rcases finalizeGeneric_cases st with
    ⟨-, heq⟩ | ⟨lifecycle, ⟨-, heq⟩ | ⟨-, ⟨-, heq⟩ | ⟨-, heq⟩⟩⟩
  · rw [heq]
    exact OnlyInterns.id st
  · rw [heq]
    exact OnlyInterns.id st
  · rw [heq]
    exact hlooped lifecycle _
  · rw [heq]
    exact hlooped lifecycle _

theorem finishPending_keeps (fuel : Nat) :
    Keeps lib ReportModel.readPart (finishPending fuel) := by
  induction fuel with
  | zero => exact Keeps.id
  | succ fuel ih =>
    intro st
    rw [finishPending]
    split
    · rfl
    · split
      · rfl
      · exact (ih.comp (finishExecLoop_keeps readPart_ignoresTables _ _ _)) st

/-- **Finalization stores nothing.** -/
theorem finalizeLeaks_onlyInterns : OnlyInterns lib finalizeLeaks := by
  intro st
  exact finalizeGeneric_onlyInterns.comp (.of_keeps (finishPending_keeps _)) st

/-! ## Node names -/

/-- The name of the node of a birth in the Mermaid report. -/
def birthNode (birth : ResourceEvent) : List UInt8 := ascii "b" ++ decimalNat birth.sequence

/-- The name of the node that marks a leak. -/
def leakNode (birth : ResourceEvent) : List UInt8 := ascii "leak" ++ decimalNat birth.sequence

/-- The nodes of a lifetime that are named by its birth. -/
def lifetimeNodes (lifetime : ResourceEvent × Option ResourceEvent) : List (List UInt8) :=
  birthNode lifetime.1 :: if lifetime.2.isNone then [leakNode lifetime.1] else []

/-- The nodes that the Mermaid report names by births. -/
def mermaidNodes (model : ReportModel lib) : List (List UInt8) :=
  ((model.lifetimes.take lifetimeTextLimit).map lifetimeNodes).flatten

theorem printMermaidBirth_node (birth : ResourceEvent) :
    ∃ label, printMermaidBirth birth =
      ascii "    summary --> " ++ birthNode birth ++ ascii "[\"" ++ label ++ ascii "\"]\n" := by
  refine ⟨List.flatten [ascii "event ", decimalNat birth.eventSequence, ascii " ",
    (mermaidResourceName birth).bytes, ascii " ", (resourceKindName birth.kind).bytes], ?_⟩
  simp [printMermaidBirth, birthNode, ascii]

theorem printMermaidEnd_node (birth : ResourceEvent) :
    printMermaidEnd birth none =
      ascii "    " ++ birthNode birth ++ ascii " --> " ++ leakNode birth ++
        ascii "[\"still live at exit\"]\n    " ++ leakNode birth ++ ascii ":::leak\n" := by
  simp [printMermaidEnd, birthNode, leakNode, ascii]

/-- The lines of a lifetime declare its nodes: the one of the birth, and another for a leak. -/
def DeclaresNodes (lifetime : ResourceEvent × Option ResourceEvent) (lines : List UInt8) : Prop :=
  ∃ label ending,
    lines = ascii "    summary --> " ++ birthNode lifetime.1 ++ ascii "[\"" ++ label ++
      ascii "\"]\n" ++ ending ∧
    (lifetime.2 = none →
      ending = ascii "    " ++ birthNode lifetime.1 ++ ascii " --> " ++ leakNode lifetime.1 ++
        ascii "[\"still live at exit\"]\n    " ++ leakNode lifetime.1 ++ ascii ":::leak\n")

theorem declaresNodes_printMermaidLifetime (lifetime : ResourceEvent × Option ResourceEvent) :
    DeclaresNodes lifetime (printMermaidLifetime lifetime.1 lifetime.2) := by
  obtain ⟨label, hlabel⟩ := printMermaidBirth_node lifetime.1
  refine ⟨label, printMermaidEnd lifetime.1 lifetime.2, by rw [printMermaidLifetime, hlabel], ?_⟩
  intro hnone
  rw [hnone]
  exact printMermaidEnd_node lifetime.1

/-- The Mermaid lifetimes are the lines of the lifetimes shown, each with its nodes, and a notice.
-/
def PrintsNodes (model : ReportModel lib) : Prop :=
  ∃ lines notice, List.Forall₂ DeclaresNodes (model.lifetimes.take lifetimeTextLimit) lines ∧
    printMermaidLifetimes model = lines.flatten ++ notice

theorem printsNodes (model : ReportModel lib) : PrintsNodes model := by
  refine ⟨mermaidLifetimes (model.lifetimes.take lifetimeTextLimit),
    printMermaidNotice (min lifetimeTextLimit model.lifetimes.length) ++
      ascii "    classDef leak fill:#ffd6d6,stroke:#a33,stroke-width:2px\n", ?_, ?_⟩
  · rw [mermaidLifetimes, List.forall₂_map_right_iff, List.forall₂_same]
    exact fun lifetime _ => declaresNodes_printMermaidLifetime lifetime
  · rw [printMermaidLifetimes, printMermaidLifetimesLoop_eq, Nat.sub_zero]
    simp [ReportModel.lifetimes]

/-- The letters of the two kinds of nodes differ. -/
theorem birthNode_ne_leakNode (birth birth' : ResourceEvent) :
    birthNode birth ≠ leakNode birth' := by
  intro h
  have hletter := congrArg List.head? h
  simp [birthNode, leakNode, ascii] at hletter

theorem mem_lifetimeNodes {lifetime : ResourceEvent × Option ResourceEvent} {node : List UInt8}
    (h : node ∈ lifetimeNodes lifetime) :
    node = birthNode lifetime.1 ∨ node = leakNode lifetime.1 := by
  rw [lifetimeNodes, List.mem_cons] at h
  rcases h with h | h
  · exact Or.inl h
  · split at h
    · exact Or.inr (List.mem_singleton.1 h)
    · exact absurd h List.not_mem_nil

theorem lifetimeNodes_nodup (lifetime : ResourceEvent × Option ResourceEvent) :
    (lifetimeNodes lifetime).Nodup := by
  rw [lifetimeNodes]
  split
  · simp [birthNode_ne_leakNode]
  · simp

/-- A name determines the number in it. -/
theorem lifetimeNodes_disjoint {lifetime lifetime' : ResourceEvent × Option ResourceEvent}
    (h : lifetime.1.sequence ≠ lifetime'.1.sequence) :
    List.Disjoint (lifetimeNodes lifetime) (lifetimeNodes lifetime') := by
  intro node hnode hnode'
  obtain rfl | rfl := mem_lifetimeNodes hnode
  · obtain heq | heq := mem_lifetimeNodes hnode'
    · exact h (decimalNat_injective (List.append_cancel_left heq))
    · exact birthNode_ne_leakNode _ _ heq
  · obtain heq | heq := mem_lifetimeNodes hnode'
    · exact birthNode_ne_leakNode _ _ heq.symm
    · exact h (decimalNat_injective (List.append_cancel_left heq))

/-- Events with different numbers give different nodes. -/
theorem mermaidNodes_nodup {model : ReportModel lib}
    (h : model.resources.items.Pairwise fun e e' => e.sequence ≠ e'.sequence) :
    (mermaidNodes model).Nodup := by
  have hlifetimes : model.lifetimes.Pairwise fun l l' => l.1.sequence ≠ l'.1.sequence := by
    rw [ReportModel.lifetimes, lifetimesFrom, List.pairwise_map]
    exact h.sublist List.filter_sublist
  rw [mermaidNodes, List.nodup_flatten, List.pairwise_map]
  refine ⟨?_, ?_⟩
  · intro nodes hnodes
    obtain ⟨lifetime, -, rfl⟩ := List.mem_map.1 hnodes
    exact lifetimeNodes_nodup lifetime
  · apply (hlifetimes.sublist (List.take_sublist _ _)).imp
    exact lifetimeNodes_disjoint

/-! ## Two logs read without errors -/

/-- The stored events of both streams are these records, numbered densely; the nodes that the
Mermaid report declares for them have different names. -/
structure Numbered (model : ReportModel lib) (records calls : List ToolEventRecord) : Prop where
  resourceCount : model.resources.items.length = model.resourceRecords
  callCount : model.calls.items.length = model.callRecords
  resourceSequence : ∀ {i : Nat} {event : ResourceEvent},
    model.resources.items[i]? = some event → event.sequence = i + 1
  callSequence : ∀ {i : Nat} {event : CallEvent},
    model.calls.items[i]? = some event → event.sequence = i + 1
  resources : StoresRecords model records
  calls : StoresCalls model calls
  declared : PrintsNodes model
  nodes : (mermaidNodes model).Nodup

theorem StoresRecords.sequence {model : ReportModel lib} {records : List ToolEventRecord}
    (h : StoresRecords model records) {i : Nat} {event : ResourceEvent}
    (hevent : model.resources.items[i]? = some event) : event.sequence = i + 1 := by
  obtain ⟨hlt, -⟩ := List.getElem?_eq_some_iff.1 hevent
  rw [h.length] at hlt
  obtain ⟨site, hstored, -⟩ := h.stored (List.getElem?_eq_getElem hlt)
  rw [hevent, Option.some.injEq] at hstored
  rw [hstored, ResourceEvent.ofRecord_sequence]

theorem StoresRecords.pairwise {model : ReportModel lib} {records : List ToolEventRecord}
    (h : StoresRecords model records) :
    model.resources.items.Pairwise fun e e' => e.sequence < e'.sequence := by
  rw [List.pairwise_iff_getElem]
  intro i j hi hj hij
  rw [h.sequence (List.getElem?_eq_getElem hi), h.sequence (List.getElem?_eq_getElem hj)]
  omega

theorem StoresCalls.sequence {model : ReportModel lib} {records : List ToolEventRecord}
    (h : StoresCalls model records) {i : Nat} {event : CallEvent}
    (hevent : model.calls.items[i]? = some event) : event.sequence = i + 1 := by
  rw [h.stored, List.getElem?_mapIdx, Option.map_eq_some_iff] at hevent
  obtain ⟨record, -, rfl⟩ := hevent
  exact CallEvent.ofRecord_sequence record (i + 1)

theorem Numbered.of_stores {model : ReportModel lib} {records calls : List ToolEventRecord}
    (h : StoresRecords model records) (h' : StoresCalls model calls) :
    Numbered model records calls where
  resourceCount := h.length.trans h.counter.symm
  callCount := by rw [h'.stored, List.length_mapIdx, h'.counter]
  resourceSequence := h.sequence
  callSequence := h'.sequence
  resources := h
  calls := h'
  declared := printsNodes model
  nodes := mermaidNodes_nodup (h.pairwise.imp Nat.ne_of_lt)

/-- What only interns sites keeps the numbering. -/
theorem Numbered.of_onlyInterns {f : State lib → State lib} (hf : OnlyInterns lib f)
    {st : State lib} {records calls : List ToolEventRecord}
    (h : Numbered st.model records calls) : Numbered (f st).model records calls := by
  obtain ⟨hresources, hrecords, hsites⟩ := hf st
  apply Numbered.of_stores
  · exact h.resources.of_grown (congrArg Records.resourceRecords hrecords) (by rw [hresources])
      hsites
  · exact h.calls.of_eq (congrArg Records.callRecords hrecords) (congrArg Records.calls hrecords)

/-- Both logs read from the zeroed model. -/
theorem readers_store {health : lib.HealthInner} {runModel : Option lib.RunModel}
    {err : ErrState} {path callPath : Option Text} {log callLog : LogFile}
    (h : (readCalls callPath callLog
      (readResources path log (startState health runModel err))).err.error = false) :
    let start := startState health runModel err
    let between := readResources path log start
    let st := readCalls callPath callLog between
    SitesNamed st.model ∧
      StoresRecords st.model (accepted resourceStatus resourceStep start (readLines log.reads)) ∧
      StoresCalls st.model (accepted callStatus callStep between (readLines callLog.reads)) := by
  intro start between st
  obtain ⟨hbetween, hcalls⟩ := readCalls_ok h
  obtain ⟨-, hresources⟩ := readResources_ok hbetween
  have hempty : StoresRecords start.model [] := ⟨rfl, rfl, by simp⟩
  obtain ⟨hgrow, hstored⟩ := resourceRun_stores readLines_not_error (by rwa [← hresources])
    (fun site hsite => absurd hsite List.not_mem_nil) hempty
  obtain ⟨-, hcounts, hnone⟩ := resourceRun_counts start readLines_not_error
  rw [← hresources] at hgrow hstored hcounts hnone
  -- the call log begins without call records and leaves the resource events alone
  have hnocall : StoresCalls between.model [] :=
    ⟨congrArg Counts.records hcounts, congrArg Table.items hnone⟩
  have hcallsStored := callRun_stores readLines_not_error (by rwa [← hcalls]) hnocall
  obtain ⟨-, hcounter, hsites, hevents⟩ := callRun_counts between readLines_not_error
  rw [← hcalls] at hcallsStored hcounter hsites hevents
  refine ⟨(SitesGrow.of_eq hgrow.named hsites).named, ?_, hcallsStored⟩
  apply hstored.of_grown (congrArg Counts.records hcounter) (by rw [hevents])
  rw [hsites]

/-- **Stored events are numbered densely.** After both logs have been read without an error, the
stored events are the accepted records in file order, numbered by their positions; rolling back an
exec and finalizing change none of it, whatever run model and error object they are given. -/
theorem readers_number_events (health : lib.HealthInner) (runModel : Option lib.RunModel)
    (err : ErrState) (path callPath : Option Text) (log callLog : LogFile)
    (h : (readCalls callPath callLog
      (readResources path log (startState health runModel err))).err.error = false) :
    let start := startState health runModel err
    let between := readResources path log start
    let st := readCalls callPath callLog between
    let records := accepted resourceStatus resourceStep start (readLines log.reads)
    let calls := accepted callStatus callStep between (readLines callLog.reads)
    Numbered st.model records calls ∧
      ∀ (finished : Option lib.RunModel) (err' : ErrState),
        let later : State lib := ⟨{ st.model with runModel := finished }, err'⟩
        (∀ event, Numbered (rollbackFailedExec event later).model records calls) ∧
          Numbered (finalizeLeaks later).model records calls := by
  intro start between st records calls
  obtain ⟨-, hrecords, hcalls⟩ := readers_store h
  refine ⟨.of_stores hrecords hcalls, ?_⟩
  intro finished err' later
  have hlater : Numbered later.model records calls :=
    .of_stores (hrecords.of_grown rfl rfl List.prefix_rfl) (hcalls.of_eq rfl rfl)
  refine ⟨?_, hlater.of_onlyInterns finalizeLeaks_onlyInterns⟩
  intro event
  exact hlater.of_onlyInterns (.of_keeps (rollbackFailedExec_keeps readPart_ignoresTables event))

/-- A log with a line that is no record and a malformed one between its two records. -/
def gapLog : LogFile where
  reads := [
    ⟨.line (ascii "ordinary text"), false⟩, ⟨.line openLine, false⟩, ⟨.malformed, false⟩,
    ⟨.line closeLine, false⟩]

def enterLog : LogFile where
  reads := [⟨.line enterLine, false⟩]

theorem gapLog_ok : (readCalls none enterLog (readResources none gapLog
    (@startState fixtureLib () (some ()) ⟨false, []⟩))).err.error = false := by
  decide

theorem readers_number_events_gaps :
    let start : State fixtureLib := startState () (some ()) ⟨false, []⟩
    let between := readResources none gapLog start
    let st := readCalls none enterLog between
    let records := accepted resourceStatus resourceStep start (readLines gapLog.reads)
    let calls := accepted callStatus callStep between (readLines enterLog.reads)
    Numbered st.model records calls ∧
      ∀ (finished : Option fixtureLib.RunModel) (err' : ErrState),
        let later : State fixtureLib := ⟨{ st.model with runModel := finished }, err'⟩
        (∀ event, Numbered (rollbackFailedExec event later).model records calls) ∧
          Numbered (finalizeLeaks later).model records calls :=
  @readers_number_events fixtureLib () (some ()) ⟨false, []⟩ none none gapLog enterLog gapLog_ok

end P101Report
