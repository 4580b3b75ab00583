import P101Report.Output.JsonReport
import P101Report.Reading.Preparation

/-!
# No lookup outside the site table

The indices of a report model that reaches the output step (`prepareReport_sites`): each one denotes
the site of the record or of the lifecycle finding that it was interned for (`SitesSound`), so it
lies within the table (`InBounds`), and the printers find every site they look up.
-/

set_option autoImplicit false

namespace P101Report

open Runs

variable {lib : ToolEventLib}

/-! ## What the indices denote -/

/-- The indices of a model denote what they were interned for. Those of the entries are the sites of
stored events, which are the accepted `records`; those of the findings are the sites of `EXEC` and
`OPEN` records or of a finding of the library. -/
structure SitesSound (model : ReportModel lib) (records : List ToolEventRecord)
    (sources : List LifecycleFinding) : Prop where
  named : SitesNamed model
  resources : StoresRecords model records
  fds : ∀ fd ∈ model.fds.items, FdOrigin model.resources.items fd
  closedFds : ∀ fd ∈ model.closedFds.items, ClosedOrigin model.resources.items fd
  allocs : ∀ alloc ∈ model.allocs.items, AllocOrigin model.resources.items alloc
  freedAllocs : ∀ freed ∈ model.freedAllocs.items, FreedOrigin model.resources.items freed
  findings : ∀ finding ∈ model.findings.items, ExecOrigin model.resources.items finding ∨
    ∃ source ∈ sources, MapsTo model.resources.items model.sites.items source finding ∧
      FindingSites model.sites.items source finding

/-- Every index of a model is within its site table. -/
structure InBounds (model : ReportModel lib) : Prop where
  resources : ∀ event ∈ model.resources.items, event.site < model.sites.items.length
  findings : ∀ finding ∈ model.findings.items, finding.site < model.sites.items.length ∧
    (finding.previousSequence ≠ 0 → finding.previousSite < model.sites.items.length)
  fds : ∀ fd ∈ model.fds.items, fd.site < model.sites.items.length ∧
    (fd.execPending ≠ 0 → fd.execSite < model.sites.items.length)
  closedFds : ∀ fd ∈ model.closedFds.items, fd.site < model.sites.items.length
  allocs : ∀ alloc ∈ model.allocs.items, alloc.site < model.sites.items.length
  freedAllocs : ∀ freed ∈ model.freedAllocs.items, freed.site < model.sites.items.length

/-- A stored event is that of an accepted record, whose site its index denotes. -/
theorem StoresRecords.denotes {model : ReportModel lib} {records : List ToolEventRecord}
    (h : StoresRecords model records) {event : ResourceEvent}
    (hevent : event ∈ model.resources.items) :
    ∃ record ∈ records, event = .ofRecord record event.sequence event.site ∧
      model.sites.items[event.site]? = some record.site := by
  obtain ⟨i, hi, rfl⟩ := List.mem_iff_getElem.1 hevent
  have hlt : i < records.length := by rwa [← h.length]
  obtain ⟨site, hstored, hsite⟩ := h.stored (List.getElem?_eq_getElem hlt)
  obtain ⟨_, heq⟩ := List.getElem?_eq_some_iff.1 hstored
  refine ⟨records[i], List.getElem_mem hlt, ?_⟩
  rw [heq, ResourceEvent.ofRecord_site, ResourceEvent.ofRecord_sequence]
  exact ⟨rfl, hsite⟩

theorem lt_of_getElem?_eq_some {α : Type} {l : List α} {i : Nat} {a : α} (h : l[i]? = some a) :
    i < l.length :=
  (List.getElem?_eq_some_iff.1 h).1

theorem StoresRecords.site_lt {model : ReportModel lib} {records : List ToolEventRecord}
    (h : StoresRecords model records) {event : ResourceEvent}
    (hevent : event ∈ model.resources.items) : event.site < model.sites.items.length := by
  obtain ⟨record, -, -, hsite⟩ := h.denotes hevent
  exact lt_of_getElem?_eq_some hsite

theorem SitesSound.inBounds {model : ReportModel lib} {records : List ToolEventRecord}
    {sources : List LifecycleFinding} (h : SitesSound model records sources) :
    InBounds model := by
  have hevent : ∀ event ∈ model.resources.items, event.site < model.sites.items.length :=
    fun event hevent => h.resources.site_lt hevent
  constructor
  · exact hevent
  · intro finding hfinding
    rcases h.findings finding hfinding with ⟨hexec, -, hopened⟩ | ⟨source, -, -, hsites⟩
    · obtain ⟨event, hmem, -, -, -, -, hsite⟩ := hexec
      obtain ⟨opened, hmem', -, -, hsite'⟩ := hopened
      rw [← hsite, ← hsite']
      exact ⟨hevent event hmem, fun _ => hevent opened hmem'⟩
    · exact ⟨lt_of_getElem?_eq_some hsites.site,
        fun hprevious => lt_of_getElem?_eq_some (hsites.previous hprevious)⟩
  · intro fd hfd
    obtain ⟨-, ⟨opened, hmem, -, -, hsite⟩, hpending⟩ := h.fds fd hfd
    refine ⟨hsite ▸ hevent opened hmem, fun hexec => ?_⟩
    obtain ⟨event, hmem', -, -, -, -, hsite'⟩ := hpending hexec
    exact hsite' ▸ hevent event hmem'
  · intro fd hfd
    obtain ⟨event, hmem, -, -, -, -, hsite⟩ := h.closedFds fd hfd
    exact hsite ▸ hevent event hmem
  · intro alloc halloc
    obtain ⟨event, hmem, -, -, -, hsite⟩ := h.allocs alloc halloc
    exact hsite ▸ hevent event hmem
  · intro freed hfreed
    obtain ⟨event, hmem, -, -, -, hsite⟩ := h.freedAllocs freed hfreed
    exact hsite ▸ hevent event hmem

/-! ## The printers -/

theorem isSome_mapM {α β : Type} {f : α → Option β} {l : List α}
    (h : ∀ a ∈ l, (f a).isSome = true) : (l.mapM f).isSome = true := by
  induction l with
  | nil => rfl
  | cons a rest ih =>
    obtain ⟨b, hb⟩ := Option.isSome_iff_exists.1 (h a List.mem_cons_self)
    obtain ⟨later, hlater⟩ :=
      Option.isSome_iff_exists.1 (ih fun a ha => h a (List.mem_cons_of_mem _ ha))
    rw [List.mapM_cons, hb, hlater]
    rfl

section Printers

variable {model : ReportModel lib}

/-- An end that is printed is a stored event. -/
theorem mem_of_lifetime {lifetime : ResourceEvent × Option ResourceEvent}
    (h : lifetime ∈ model.lifetimes) :
    lifetime.1 ∈ model.resources.items ∧ ∀ death, lifetime.2 = some death →
      death ∈ model.resources.items := by
  obtain ⟨hbirth, -, hend⟩ := mem_lifetimes h
  refine ⟨hbirth, fun death hdeath => ?_⟩
  rw [hend] at hdeath
  exact mem_of_findLifetimeEnd hdeath

/-- The lines of a lifetime, when every stored event has a site of the table. -/
theorem isSome_printTextLifetime
    (h : ∀ event ∈ model.resources.items, event.site < model.sites.items.length)
    {lifetime : ResourceEvent × Option ResourceEvent} (hlifetime : lifetime ∈ model.lifetimes) :
    (printTextEnd model lifetime.1 lifetime.2).isSome = true ∧
      (printTextLifetime model lifetime.1 lifetime.2).isSome = true := by
  obtain ⟨hbirth, hdeath⟩ := mem_of_lifetime hlifetime
  have hend : (printTextEnd model lifetime.1 lifetime.2).isSome = true := by
    -- a death has a site of its own
    cases hlast : lifetime.2 with
    | none => rfl
    | some death =>
      rw [printTextEnd, siteAt_of_lt (h _ (hdeath death hlast))]
      rfl
  obtain ⟨ending, hending⟩ := Option.isSome_iff_exists.1 hend
  refine ⟨hend, ?_⟩
  rw [printTextLifetime, siteAt_of_lt (h _ hbirth), hending]
  rfl

theorem isSome_printTextLifetimes (h : InBounds model) :
    (printTextLifetimes model).isSome = true := by
  have hlifetimes :
      (textLifetimes model (model.lifetimes.take lifetimeTextLimit)).isSome = true := by
    apply isSome_mapM
    intro lifetime hlifetime
    exact (isSome_printTextLifetime h.resources (List.mem_of_mem_take hlifetime)).2
  rw [printTextLifetimes, printTextLifetimesLoop_eq, Nat.sub_zero]
  obtain ⟨entries, hentries⟩ := Option.isSome_iff_exists.1 hlifetimes
  change (((textLifetimes model
    (model.lifetimes.take lifetimeTextLimit)).map _).bind _).isSome = true
  rw [hentries]
  rfl

theorem isSome_printPrevious (finding : Finding) :
    (printPrevious model finding).isSome = true := by
  rw [printPrevious]
  split
  · rename_i hprevious
    rw [siteAt_of_lt hprevious.2]
    rfl
  · rfl

theorem isSome_printFinding (h : InBounds model) {finding : Finding}
    (hfinding : finding ∈ model.findings.items) (ordinal : Nat) :
    (printFinding model finding ordinal).isSome = true := by
  obtain ⟨hsite, -⟩ := h.findings finding hfinding
  obtain ⟨previous, hprevious⟩ :=
    Option.isSome_iff_exists.1 (@isSome_printPrevious lib model finding)
  rw [printFinding, siteAt_of_lt hsite, hprevious]
  rfl

/-- A loop that prints every finding has a text when each finding has one. -/
theorem isSome_loop {loop : List Finding → Nat → Option (List UInt8)}
    {print : Finding → Nat → Option (List UInt8)} (hnil : ∀ index, (loop [] index).isSome = true)
    (hcons : ∀ finding rest index, (print finding index).isSome = true →
      (loop rest (index + 1)).isSome = true → (loop (finding :: rest) index).isSome = true)
    {findings : List Finding}
    (hprint : ∀ finding ∈ findings, ∀ index, (print finding index).isSome = true) (index : Nat) :
    (loop findings index).isSome = true := by
  induction findings generalizing index with
  | nil => exact hnil index
  | cons finding rest ih =>
    apply hcons finding rest index (hprint finding List.mem_cons_self index)
    exact ih (fun finding hfinding => hprint finding (List.mem_cons_of_mem _ hfinding)) (index + 1)

theorem isSome_printFindings (h : InBounds model) (index : Nat) :
    (printFindings model model.findings.items index).isSome = true := by
  apply isSome_loop (fun _ => rfl) _ fun finding hfinding index =>
    isSome_printFinding h hfinding (index + 1)
  intro finding rest index hfinding hrest
  obtain ⟨text, htext⟩ := Option.isSome_iff_exists.1 hfinding
  obtain ⟨later, hlater⟩ := Option.isSome_iff_exists.1 hrest
  rw [printFindings, htext, hlater]
  rfl

theorem isSome_printTextReport (h : InBounds model) (args : Arguments) :
    (printTextReport args model).isSome = true := by
  obtain ⟨lifetimes, hlifetimes⟩ := Option.isSome_iff_exists.1 (isSome_printTextLifetimes h)
  obtain ⟨findings, hfindings⟩ := Option.isSome_iff_exists.1
    (isSome_printFindings h 0)
  rw [printTextReport, hlifetimes, printTextFindings, hfindings]
  split <;> rfl

theorem isSome_printJsonPrevious (finding : Finding) :
    (printJsonPrevious model finding).isSome = true := by
  rw [printJsonPrevious]
  split
  · rename_i hprevious
    rw [siteAt_of_lt hprevious.2]
    rfl
  · rfl

theorem isSome_printJsonFinding (h : InBounds model) {finding : Finding}
    (hfinding : finding ∈ model.findings.items) :
    (printJsonFinding model finding).isSome = true := by
  obtain ⟨hsite, -⟩ := h.findings finding hfinding
  obtain ⟨previous, hprevious⟩ :=
    Option.isSome_iff_exists.1 (@isSome_printJsonPrevious lib model finding)
  rw [printJsonFinding, siteAt_of_lt hsite, hprevious]
  rfl

theorem isSome_printJsonFindings (h : InBounds model) (index : Nat) :
    (printJsonFindings model model.findings.items index).isSome = true := by
  apply isSome_loop (fun _ => rfl) _ fun finding hfinding _ => isSome_printJsonFinding h hfinding
  intro finding rest index hfinding hrest
  obtain ⟨text, htext⟩ := Option.isSome_iff_exists.1 hfinding
  obtain ⟨later, hlater⟩ := Option.isSome_iff_exists.1 hrest
  rw [printJsonFindings, htext, hlater]
  rfl

theorem isSome_printJsonReport (h : InBounds model) (args : Arguments) :
    (printJsonReport args model).isSome = true := by
  have hrange : SitesInRange model :=
    ⟨h.resources, fun finding hfinding => (h.findings finding hfinding).1⟩
  obtain ⟨pieces, -, hlifetimes⟩ :=
    printJsonLifetimesLoop_items hrange model.resources.items (fun _ hevent => hevent) 0
  obtain ⟨findings, hfindings⟩ := Option.isSome_iff_exists.1
    (isSome_printJsonFindings h 0)
  rw [printJsonReport, printJsonLifetimes, hlifetimes, hfindings]
  rfl

end Printers

/-! ## Forwarding -/

/-- The state in which `p101_report_ingest_resource` forwards an event. -/
def forwardState (event : ResourceEvent) (st : State lib) : State lib :=
  addResourceEvent event
    (if event.kind ≠ .exec ∧ event.kind ≠ .execFail then finishExec event.pid false st else st)

theorem ingestResource_eq (event : ResourceEvent) (st : State lib) :
    ingestResource st event =
      if (forwardState event st).err.error then forwardState event st
      else
        ingestKind event (if forwarded event.kind then ingestGeneric event (forwardState event st)
          else forwardState event st) := rfl

/-- Committing and storing leave the site table alone. -/
theorem forwardState_sites (event : ResourceEvent) (st : State lib) :
    (forwardState event st).model.sites = st.model.sites :=
  (congrArg Prod.fst (addResourceEvent_keeps event _)).trans
    (congrArg Prod.fst (commitExec_keeps readPart_ignoresTables event st))

/-- The event of an accepted line is forwarded with a site of the table. -/
def ForwardsInBounds (st : State lib) (read : LineRead) : Prop :=
  ∀ text, read.status = .line text →
    let parsed := parseResourceLine text (st.model.resourceRecords + 1) (st.raiseIf read.raised)
    parsed.1 = .ok →
      parsed.2.1.site < (forwardState parsed.2.1 parsed.2.2).model.sites.items.length

theorem forwardsInBounds_of_named {st : State lib} (hnamed : SitesNamed st.model)
    (read : LineRead) : ForwardsInBounds st read := by
  intro text _ parsed hok
  have hsame : SitesNamed (st.raiseIf read.raised).model := hnamed
  obtain ⟨-, hevent⟩ := parseResourceLine_ok hsame (parseResourceLine_error hok)
  obtain ⟨site, heq, hsite⟩ := hevent hok
  rw [forwardState_sites]
  change parsed.2.1 = _ at heq
  rw [heq, ResourceEvent.ofRecord_site]
  exact lt_of_getElem?_eq_some hsite

/-- No line of a log read without an error is forwarded outside the table. -/
theorem resourceRun_inBounds {st : State lib} {reads : List LineRead}
    {records : List ToolEventRecord} (hreads : ∀ read ∈ reads, read.status ≠ .error)
    (h : (reads.foldl resourceStep st).err.error = false) (hnamed : SitesNamed st.model)
    (hstores : StoresRecords st.model records) :
    EveryStep resourceStep ForwardsInBounds st reads := by
  obtain ⟨-, hok⟩ := everyStep_of_ok resourceStep_sticky h
  have hevery := (EveryStep.of_forall_mem hreads st).and hok
  have hstep : ∀ (st : State lib) (read : LineRead),
      read.status ≠ .error ∧ (resourceStep st read).err.error = false →
      (SitesNamed st.model ∧ ∃ records, StoresRecords st.model records) →
      SitesNamed (resourceStep st read).model ∧
        ∃ records, StoresRecords (resourceStep st read).model records := by
    rintro st read ⟨hread, herror⟩ ⟨hnamed, records, hstores⟩
    obtain ⟨hgrow, hadded⟩ := resourceStep_stores hread herror hnamed hstores
    exact ⟨hgrow.named, _, hadded⟩
  apply (hevery.strengthen hstep ⟨hnamed, records, hstores⟩).imp
  exact fun st read hread => forwardsInBounds_of_named hread.2.1 read

/-! ## The output step -/

/-- What finalization leaves behind: sites are added, the pending execs settled, and the findings of
the library appended, each with its sites. -/
theorem finalizeLeaks_sites {st : State lib} (hnamed : SitesNamed st.model)
    (h : (finalizeLeaks st).err.error = false) :
    let sources := returnedFindings (finishPending st.model.fds.items.length st)
    SitesGrow st.model (finalizeLeaks st).model ∧
      ∃ added, (finalizeLeaks st).model.tables =
          { st.model.tables.settle with findings := st.model.tables.findings ++ added } ∧
        ∀ finding ∈ added, ∃ source ∈ sources,
          MapsTo st.model.resources.items (finalizeLeaks st).model.sites.items source finding ∧
            FindingSites (finalizeLeaks st).model.sites.items source finding := by
  rw [finalizeLeaks] at h ⊢
  dsimp only
  have hsettledOk := finalizeGeneric_ok h
  obtain ⟨-, hsettled⟩ := finishPending_tables _ st hsettledOk
  have hkeeps := finishPending_keeps st.model.fds.items.length st
  have hgrow := SitesGrow.of_eq hnamed (congrArg Prod.fst hkeeps)
  have hresources : (finishPending st.model.fds.items.length st).model.resources.items =
      st.model.resources.items := congrArg (fun part => part.2.1.items) hkeeps
  generalize finishPending st.model.fds.items.length st = settled at h hsettled hgrow hresources ⊢
  obtain ⟨hgrow', added, hsites, hfindings⟩ := finalizeGeneric_sites hgrow.named h
  obtain ⟨stored, added', -, hall, hmaps, htables⟩ := finalizeGeneric_prefix settled
  -- both describe the findings that have been appended
  obtain rfl : added' = added := by
    have happended := congrArg Tables.findings htables
    exact List.append_cancel_left (happended.symm.trans hfindings)
  rw [hall h] at hmaps
  refine ⟨hgrow.trans hgrow', added', ?_, ?_⟩
  · rw [htables, hsettled]
    exact congrArg (fun findings => { st.model.tables.settle with findings := findings ++ added' })
      (Tables.settle_findings st.model.tables)
  · intro finding hfinding
    obtain ⟨i, hi, rfl⟩ := List.mem_iff_getElem.1 hfinding
    have hlength := hmaps.length_eq
    refine ⟨_, List.getElem_mem (by omega), ?_, hsites.get (by omega) hi⟩
    rw [← hresources]
    exact hmaps.get (by omega) hi

/-- Both logs read from the zeroed model: no entry but with the site of a stored event. -/
theorem readers_origins {health : lib.HealthInner} {runModel : Option lib.RunModel}
    {err : ErrState} {path callPath : Option Text} {log callLog : LogFile}
    (h : (readCalls callPath callLog
      (readResources path log (startState health runModel err))).err.error = false) :
    (readCalls callPath callLog
      (readResources path log (startState health runModel err))).model.tables.Origins := by
  obtain ⟨hbetween, hcalls⟩ := readCalls_ok h
  obtain ⟨-, hresources⟩ := readResources_ok hbetween
  rw [hcalls, callRun_tables]
  rw [hresources] at hbetween ⊢
  exact resourceRun_origins hbetween Tables.origins_empty

theorem SitesSound.of_finalizeLeaks {st : State lib} {records : List ToolEventRecord}
    (h : (finalizeLeaks st).err.error = false) (hnamed : SitesNamed st.model)
    (hstores : StoresRecords st.model records) (horigins : st.model.tables.Origins) :
    SitesSound (finalizeLeaks st).model records
      (returnedFindings (finishPending st.model.fds.items.length st)) := by
  obtain ⟨hgrow, added, htables, hadded⟩ := finalizeLeaks_sites hnamed h
  obtain ⟨hresources, hrecords, -⟩ := finalizeLeaks_onlyInterns st
  have hitems : (finalizeLeaks st).model.resources.items = st.model.resources.items := by
    rw [hresources]
  -- the entries are those of the settled tables, whose stored events are the same
  obtain ⟨hfds, hclosed, hallocs, hfreed, hexec⟩ := Tables.origins_settle horigins
  rw [Tables.settle_resources] at hfds hclosed hallocs hfreed hexec
  rw [Tables.settle_findings] at hexec
  constructor
  · exact hgrow.named
  · exact hstores.of_grown (congrArg Records.resourceRecords hrecords) hitems hgrow.grown
  · rw [hitems, show (finalizeLeaks st).model.fds.items = _ from congrArg Tables.fds htables]
    exact hfds
  · rw [hitems,
      show (finalizeLeaks st).model.closedFds.items = _ from congrArg Tables.closedFds htables]
    exact hclosed
  · rw [hitems, show (finalizeLeaks st).model.allocs.items = _ from congrArg Tables.allocs htables]
    exact hallocs
  · rw [hitems,
      show (finalizeLeaks st).model.freedAllocs.items = _ from congrArg Tables.freedAllocs htables]
    exact hfreed
  · intro finding hfinding
    rw [show (finalizeLeaks st).model.findings.items = _ from congrArg Tables.findings htables,
      List.mem_append] at hfinding
    rw [hitems]
    exact hfinding.imp (hexec finding) (hadded finding)

/-- **Printing never leaves the site table.** Whatever the logs are and whichever allocations fail,
in a run that reaches the output step every index denotes the site of the record or of the finding
that it was interned for, no accepted line was forwarded with an index outside the table, and the
printers find every site. -/
theorem prepareReport_sites (run : RunModelLib lib) (args : RunArguments) (input : RunInput lib)
    {st : State lib} (h : prepareReport run args input = .ok st) :
    let start := createModel run input
    let reads := readLines input.resourceLog.reads
    (∃ before : State lib, st = finalizeLeaks before ∧
      SitesSound st.model (accepted resourceStatus resourceStep start reads)
        (returnedFindings (finishPending before.model.fds.items.length before))) ∧
    InBounds st.model ∧ EveryStep resourceStep ForwardsInBounds start reads ∧
    ∀ args : Arguments, (printTextReport args st.model).isSome = true ∧
      (printJsonReport args st.model).isSome = true := by
  intro start reads
  obtain ⟨hread, hfinal, runModel, err, rfl⟩ := prepareReport_ok h
  rw [readLogs, createModel_eq] at hread
  obtain ⟨hnamed, hstores, -⟩ := readers_store hread
  obtain ⟨hbetween, -⟩ := readCalls_ok hread
  obtain ⟨-, hresources⟩ := readResources_ok hbetween
  have hsound := SitesSound.of_finalizeLeaks hfinal hnamed
    (hstores.of_grown rfl rfl List.prefix_rfl) (readers_origins hread)
  have hbounds := hsound.inBounds
  refine ⟨⟨_, rfl, hsound⟩, hbounds, ?_, ?_⟩
  · rw [hresources] at hbetween
    have hempty : StoresRecords start.model [] := ⟨rfl, rfl, by simp⟩
    exact resourceRun_inBounds readLines_not_error hbetween
      (fun site hsite => absurd hsite List.not_mem_nil) hempty
  · intro args
    exact ⟨isSome_printTextReport hbounds args, isSome_printJsonReport hbounds args⟩

/-- A descriptor that is left open: the report has a finding to print. -/
theorem prepareReport_sites_leak :
    let start := createModel fixtureRun leakInput
    let reads := readLines leakInput.resourceLog.reads
    ∃ st, prepareReport fixtureRun fixtureArguments leakInput = .ok st ∧
      (∃ before : State fixtureLib, st = finalizeLeaks before ∧
        SitesSound st.model (accepted resourceStatus resourceStep start reads)
          (returnedFindings (finishPending before.model.fds.items.length before))) ∧
      InBounds st.model ∧ EveryStep resourceStep ForwardsInBounds start reads ∧
      ∀ args : Arguments, (printTextReport args st.model).isSome = true ∧
        (printJsonReport args st.model).isSome = true := by
  intro start reads
  obtain ⟨st, h⟩ := leakInput_ok
  exact ⟨st, h, prepareReport_sites fixtureRun fixtureArguments leakInput h⟩

end P101Report
