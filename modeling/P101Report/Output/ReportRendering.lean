import P101Report.Output.LifetimeRenderers
import P101Report.Output.ReportReader
import P101Report.Output.TraceWindow

/-!
# The other reports, from the JSON report

What a consumer reads out of the JSON report is enough to write the two other reports of the run,
byte for byte: the text report is `renderText` of it, and the Mermaid report `renderMermaid`
(`reports_agree`). So no format tells more than the JSON report, and none tells something else.
-/

set_option autoImplicit false

namespace P101Report

open Decimal Json

variable {lib : ToolEventLib}

/-! ## The text report of a view -/

/-- `%s:%d in %s` of a site. -/
def renderSite (site : SiteView) : List UInt8 :=
  List.flatten [site.file, ascii ":", decimalInt site.line, ascii " in ", site.function]

/-- The resource at the head of a lifetime. -/
def renderSubject (pid : Int) : ResourceView → List UInt8
  | .descriptor fd | .exec fd _ =>
    List.flatten [
      ascii "  fd ", decimalInt fd, ascii " pid ", decimalInt pid, ascii ": event "]
  | .allocation ptr _ =>
    List.flatten [ascii "  ptr ", ptr, ascii " pid ", decimalInt pid, ascii ": event "]
  | .generic resourceClass resourceId contextId =>
    List.flatten [
      ascii "  ", resourceClass, ascii " ", resourceId, ascii " pid ", decimalInt pid,
      ascii " context ", decimalNat contextId, ascii ": event "]

/-- How a resource has come to be, in front of its site. -/
def renderBirth (birth : EventView) : ResourceView → List UInt8
  | .descriptor _ | .exec _ _ => ascii " opened at "
  | .allocation _ size =>
    List.flatten [
      ascii " ", birth.kind, ascii " ", decimalNat size, ascii " byte", pluralS size,
      ascii " at "]
  | .generic _ _ _ => List.flatten [ascii " ", birth.kind, ascii " at "]

/-- How it has ended. -/
def renderDeath (death : EventView) : ResourceView → List UInt8
  | .descriptor _ | .exec _ _ => ascii " closed at "
  | .allocation _ _ | .generic _ _ _ => List.flatten [ascii " ", death.kind, ascii " at "]

/-- The end of the first line of a lifetime. -/
def renderEnd (resource : ResourceView) : Option EventView → List UInt8
  | none => ascii " -> still live\n"
  | some death =>
    List.flatten [
      ascii " -> event ", decimalNat death.eventSequence, renderDeath death resource,
      renderSite death.site, ascii "\n"]

/-- The kind of an event without the operation of a generic resource. -/
def plainKind (event : EventView) : ResourceView → List UInt8
  | .generic _ _ _ => (resourceKindName .generic).bytes
  | .descriptor _ | .exec _ _ | .allocation _ _ => event.kind

/-- The name of the birth in the timeline. -/
def renderLabel (birth : EventView) : ResourceView → List UInt8
  | .descriptor _ | .exec _ _ => ascii "fd-open"
  | .allocation _ _ | .generic _ _ _ => birth.kind

/-- The second line of a lifetime. Both show the numbers of the producer. -/
def renderTimeline (lifetime : LifetimeView) : List UInt8 :=
  List.flatten [
    ascii "     timeline: event ", decimalNat lifetime.birth.eventSequence, ascii " ",
    renderLabel lifetime.birth lifetime.resource,
    match lifetime.death with
    | none => ascii " --------- still live\n"
    | some death =>
      List.flatten [
        ascii " --------- event ", decimalNat death.eventSequence, ascii " ",
        plainKind death lifetime.resource,
        match lifetime.durationNs with
        | some durationNs => List.flatten [ascii " (", decimalNat durationNs, ascii " ns)"]
        | none => [],
        ascii "\n"]]

/-- The two lines of a lifetime. -/
def renderLifetime (lifetime : LifetimeView) : List UInt8 :=
  List.flatten [
    renderSubject lifetime.pid lifetime.resource, decimalNat lifetime.birth.eventSequence,
    renderBirth lifetime.birth lifetime.resource, renderSite lifetime.birth.site,
    renderEnd lifetime.resource lifetime.death, renderTimeline lifetime]

/-- The lifetimes up to the limit, with the notice. -/
def renderLifetimes (lifetimes : List LifetimeView) : List UInt8 :=
  List.flatten [
    ascii "Resource lifetimes\n", ((lifetimes.take lifetimeTextLimit).map renderLifetime).flatten,
    printTextNotice (min lifetimeTextLimit lifetimes.length) lifetimes.length, ascii "\n"]

/-- A call record of a trace. -/
def renderCall (call : CallView) : List UInt8 :=
  List.flatten [
    ascii "     #", decimalNat call.sequence, ascii " ",
    if call.event = ascii "ENTER" then ascii "ENTER" else ascii "EXIT ",
    ascii " ", call.call, ascii "(", call.arguments, ascii ") -> ", call.result, ascii " at ",
    renderSite call.site, ascii "\n"]

/-- The trace of a finding, or a note that it is empty. -/
def renderTrace (trace : List CallView) : List UInt8 :=
  List.flatten [
    ascii "   trace:\n", (trace.map renderCall).flatten,
    if trace = [] then ascii "     no matching call records for this source site\n" else []]

/-- The resource of a finding. -/
def renderFindingResource (finding : FindingView) : List UInt8 :=
  match finding.resource with
  | .generic resourceClass resourceId contextId =>
    List.flatten [
      ascii "   resource: ", resourceClass, ascii " ", resourceId, ascii ", pid ",
      decimalInt finding.pid, ascii ", context ", decimalNat contextId, ascii ", resource event #",
      decimalNat finding.sequence, ascii "\n"]
  | .descriptor fd =>
    List.flatten [
      ascii "   resource: fd ", decimalInt fd, ascii ", pid ", decimalInt finding.pid,
      ascii ", resource event #", decimalNat finding.sequence, ascii "\n"]
  | .exec fd target =>
    List.flatten [
      ascii "   resource: fd ", decimalInt fd, ascii ", pid ", decimalInt finding.pid,
      ascii ", resource event #", decimalNat finding.sequence, ascii "\n",
      ascii "   exec:     target ", target,
      ascii " would inherit this descriptor without FD_CLOEXEC\n"]
  | .allocation ptr size =>
    List.flatten [
      ascii "   resource: ptr ", ptr, ascii ", ", decimalNat size, ascii " byte", pluralS size,
      ascii ", pid ", decimalInt finding.pid, ascii ", resource event #",
      decimalNat finding.sequence, ascii "\n"]

/-- The earlier event of a finding, where it has one. -/
def renderPrevious : Option (Nat × SiteView) → List UInt8
  | none => []
  | some (sequence, site) =>
    List.flatten [
      ascii "   previous: ", renderSite site, ascii " at resource event #", decimalNat sequence,
      ascii "\n"]

/-- A finding under its number in the report. -/
def renderFinding (finding : FindingView) (ordinal : Nat) : List UInt8 :=
  List.flatten [
    decimalNat ordinal, ascii ". ", (findingId finding.kind).bytes, ascii " ",
    (findingName finding.kind).bytes, ascii "\n", renderFindingResource finding,
    ascii "   site:     ", renderSite finding.site, ascii "\n", renderPrevious finding.previous,
    renderTrace finding.trace, ascii "\n"]

/-- The findings from `index` on. -/
def renderFindings : List FindingView → Nat → List UInt8
  | [], _ => []
  | finding :: rest, index => renderFinding finding (index + 1) ++ renderFindings rest (index + 1)

/-- The section on findings. -/
def renderTextFindings (findings : List FindingView) : List UInt8 :=
  if findings.length = 0 then ascii "No resource findings. Nice and boring.\n"
  else ascii "Findings with trace context\n" ++ renderFindings findings 0

/-- The health of a stream. -/
def renderStream (stream : StreamView) : List UInt8 :=
  List.flatten [
    if stream.complete then ascii "complete" else ascii "INCOMPLETE",
    ascii " (", decimalNat stream.producers, ascii " producer", pluralS stream.producers,
    ascii ", ", decimalNat stream.incompleteProducers, ascii " incomplete, ",
    decimalNat stream.completionRecords, ascii " completion record",
    pluralS stream.completionRecords, ascii ", ", decimalNat stream.producerWriteFailures,
    ascii " producer write failure", pluralS stream.producerWriteFailures, ascii ")\n"]

def renderRecords (stream : StreamView) : List UInt8 :=
  printRecords stream.records stream.skipped stream.malformed stream.badVersion

/-- The text report. -/
def renderText (view : ReportView) : List UInt8 :=
  List.flatten [
    ascii "p101-report\n",
    ascii "event schema: ", view.eventSchema, ascii "\n",
    ascii "resource log: ", view.resourceLog, ascii "\n",
    ascii "call log:     ", view.callLog, ascii "\n\n",
    ascii "Summary\n",
    ascii "  resource records: ", renderRecords view.resource,
    ascii "  call records:     ", renderRecords view.call,
    ascii "  resource stream:  ", renderStream view.resource,
    ascii "  call stream:      ", renderStream view.call,
    ascii "  findings:         ", decimalNat view.findings.length, ascii "\n\n",
    renderLifetimes view.lifetimes, renderTextFindings view.findings]

/-! ## The Mermaid report of a view -/

/-- The name of a resource in a label. -/
def mermaidName : ResourceView → List UInt8
  | .descriptor _ | .exec _ _ => ascii "fd"
  | .allocation _ _ => ascii "alloc"
  | .generic resourceClass _ _ => resourceClass

/-- The edges of a lifetime: from the summary to its birth, and on to its end or to a leak. -/
def renderMermaidLifetime (lifetime : LifetimeView) : List UInt8 :=
  let birth := lifetime.birth
  List.flatten [
    ascii "    summary --> b", decimalNat birth.sequence, ascii "[\"event ",
    decimalNat birth.eventSequence, ascii " ", mermaidName lifetime.resource, ascii " ",
    plainKind birth lifetime.resource, ascii "\"]\n",
    match lifetime.death with
    | none =>
      List.flatten [
        ascii "    b", decimalNat birth.sequence, ascii " --> leak", decimalNat birth.sequence,
        ascii "[\"still live at exit\"]\n",
        ascii "    leak", decimalNat birth.sequence, ascii ":::leak\n"]
    | some death =>
      List.flatten [
        ascii "    b", decimalNat birth.sequence, ascii " --> d", decimalNat death.sequence,
        ascii "[\"event ", decimalNat death.eventSequence, ascii " ",
        plainKind death lifetime.resource,
        match lifetime.durationNs with
        | some durationNs => List.flatten [ascii "; ", decimalNat durationNs, ascii " ns"]
        | none => [],
        ascii "\"]\n"]]

/-- The Mermaid report. -/
def renderMermaid (view : ReportView) : List UInt8 :=
  List.flatten [
    ascii "\x60\x60\x60mermaid\n", ascii "flowchart LR\n",
    ascii "    summary[\"resources: ", decimalNat view.resource.records,
    ascii " records; calls: ", decimalNat view.call.records, ascii " records; findings: ",
    decimalNat view.findings.length, ascii "\"]\n",
    ((view.lifetimes.take lifetimeTextLimit).map renderMermaidLifetime).flatten,
    printMermaidNotice (min lifetimeTextLimit view.lifetimes.length),
    ascii "    classDef leak fill:#ffd6d6,stroke:#a33,stroke-width:2px\n",
    ascii "\x60\x60\x60\n"]

/-! ## Names -/

/-- Every site and every call has its texts. -/
structure NamesPresent (model : ReportModel lib) : Prop where
  sites : SitesNamed model
  calls : ∀ call ∈ model.calls.items, call.functionName.isSome = true ∧
    call.callName.isSome = true ∧ call.arguments.isSome = true ∧ call.result.isSome = true ∧
    call.fileName.isSome = true

/-- Text that is there is printed by `%s` as it is. -/
theorem percentS_eq {text : Option Text} (h : text.isSome = true) :
    percentS text = textBytes text := by
  obtain ⟨text, rfl⟩ := Option.isSome_iff_exists.1 h
  rfl

/-- A site of the table is printed as that of its view. -/
theorem printSite_eq {model : ReportModel lib} (hnamed : SitesNamed model) {index : Nat}
    (hindex : index < model.sites.items.length) :
    printSite (model.siteOf index) = renderSite (siteView (model.siteOf index)) := by
  have hmem : model.siteOf index ∈ model.sites.items :=
    List.mem_of_getElem? (siteAt_of_lt hindex)
  obtain ⟨hfile, hfunction⟩ := hnamed _ hmem
  simp only [printSite, renderSite, siteView, percentS_eq hfile, percentS_eq hfunction]

/-- A call record is printed as its view. -/
theorem printTextCall_eq {model : ReportModel lib} (hnames : NamesPresent model) {call : CallEvent}
    (hcall : call ∈ model.calls.items) : printTextCall call = renderCall (callView call) := by
  obtain ⟨hfunction, hname, harguments, hresult, hfile⟩ := hnames.calls call hcall
  have hevent : (if (callView call).event = ascii "ENTER" then ascii "ENTER" else ascii "EXIT ") =
      if call.kind = .enter then ascii "ENTER" else ascii "EXIT " := by
    have hne : ascii "EXIT" ≠ ascii "ENTER" := by decide
    by_cases hkind : call.kind = .enter
    · simp [callView, hkind]
    · simp [callView, hkind, hne]
  rw [printTextCall, renderCall, hevent, percentS_eq hfunction, percentS_eq hname,
    percentS_eq harguments, percentS_eq hresult, percentS_eq hfile]
  simp [callView, renderSite]

/-! ## Lifetimes -/

/-- The kinds of records that begin a lifetime. -/
theorem isBirth_cases {birth : ResourceEvent} (h : isBirth birth = true) :
    birth.kind = .fdOpen ∨ (birth.kind = .alloc ∨ birth.kind = .realloc) ∨
      birth.kind = .generic := by
  simp only [isBirth, isAllocBirth, isGenericBirth, Bool.or_eq_true, Bool.and_eq_true,
    beq_iff_eq] at h
  tauto

/-- The kind of a death goes with that of its birth. -/
theorem death_kind {resources : List ResourceEvent} {birth death : ResourceEvent}
    (h : findLifetimeEnd resources birth = some death) :
    (birth.kind = .fdOpen → death.kind = .fdClose) ∧
      (birth.kind = .alloc ∨ birth.kind = .realloc → death.kind = .free ∨ death.kind = .realloc) ∧
      (birth.kind = .generic → death.kind = .generic) := by
  unfold findLifetimeEnd at h
  split at h
  · rename_i hbirth
    have hdeath := List.find?_some h
    simp only [Bool.and_eq_true, beq_iff_eq] at hdeath
    simp [hbirth, hdeath]
  · rename_i hfd
    split at h
    · rename_i hbirth
      have hdeath := List.find?_some h
      simp only [Bool.and_eq_true, Bool.or_eq_true, beq_iff_eq] at hdeath
      refine ⟨fun h => absurd h hfd, fun _ => by tauto, fun h => ?_⟩
      rw [h] at hbirth
      rcases hbirth with hbirth | hbirth <;> cases hbirth
    · rename_i hbirth
      unfold findGenericLifetimeEnd at h
      split at h
      · cases h
      · have hdeath := List.find?_some h
        simp only [Bool.and_eq_true, beq_iff_eq] at hdeath
        exact ⟨fun h => absurd h hfd, fun h => absurd h hbirth, fun _ => by tauto⟩

/-- The lifetime of a birth, by the kind of its resource. -/
inductive LifetimeKind (birth : ResourceEvent) : Option ResourceEvent → Prop
  | descriptor {death} (hbirth : birth.kind = .fdOpen)
      (hdeath : ∀ event, death = some event → event.kind = .fdClose) : LifetimeKind birth death
  | allocation {death} (hfd : birth.kind ≠ .fdOpen)
      (hbirth : birth.kind = .alloc ∨ birth.kind = .realloc)
      (hdeath : ∀ event, death = some event → event.kind = .free ∨ event.kind = .realloc) :
      LifetimeKind birth death
  | generic {death} (hbirth : birth.kind = .generic)
      (hdeath : ∀ event, death = some event → event.kind = .generic) : LifetimeKind birth death

theorem lifetimeKind {resources : List ResourceEvent} {birth : ResourceEvent}
    (h : isBirth birth = true) : LifetimeKind birth (findLifetimeEnd resources birth) := by
  obtain hbirth | hbirth | hbirth := isBirth_cases h
  · exact .descriptor hbirth fun event hevent => (death_kind hevent).1 hbirth
  · refine .allocation ?_ hbirth fun event hevent => (death_kind hevent).2.1 hbirth
    rcases hbirth with hbirth | hbirth <;> rw [hbirth] <;> decide
  · exact .generic hbirth fun event hevent => (death_kind hevent).2.2 hbirth

section Pieces

variable {model : ReportModel lib} {birth : ResourceEvent} {death : Option ResourceEvent}

/-- What is said about a birth, by the kind of its resource. -/
theorem printTextBirth_eq (h : LifetimeKind birth death) :
    printTextSubject birth = renderSubject birth.pid (lifetimeResourceView birth) ∧
      printTextBirth birth = renderBirth (eventView model birth) (lifetimeResourceView birth) ∧
      (textLabel birth).bytes =
        renderLabel (eventView model birth) (lifetimeResourceView birth) := by
  cases h with
  | descriptor hbirth _ =>
    simp only [printTextSubject, printTextBirth, textLabel, lifetimeResourceView, hbirth, if_true]
    exact ⟨rfl, rfl, rfl⟩
  | allocation hfd hbirth _ =>
    have hgeneric : birth.kind ≠ .generic := by
      rcases hbirth with hbirth | hbirth <;> rw [hbirth] <;> decide
    simp [printTextSubject, printTextBirth, textLabel, lifetimeResourceView, hfd, hbirth,
      renderSubject, renderBirth, renderLabel, eventView, eventKindName, hgeneric]
  | generic hbirth _ =>
    simp [printTextSubject, printTextBirth, textLabel, lifetimeResourceView, hbirth,
      renderSubject, renderBirth, renderLabel, eventView, eventKindName]

/-- What is said about a death, by the kind of the resource. -/
theorem printTextDeath_eq {death : ResourceEvent} (h : LifetimeKind birth (some death)) :
    printTextDeath birth death =
        renderDeath (eventView model death) (lifetimeResourceView birth) ∧
      (resourceKindName death.kind).bytes =
        plainKind (eventView model death) (lifetimeResourceView birth) := by
  cases h with
  | descriptor hbirth hdeath =>
    have hdeath := hdeath death rfl
    simp [printTextDeath, lifetimeResourceView, hbirth, renderDeath, plainKind, eventView,
      eventKindName, hdeath]
  | allocation hfd hbirth hdeath =>
    have hgeneric : death.kind ≠ .generic := by
      rcases hdeath death rfl with hdeath | hdeath <;> rw [hdeath] <;> decide
    simp [printTextDeath, lifetimeResourceView, hfd, hbirth, renderDeath, plainKind, eventView,
      eventKindName, hgeneric]
  | generic hbirth hdeath =>
    have hdeath := hdeath death rfl
    simp [printTextDeath, lifetimeResourceView, hbirth, renderDeath, plainKind, eventView,
      eventKindName, hdeath]

/-- What the JSON report says about a lifetime with this end. -/
def lifetimeViewWith (model : ReportModel lib) (birth : ResourceEvent)
    (death : Option ResourceEvent) : LifetimeView where
  resource := lifetimeResourceView birth
  pid := birth.pid
  birth := eventView model birth
  death := death.map (eventView model)
  durationNs := death.bind (lifetimeDurationNs birth)

theorem printTextTimeline_eq (h : LifetimeKind birth death) :
    printTextTimeline (textLabel birth) birth death =
      renderTimeline (lifetimeViewWith model birth death) := by
  rw [printTextTimeline.eq_def, (@printTextBirth_eq _ model _ _ h).2.2]
  cases death with
  | none => rfl
  | some death =>
    simp only [(@printTextDeath_eq _ model _ _ h).2]
    rfl

theorem printTextEnd_eq (hnamed : SitesNamed model) (h : LifetimeKind birth death)
    (hrange : ∀ event, death = some event → event.site < model.sites.items.length) :
    printTextEnd model birth death =
      some (renderEnd (lifetimeResourceView birth) (death.map (eventView model))) := by
  cases death with
  | none => rfl
  | some death =>
    have hrange := hrange death rfl
    rw [printTextEnd, siteAt_of_lt hrange, (@printTextDeath_eq _ model _ _ h).1]
    simp only [Option.bind_eq_bind, Option.bind_some, printSite_eq hnamed hrange]
    rfl

end Pieces

/-- The two lines of a lifetime are those of its view. -/
theorem printTextLifetime_eq {model : ReportModel lib} (hnamed : SitesNamed model)
    (hsites : SitesInRange model) {birth : ResourceEvent}
    (hstored : birth ∈ model.resources.items) (hbirth : isBirth birth = true) :
    printTextLifetime model birth (findLifetimeEnd model.resources.items birth) =
      some (renderLifetime (lifetimeView model birth)) := by
  have hkind := @lifetimeKind model.resources.items _ hbirth
  have hsite := siteAt_of_lt (hsites.1 birth hstored)
  have hname := printSite_eq hnamed (hsites.1 birth hstored)
  obtain ⟨hsubject, hopening, -⟩ := @printTextBirth_eq _ model _ _ hkind
  rw [printTextLifetime, hsite, hsubject, hopening, @printTextTimeline_eq _ model _ _ hkind,
    printTextEnd_eq hnamed hkind fun event hevent => hsites.1 event (mem_of_findLifetimeEnd hevent)]
  simp only [Option.bind_eq_bind, Option.bind_some, hname]
  rfl

/-- A partial map that is defined on every item of a list. -/
theorem mapM_eq_some_map {α β : Type} {f : α → Option β} {g : α → β} {l : List α}
    (h : ∀ a ∈ l, f a = some (g a)) : l.mapM f = some (l.map g) := by
  induction l with
  | nil => rfl
  | cons a rest ih =>
    rw [List.mapM_cons, h a List.mem_cons_self, ih fun a ha => h a (List.mem_cons_of_mem _ ha)]
    rfl

/-- The lifetimes of the JSON report are those of the model. -/
theorem lifetimes_reportView (args : Arguments) (model : ReportModel lib) :
    (reportView args model).lifetimes =
      model.lifetimes.map fun lifetime => lifetimeViewWith model lifetime.1 lifetime.2 := by
  rw [reportView, ReportModel.lifetimes, lifetimesFrom, List.map_map]
  rfl

/-- The section on lifetimes is that of the view: the loop stops at the same limit. -/
theorem printTextLifetimes_eq {model : ReportModel lib} (hnamed : SitesNamed model)
    (hsites : SitesInRange model) (args : Arguments) :
    printTextLifetimes model = some (renderLifetimes (reportView args model).lifetimes) := by
  have hentries : textLifetimes model (model.lifetimes.take lifetimeTextLimit) =
      some ((model.lifetimes.take lifetimeTextLimit).map fun lifetime =>
        renderLifetime (lifetimeViewWith model lifetime.1 lifetime.2)) := by
    refine mapM_eq_some_map fun lifetime hmem => ?_
    obtain ⟨hstored, hbirth, hend⟩ := mem_lifetimes (List.mem_of_mem_take hmem)
    rw [hend]
    exact printTextLifetime_eq hnamed hsites hstored hbirth
  rw [printTextLifetimes, printTextLifetimesLoop_eq, Nat.sub_zero]
  change (Option.map _ (textLifetimes model (model.lifetimes.take lifetimeTextLimit))).bind _ = _
  rw [hentries, renderLifetimes, lifetimes_reportView]
  simp only [Option.map_some, Option.bind_some, Nat.zero_add, List.length_map, ← List.map_take,
    List.map_map]
  rfl

/-! ## Findings -/

section Findings

variable {model : ReportModel lib} {finding : Finding}

/-- The resource of a finding is printed as that of its view. -/
theorem printFindingResource_eq (finding : Finding) :
    printFindingResource finding = renderFindingResource (findingView model finding) := by
  rw [renderFindingResource, printFindingResource]
  simp only [findingView, findingResourceView]
  by_cases hgeneric : findingIsGeneric finding.kind = true
  · rw [if_pos hgeneric, if_pos hgeneric]
  · rw [if_neg hgeneric, if_neg hgeneric]
    by_cases hexec : finding.kind = .execInherit
    · simp [hexec]
    · by_cases hdescriptor :
          finding.kind = .fdLeak ∨ finding.kind = .doubleClose ∨ finding.kind = .strayClose
      · rw [if_pos (by tauto), if_neg hexec, if_neg hexec, if_pos hdescriptor]
        simp
      · rw [if_neg (by tauto), if_neg hexec, if_neg hdescriptor]

/-- The earlier event is printed exactly when the view has one. -/
theorem printPrevious_eq (hnamed : SitesNamed model) (finding : Finding) :
    printPrevious model finding = some (renderPrevious (findingView model finding).previous) := by
  rw [printPrevious]
  simp only [findingView]
  by_cases hprevious : finding.previousSequence ≠ 0 ∧
      finding.previousSite < model.sites.items.length
  · rw [if_pos hprevious, if_pos hprevious, siteAt_of_lt hprevious.2]
    simp only [Option.bind_eq_bind, Option.bind_some, printSite_eq hnamed hprevious.2]
    rfl
  · rw [if_neg hprevious, if_neg hprevious]
    rfl

/-- The text report lists the calls of the JSON report. -/
theorem listsCalls_tracedCalls (model : ReportModel lib) (site : SourceSite) (finding : Finding) :
    ListsCalls model site finding (tracedCalls model site finding) := by
  rw [tracedCalls]
  cases hbounds : traceBounds model site finding with
  | none => exact listsCalls_nil hbounds
  | some bounds => exact listsCalls_of_bounds hbounds

/-- The calls of a trace are stored records. -/
theorem mem_tracedCalls {site : SourceSite} {call : CallEvent}
    (h : call ∈ tracedCalls model site finding) : call ∈ model.calls.items := by
  rw [tracedCalls] at h
  split at h
  · cases h
  · exact List.mem_of_mem_take (List.mem_of_mem_drop
      (List.mem_of_mem_filter (List.mem_of_mem_take h)))

/-- The trace of a finding is that of its view. -/
theorem printTraceContext_eq (hnames : NamesPresent model) (finding : Finding) :
    printTraceContext model (model.siteOf finding.site) finding =
      renderTrace (findingView model finding).trace := by
  have hcalls : (tracedCalls model (model.siteOf finding.site) finding).map printTextCall =
      ((tracedCalls model (model.siteOf finding.site) finding).map callView).map renderCall := by
    rw [List.map_map]
    exact List.map_congr_left fun call hcall => printTextCall_eq hnames (mem_tracedCalls hcall)
  rw [(listsCalls_tracedCalls model _ finding).text, hcalls, renderTrace]
  simp only [findingView, List.map_eq_nil_iff]

/-- A finding is printed as its view. -/
theorem printFinding_eq (hnames : NamesPresent model)
    (hsite : finding.site < model.sites.items.length) (ordinal : Nat) :
    printFinding model finding ordinal =
      some (renderFinding (findingView model finding) ordinal) := by
  rw [printFinding, siteAt_of_lt hsite, printPrevious_eq hnames.sites,
    @printFindingResource_eq _ model finding]
  simp only [Option.bind_eq_bind, Option.bind_some, printSite_eq hnames.sites hsite,
    printTraceContext_eq hnames]
  rfl

/-- The findings are printed one after the other, with their numbers. -/
theorem printFindings_eq (hnames : NamesPresent model) {findings : List Finding}
    (hsites : ∀ finding ∈ findings, finding.site < model.sites.items.length) (index : Nat) :
    printFindings model findings index =
      some (renderFindings (findings.map (findingView model)) index) := by
  induction findings generalizing index with
  | nil => rfl
  | cons finding rest ih =>
    rw [printFindings, printFinding_eq hnames (hsites finding List.mem_cons_self),
      ih fun later hlater => hsites later (List.mem_cons_of_mem _ hlater)]
    rfl

end Findings

/-! ## The text report -/

theorem length_findings_reportView (args : Arguments) (model : ReportModel lib) :
    (reportView args model).findings.length = model.findings.items.length :=
  List.length_map _

theorem printTextFindings_eq {model : ReportModel lib} (hnames : NamesPresent model)
    (hsites : SitesInRange model) (args : Arguments) :
    printTextFindings model = some (renderTextFindings (reportView args model).findings) := by
  rw [printTextFindings, renderTextFindings, length_findings_reportView,
    printFindings_eq hnames hsites.2 0]
  split <;> rfl

/-- **Text.** The text report of a model is that of its view. -/
theorem printTextReport_eq {model : ReportModel lib} (hnames : NamesPresent model)
    (hsites : SitesInRange model) {args : Arguments} (hresourceLog : args.resourceLog.isSome = true)
    (hcallLog : args.callLog.isSome = true) :
    printTextReport args model = some (renderText (reportView args model)) := by
  rw [printTextReport, printTextLifetimes_eq hnames.sites hsites args,
    printTextFindings_eq hnames hsites args, renderText, percentS_eq hresourceLog,
    percentS_eq hcallLog, length_findings_reportView]
  rfl

/-! ## The Mermaid report -/

theorem mermaidName_eq {birth : ResourceEvent} {death : Option ResourceEvent}
    (h : LifetimeKind birth death) :
    (mermaidResourceName birth).bytes = mermaidName (lifetimeResourceView birth) := by
  cases h with
  | descriptor hbirth _ =>
    simp only [mermaidResourceName, lifetimeResourceView, hbirth, if_true]
    rfl
  | allocation hfd hbirth _ =>
    simp only [mermaidResourceName, lifetimeResourceView, if_neg hfd, if_pos hbirth]
    rfl
  | generic hbirth _ => simp [mermaidResourceName, lifetimeResourceView, hbirth, mermaidName]

theorem plainKind_birth {model : ReportModel lib} {birth : ResourceEvent}
    {death : Option ResourceEvent} (h : LifetimeKind birth death) :
    (resourceKindName birth.kind).bytes =
      plainKind (eventView model birth) (lifetimeResourceView birth) := by
  cases h with
  | descriptor hbirth _ =>
    simp [lifetimeResourceView, hbirth, plainKind, eventView, eventKindName]
  | allocation hfd hbirth _ =>
    have hgeneric : birth.kind ≠ .generic := by
      rcases hbirth with hbirth | hbirth <;> rw [hbirth] <;> decide
    simp [lifetimeResourceView, hfd, hbirth, plainKind, eventView, eventKindName, hgeneric]
  | generic hbirth _ => simp [lifetimeResourceView, hbirth, plainKind]

/-- The edges of a lifetime are those of its view. -/
theorem printMermaidLifetime_eq_render {model : ReportModel lib} {birth : ResourceEvent}
    {death : Option ResourceEvent} (h : LifetimeKind birth death) :
    printMermaidLifetime birth death =
      renderMermaidLifetime (lifetimeViewWith model birth death) := by
  rw [printMermaidLifetime, printMermaidBirth, mermaidName_eq h, @plainKind_birth _ model _ _ h]
  cases death with
  | none => simp [printMermaidEnd, renderMermaidLifetime, lifetimeViewWith, eventView]
  | some death =>
    rw [printMermaidEnd, (@printTextDeath_eq _ model _ _ h).2]
    simp only [renderMermaidLifetime, lifetimeViewWith, Option.map_some, Option.bind_some]
    cases lifetimeDurationNs birth death with
    | none => simp [eventView]
    | some durationNs => simp [eventView, ascii]

/-- **Mermaid.** The Mermaid report of a model is that of its view. -/
theorem printMermaidReport_eq (args : Arguments) (model : ReportModel lib) :
    printMermaidReport model = renderMermaid (reportView args model) := by
  have hentries : mermaidLifetimes (model.lifetimes.take lifetimeTextLimit) =
      (model.lifetimes.take lifetimeTextLimit).map fun lifetime =>
        renderMermaidLifetime (lifetimeViewWith model lifetime.1 lifetime.2) := by
    refine List.map_congr_left fun lifetime hmem => ?_
    obtain ⟨-, hbirth, hend⟩ := mem_lifetimes (List.mem_of_mem_take hmem)
    rw [hend]
    exact printMermaidLifetime_eq_render (lifetimeKind hbirth)
  have hlifetimes : printMermaidLifetimesLoop model model.resources.items 0 =
      ((mermaidLifetimes (model.lifetimes.take lifetimeTextLimit)).flatten,
        min lifetimeTextLimit model.lifetimes.length) := by
    rw [printMermaidLifetimesLoop_eq, Nat.sub_zero, Nat.zero_add]
    rfl
  rw [printMermaidReport, printMermaidBody, printMermaidLifetimes, hlifetimes, hentries,
    renderMermaid, lifetimes_reportView]
  simp only [List.length_map, ← List.map_take, List.map_map, List.flatten_cons, List.flatten_nil,
    List.append_nil, List.append_assoc]
  rw [length_findings_reportView]
  rfl

/-! ## The three reports of a run -/

/-- After the readers and the finalization every text is there. -/
theorem prepareReport_names {run : RunModelLib lib} {args : RunArguments} {input : RunInput lib}
    {st : State lib} (h : prepareReport run args input = .ok st) : NamesPresent st.model := by
  obtain ⟨hread, hfinal, runModel, err, rfl⟩ := prepareReport_ok h
  rw [readLogs, createModel_eq] at hread
  obtain ⟨hnamed, hstores, hcalls⟩ := readers_store hread
  have hsound := SitesSound.of_finalizeLeaks hfinal hnamed
    (hstores.of_grown rfl rfl List.prefix_rfl) (readers_origins hread)
  refine ⟨hsound.named, fun call hcall => ?_⟩
  -- the calls are those the reader has stored, each with a copy of every text
  obtain ⟨-, hrecords, -⟩ := finalizeLeaks_onlyInterns
    (⟨{ (readLogs run args input).model with runModel }, err⟩ : State lib)
  have hstored : call ∈ (readLogs run args input).model.calls.items :=
    (congrArg (fun records : Records lib => call ∈ records.calls.items) hrecords).mp hcall
  rw [readLogs, createModel_eq, hcalls.stored] at hstored
  obtain ⟨i, hi, rfl⟩ := List.mem_mapIdx.1 hstored
  exact ⟨rfl, rfl, rfl, rfl, rfl⟩

/-- **The other reports are in the JSON report.** A consumer that reads the JSON report of a run can
write the text report and the Mermaid report of the same run, byte for byte. -/
theorem reports_agree {run : RunModelLib lib} {args : RunArguments} {input : RunInput lib}
    {st : State lib} (h : prepareReport run args input = .ok st)
    (hschema : Plain lib.schemaName.bytes) (hresourceLog : args.resourceLog.isSome = true)
    (hcallLog : args.callLog.isSome = true) :
    ∃ json view, printJsonReport args.toArguments st.model = some json ∧
      readReport json = some view ∧
      printTextReport args.toArguments st.model = some (renderText view) ∧
      printMermaidReport st.model = renderMermaid view := by
  have hsites := (prepareReport_inBounds h).sitesInRange
  obtain ⟨json, hjson, hread⟩ := readReport_printJsonReport args.toArguments hschema hsites
  exact ⟨json, _, hjson, hread,
    printTextReport_eq (prepareReport_names h) hsites hresourceLog hcallLog,
    printMermaidReport_eq args.toArguments st.model⟩

/-- A log with a leak, which the text report shows with its trace. -/
theorem reports_agree_leak :
    ∃ st, prepareReport fixtureRun fixtureArguments leakInput = .ok st ∧
      st.model.findings.items.length = 1 ∧
      ∃ json view, printJsonReport fixtureArguments.toArguments st.model = some json ∧
        readReport json = some view ∧
        printTextReport fixtureArguments.toArguments st.model = some (renderText view) ∧
        printMermaidReport st.model = renderMermaid view := by
  obtain ⟨st, h⟩ := leakInput_ok
  have hlength : (prepareReport fixtureRun fixtureArguments leakInput).toOption.map
      (fun st => st.model.findings.items.length) = some 1 := by
    decide +kernel
  rw [h] at hlength
  exact ⟨st, h, Option.some.inj hlength, reports_agree h (by decide) rfl rfl⟩

end P101Report
