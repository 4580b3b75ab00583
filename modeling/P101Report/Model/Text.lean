import P101Report.Model.Output

/-!
# The text report

The text parts of `src/lifetime.c` and `src/output.c`, when no write to the standard output fails.
As in the JSON report, a site that is looked up outside the table has no value, and neither has a
text that needs it.
-/

set_option autoImplicit false

namespace P101Report

open Decimal

variable {lib : ToolEventLib}

/-- `%s`; a null pointer is printed as the C library prints it. -/
def percentS (text : Option Text) : List UInt8 :=
  match text with
  | none => ascii "(null)"
  | some text => text.bytes

/-- `n == 1U ? "" : "s"`. -/
def pluralS (n : Nat) : List UInt8 := if n = 1 then [] else ascii "s"

/-- `%s:%d in %s` of a site. -/
def printSite (site : SourceSite) : List UInt8 :=
  List.flatten [
    percentS site.fileName, ascii ":", decimalInt site.lineNumber, ascii " in ",
    percentS site.functionName]

/-! ## `lifetime.c` -/

/-- `LIFETIME_TEXT_LIMIT`. -/
def lifetimeTextLimit : Nat := 40

/-- `p101_report_print_text_timeline`. -/
def printTextTimeline (label : Text) (birth : ResourceEvent) (death : Option ResourceEvent) :
    List UInt8 :=
  List.flatten [
    ascii "     timeline: event ", decimalNat birth.eventSequence, ascii " ", label.bytes,
    match death with
    | none => ascii " --------- still live\n"
    | some death =>
      List.flatten [
        ascii " --------- event ", decimalNat death.eventSequence, ascii " ",
        (resourceKindName death.kind).bytes,
        match lifetimeDurationNs birth death with
        | some durationNs => List.flatten [ascii " (", decimalNat durationNs, ascii " ns)"]
        | none => [],
        ascii "\n"]]

/-- The resource of a lifetime, up to the number of its birth. -/
def printTextSubject (birth : ResourceEvent) : List UInt8 :=
  if birth.kind = .fdOpen then
    List.flatten [
      ascii "  fd ", decimalInt birth.fd, ascii " pid ", decimalInt birth.pid, ascii ": event "]
  else if birth.kind = .alloc ∨ birth.kind = .realloc then
    List.flatten [
      ascii "  ptr ", ((allocBirthPtr birth).getD dash).bytes, ascii " pid ", decimalInt birth.pid,
      ascii ": event "]
  else
    List.flatten [
      ascii "  ", (birth.resourceClass.getD (lit "resource")).bytes, ascii " ",
      ((genericBirthId birth).getD (lit "?")).bytes, ascii " pid ", decimalInt birth.pid,
      ascii " context ", decimalNat birth.contextId, ascii ": event "]

/-- What happened at the birth, behind its number. -/
def printTextBirth (birth : ResourceEvent) : List UInt8 :=
  if birth.kind = .fdOpen then ascii " opened at "
  else if birth.kind = .alloc ∨ birth.kind = .realloc then
    List.flatten [
      ascii " ", (resourceKindName birth.kind).bytes, ascii " ", decimalNat birth.size,
      ascii " byte", pluralS birth.size, ascii " at "]
  else
    List.flatten [ascii " ", (genericOperationName birth.genericKind).bytes, ascii " at "]

/-- What happened at the death of a lifetime with this birth, behind its number. -/
def printTextDeath (birth death : ResourceEvent) : List UInt8 :=
  if birth.kind = .fdOpen then ascii " closed at "
  else if birth.kind = .alloc ∨ birth.kind = .realloc then
    List.flatten [ascii " ", (resourceKindName death.kind).bytes, ascii " at "]
  else
    List.flatten [ascii " ", (genericOperationName death.genericKind).bytes, ascii " at "]

/-- The end of the line of a lifetime. -/
def printTextEnd (model : ReportModel lib) (birth : ResourceEvent) :
    Option ResourceEvent → Option (List UInt8)
  | none => some (ascii " -> still live\n")
  | some death => do
    let deathSite ← model.siteAt death.site
    return List.flatten [
      ascii " -> event ", decimalNat death.eventSequence, printTextDeath birth death,
      printSite deathSite, ascii "\n"]

/-- The label of the timeline. -/
def textLabel (birth : ResourceEvent) : Text :=
  if birth.kind = .fdOpen then lit "fd-open"
  else if birth.kind = .alloc ∨ birth.kind = .realloc then resourceKindName birth.kind
  else genericOperationName birth.genericKind

/-- The two lines that the loop of `p101_report_print_text_lifetimes` prints for a birth. -/
def printTextLifetime (model : ReportModel lib) (birth : ResourceEvent)
    (death : Option ResourceEvent) : Option (List UInt8) := do
  let site ← model.siteAt birth.site
  let ending ← printTextEnd model birth death
  return List.flatten [
    printTextSubject birth, decimalNat birth.eventSequence, printTextBirth birth, printSite site,
    ending, printTextTimeline (textLabel birth) birth death]

/-- The loop of `p101_report_print_text_lifetimes`, with `printed` and `total_lifetimes`. -/
def printTextLifetimesLoop (model : ReportModel lib) :
    List ResourceEvent → Nat → Nat → Option (List UInt8 × Nat × Nat)
  | [], printed, totalLifetimes => some ([], printed, totalLifetimes)
  | birth :: rest, printed, totalLifetimes =>
    if isBirth birth then
      if lifetimeTextLimit ≤ printed then
        printTextLifetimesLoop model rest printed (totalLifetimes + 1)
      else do
        let lifetime ← printTextLifetime model birth (findLifetimeEnd model.resources.items birth)
        let (later, counts) ←
          printTextLifetimesLoop model rest (printed + 1) (totalLifetimes + 1)
        return (lifetime ++ later, counts)
    else printTextLifetimesLoop model rest printed totalLifetimes

/-- The notice behind the lifetimes: that there are none, or that not all are shown. -/
def printTextNotice (printed totalLifetimes : Nat) : List UInt8 :=
  if totalLifetimes = 0 then ascii "  no resource lifetimes recorded\n"
  else if printed < totalLifetimes then
    List.flatten [
      ascii "  ... showing first ", decimalNat printed, ascii " of ", decimalNat totalLifetimes,
      ascii " lifetimes\n"]
  else []

/-- `p101_report_print_text_lifetimes`. -/
def printTextLifetimes (model : ReportModel lib) : Option (List UInt8) := do
  let (lifetimes, printed, totalLifetimes) ←
    printTextLifetimesLoop model model.resources.items 0 0
  return List.flatten [
    ascii "Resource lifetimes\n", lifetimes, printTextNotice printed totalLifetimes, ascii "\n"]

/-! ## `output.c` -/

/-- One call of a trace. -/
def printTextCall (call : CallEvent) : List UInt8 :=
  List.flatten [
    ascii "     #", decimalNat call.sequence, ascii " ",
    if call.kind = .enter then ascii "ENTER" else ascii "EXIT ",
    ascii " ", percentS call.callName, ascii "(", percentS call.arguments, ascii ") -> ",
    percentS call.result, ascii " at ", percentS call.fileName, ascii ":",
    decimalInt call.lineNumber, ascii " in ", percentS call.functionName, ascii "\n"]

/-- The loop of `p101_report_print_trace_context` over the calls within the bounds, with the number
of calls printed in the end. -/
def printTraceLoop (finding : Finding) : List CallEvent → Nat → List UInt8 × Nat
  | [], printed => ([], printed)
  | call :: rest, printed =>
    if printed < traceContextLimit then
      if call.pid = finding.pid ∧ call.contextId = finding.contextId then
        let (later, total) := printTraceLoop finding rest (printed + 1)
        (printTextCall call ++ later, total)
      else printTraceLoop finding rest printed
    else ([], printed)

/-- `p101_report_print_trace_context`. -/
def printTraceContext (model : ReportModel lib) (site : SourceSite) (finding : Finding) :
    List UInt8 :=
  let (calls, printed) :=
    match traceBounds model site finding with
    | none => ([], 0)
    | some (first, last) =>
      printTraceLoop finding ((model.calls.items.take (last + 1)).drop first) 0
  List.flatten [
    ascii "   trace:\n", calls,
    if printed = 0 then ascii "     no matching call records for this source site\n" else []]

/-- The resource that a finding is about. -/
def printFindingResource (finding : Finding) : List UInt8 :=
  if findingIsGeneric finding.kind then
    List.flatten [
      ascii "   resource: ", (finding.resourceClass.getD (lit "resource")).bytes, ascii " ",
      (finding.resourceId.getD (lit "?")).bytes, ascii ", pid ", decimalInt finding.pid,
      ascii ", context ", decimalNat finding.contextId, ascii ", resource event #",
      decimalNat finding.sequence, ascii "\n"]
  else if finding.kind = .fdLeak ∨ finding.kind = .doubleClose ∨ finding.kind = .strayClose ∨
      finding.kind = .execInherit then
    List.flatten [
      ascii "   resource: fd ", decimalInt finding.fd, ascii ", pid ", decimalInt finding.pid,
      ascii ", resource event #", decimalNat finding.sequence, ascii "\n",
      if finding.kind = .execInherit then
        List.flatten [
          ascii "   exec:     target ", (finding.ptr.getD (lit "?")).bytes,
          ascii " would inherit this descriptor without FD_CLOEXEC\n"]
      else []]
  else
    List.flatten [
      ascii "   resource: ptr ", (finding.ptr.getD dash).bytes, ascii ", ",
      decimalNat finding.size, ascii " byte", pluralS finding.size, ascii ", pid ",
      decimalInt finding.pid, ascii ", resource event #", decimalNat finding.sequence, ascii "\n"]

/-- The site of the earlier record, when the finding has one. -/
def printPrevious (model : ReportModel lib) (finding : Finding) : Option (List UInt8) :=
  if finding.previousSequence ≠ 0 ∧ finding.previousSite < model.sites.items.length then do
    let previous ← model.siteAt finding.previousSite
    return List.flatten [
      ascii "   previous: ", printSite previous, ascii " at resource event #",
      decimalNat finding.previousSequence, ascii "\n"]
  else some []

/-- `p101_report_print_finding`. -/
def printFinding (model : ReportModel lib) (finding : Finding) (ordinal : Nat) :
    Option (List UInt8) := do
  let site ← model.siteAt finding.site
  let previous ← printPrevious model finding
  return List.flatten [
    decimalNat ordinal, ascii ". ", (findingId finding.kind).bytes, ascii " ",
    (findingName finding.kind).bytes, ascii "\n", printFindingResource finding,
    ascii "   site:     ", printSite site, ascii "\n", previous,
    printTraceContext model site finding, ascii "\n"]

/-- The loop over the findings of `p101_report_print_text_report` from `index` on. -/
def printFindings (model : ReportModel lib) : List Finding → Nat → Option (List UInt8)
  | [], _ => some []
  | finding :: rest, index => do
    let text ← printFinding model finding (index + 1)
    let later ← printFindings model rest (index + 1)
    return text ++ later

/-- The summary line of one stream. -/
def printStream (health : StreamHealth lib.HealthInner) : List UInt8 :=
  List.flatten [
    if lib.healthIsComplete health then ascii "complete" else ascii "INCOMPLETE",
    ascii " (", decimalNat health.producerCount, ascii " producer", pluralS health.producerCount,
    ascii ", ", decimalNat (lib.healthIncompleteProducers health), ascii " incomplete, ",
    decimalNat health.completionRecords, ascii " completion record",
    pluralS health.completionRecords, ascii ", ", decimalNat health.producerWriteFailures,
    ascii " producer write failure", pluralS health.producerWriteFailures, ascii ")\n"]

/-- The summary line of the records of one log. -/
def printRecords (records skipped malformed badVersion : Nat) : List UInt8 :=
  List.flatten [
    decimalNat records, ascii " parsed, ", decimalNat skipped, ascii " skipped, ",
    decimalNat malformed, ascii " malformed, ", decimalNat badVersion,
    ascii " unsupported version\n"]

/-- The part of `p101_report_print_text_report` behind the lifetimes. -/
def printTextFindings (model : ReportModel lib) : Option (List UInt8) :=
  if model.findings.items.length = 0 then some (ascii "No resource findings. Nice and boring.\n")
  else
    (printFindings model model.findings.items 0).map fun findings =>
      ascii "Findings with trace context\n" ++ findings

/-- `p101_report_print_text_report`. -/
def printTextReport (args : Arguments) (model : ReportModel lib) : Option (List UInt8) := do
  let lifetimes ← printTextLifetimes model
  let findings ← printTextFindings model
  return List.flatten [
    ascii "p101-report\n",
    ascii "event schema: ", lib.schemaName.bytes, ascii "\n",
    ascii "resource log: ", percentS args.resourceLog, ascii "\n",
    ascii "call log:     ", percentS args.callLog, ascii "\n\n",
    ascii "Summary\n",
    ascii "  resource records: ",
    printRecords model.resourceRecords model.resourceSkipped model.resourceMalformed
      model.resourceBadVersion,
    ascii "  call records:     ",
    printRecords model.callRecords model.callSkipped model.callMalformed model.callBadVersion,
    ascii "  resource stream:  ", printStream model.resourceStreamHealth,
    ascii "  call stream:      ", printStream model.callStreamHealth,
    ascii "  findings:         ", decimalNat model.findings.items.length, ascii "\n\n",
    lifetimes, findings]

end P101Report
