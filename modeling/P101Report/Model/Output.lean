import P101Report.Library.Decimal
import P101Report.Model.Lifetimes

/-!
# The JSON report

`src/json.c`, `src/finding.c`, and the JSON parts of `src/lifetime.c` and `src/output.c`, when no
write to the standard output fails. A text is a list of pieces in the order in which they are
written. A site that is looked up outside the table has no value, and neither has a text that needs
it.
-/

set_option autoImplicit false

namespace P101Report

open Decimal

/-! ## `json.c` -/

/-- `JSON_CONTROL_LIMIT`. -/
def jsonControlLimit : UInt8 := 0x20

/-- `JSON_NON_ASCII_LIMIT`. -/
def jsonNonAsciiLimit : UInt8 := 0x80

/-- A digit of `%x`. -/
def hexDigit (n : Nat) : UInt8 := if n < 10 then UInt8.ofNat (48 + n) else UInt8.ofNat (87 + n)

/-- `%04x` of a number below `0x10000`. -/
def hexFour (n : Nat) : List UInt8 :=
  [hexDigit (n / 4096 % 16), hexDigit (n / 256 % 16), hexDigit (n / 16 % 16), hexDigit (n % 16)]

/-- The loop body of `p101_report_json_string`. -/
def jsonByte (current : UInt8) : List UInt8 :=
  if current = 0x22 ∨ current = 0x5c then [0x5c, current]
  else if current = 0x0a then ascii "\\n"
  else if current = 0x0d then ascii "\\r"
  else if current = 0x09 then ascii "\\t"
  else if current < jsonControlLimit ∨ jsonNonAsciiLimit ≤ current then
    ascii "\\u" ++ hexFour current.toNat
  else [current]

/-- `p101_report_json_string`. -/
def jsonString (text : Option Text) : List UInt8 :=
  match text with
  | none => [0x22, 0x22]
  | some text => 0x22 :: (text.bytes.flatMap jsonByte ++ [0x22])

/-! ## `finding.c` -/

/-- `p101_report_site_matches_call`. -/
def siteMatchesCall (site : SourceSite) (call : CallEvent) (pid : Int) (contextId : Nat) : Bool :=
  if call.pid ≠ pid ∨ call.contextId ≠ contextId then false
  else if site.lineNumber = call.lineNumber ∧ site.fileName = call.fileName then true
  else decide (site.fileName = call.fileName ∧ site.functionName = call.functionName)

/-- `p101_report_finding_name`. -/
def findingName : FindingKind → Text
  | .fdLeak => lit "leaked descriptor"
  | .allocLeak => lit "leaked allocation"
  | .doubleClose => lit "double close"
  | .strayClose => lit "close of unknown descriptor"
  | .doubleFree => lit "double free"
  | .strayFree => lit "free of unknown pointer"
  | .badRealloc => lit "realloc of unknown pointer"
  | .execInherit => lit "descriptor inherited across exec"
  | .resourceLeak => lit "leaked resource"
  | .resourceDoubleRelease => lit "double release"
  | .resourceStrayRelease => lit "release of unknown resource"
  | .resourceBadReplace => lit "replacement without a new resource identifier"
  | .resourceDuplicateAcquire => lit "duplicate acquisition of a live resource"

/-- `p101_report_finding_id`. -/
def findingId : FindingKind → Text
  | .fdLeak => lit "P101-FD-001"
  | .doubleClose => lit "P101-FD-002"
  | .strayClose => lit "P101-FD-003"
  | .allocLeak => lit "P101-ALLOC-001"
  | .doubleFree => lit "P101-ALLOC-002"
  | .strayFree => lit "P101-ALLOC-003"
  | .badRealloc => lit "P101-ALLOC-004"
  | .execInherit => lit "P101-FD-004"
  | .resourceLeak => lit "P101-RESOURCE-001"
  | .resourceDoubleRelease => lit "P101-RESOURCE-002"
  | .resourceStrayRelease => lit "P101-RESOURCE-003"
  | .resourceBadReplace => lit "P101-RESOURCE-004"
  | .resourceDuplicateAcquire => lit "P101-RESOURCE-005"

/-! ## `lifetime.c` -/

variable {lib : ToolEventLib}

/-- `model->sites[index]`. -/
def ReportModel.siteAt (model : ReportModel lib) (index : Nat) : Option SourceSite :=
  model.sites.items[index]?

/-- `p101_report_print_json_optional_time`. -/
def printJsonOptionalTime (event : ResourceEvent) : List UInt8 :=
  List.flatten [
    ascii ", \"event_sequence\": ", decimalNat event.eventSequence,
    if event.monotonicNsAvailable ≠ 0 then
      ascii ", \"monotonic_ns\": " ++ decimalNat event.monotonicNs
    else ascii ", \"monotonic_ns\": null",
    if event.wallUnixNsAvailable ≠ 0 then
      ascii ", \"wall_unix_ns\": " ++ decimalNat event.wallUnixNs
    else ascii ", \"wall_unix_ns\": null"]

/-- The name of the operation that a birth or a death is printed with. -/
def eventKindName (event : ResourceEvent) : Text :=
  if event.kind = .generic then genericOperationName event.genericKind
  else resourceKindName event.kind

/-- The resource that a lifetime is about. -/
def printJsonLifetimeResource (birth : ResourceEvent) : List UInt8 :=
  if birth.kind = .fdOpen then
    List.flatten [jsonString (some (lit "fd")), ascii ", \"fd\": ", decimalInt birth.fd]
  else if birth.kind = .alloc ∨ birth.kind = .realloc then
    List.flatten [
      jsonString (some (lit "allocation")),
      ascii ", \"ptr\": ", jsonString (some ((allocBirthPtr birth).getD dash)),
      ascii ", \"bytes\": ", decimalNat birth.size]
  else
    List.flatten [
      jsonString (some (lit "generic")),
      ascii ", \"resource_class\": ",
      jsonString (some (birth.resourceClass.getD (lit "resource"))),
      ascii ", \"resource_id\": ",
      match genericBirthId birth with
      | none => ascii "\"?\""
      | some resourceId => jsonString (some resourceId),
      ascii ", \"context_id\": ", decimalNat birth.contextId]

/-- A birth or a death, between its braces. -/
def printJsonEvent (site : SourceSite) (event : ResourceEvent) : List UInt8 :=
  List.flatten [
    ascii "\x7b\"event\": ", decimalNat event.sequence,
    ascii ", \"kind\": ", jsonString (some (eventKindName event)),
    printJsonOptionalTime event,
    ascii ", \"file\": ", jsonString site.fileName,
    ascii ", \"line\": ", decimalInt site.lineNumber,
    ascii ", \"function\": ", jsonString site.functionName, ascii "\x7d"]

/-- The death of a lifetime and how long it lasted. -/
def printJsonDeath (model : ReportModel lib) (birth : ResourceEvent) :
    Option ResourceEvent → Option (List UInt8)
  | none => some (ascii ", \"death\": null, \"duration_ns\": null")
  | some death => do
    let deathSite ← model.siteAt death.site
    return List.flatten [
      ascii ", \"death\": ", printJsonEvent deathSite death,
      match lifetimeDurationNs birth death with
      | some durationNs => ascii ", \"duration_ns\": " ++ decimalNat durationNs
      | none => ascii ", \"duration_ns\": null"]

/-- `p101_report_print_json_lifetime`. -/
def printJsonLifetime (model : ReportModel lib) (birth : ResourceEvent) : Option (List UInt8) := do
  let site ← model.siteAt birth.site
  let death ← printJsonDeath model birth (findLifetimeEnd model.resources.items birth)
  return List.flatten [
    ascii "    \x7b\"resource\": ", printJsonLifetimeResource birth,
    ascii ", \"pid\": ", decimalInt birth.pid,
    ascii ", \"birth\": ", printJsonEvent site birth,
    death, ascii "\x7d"]

/-- The condition on which the loop of `p101_report_print_json_lifetimes` goes on to the next
event. -/
def isNoBirth (event : ResourceEvent) : Bool :=
  event.kind != .fdOpen && event.kind != .alloc &&
    !(event.kind == .realloc && event.newPtr.isSome && event.newPtr != some dash) &&
    !(event.kind == .generic && (event.genericKind == .acquire ||
      ((event.genericKind == .replace || event.genericKind == .transfer) &&
        event.relatedId.isSome)))

/-- It is the negation of what the other two loops ask for. -/
theorem isNoBirth_eq (event : ResourceEvent) : isNoBirth event = !isBirth event := by
  rw [isNoBirth, isBirth, isAllocBirth, isGenericBirth]
  simp only [bne, Bool.not_and, Bool.not_or, Bool.not_not, Bool.or_assoc, Bool.and_assoc]

/-- The loop of `p101_report_print_json_lifetimes`. -/
def printJsonLifetimesLoop (model : ReportModel lib) :
    List ResourceEvent → Nat → Option (List UInt8)
  | [], _ => some []
  | event :: rest, printed =>
    if isNoBirth event then printJsonLifetimesLoop model rest printed
    else do
      let lifetime ← printJsonLifetime model event
      let later ← printJsonLifetimesLoop model rest (printed + 1)
      return List.flatten [if printed > 0 then ascii "," else [], ascii "\n", lifetime, later]

/-- `p101_report_print_json_lifetimes`. -/
def printJsonLifetimes (model : ReportModel lib) : Option (List UInt8) :=
  printJsonLifetimesLoop model model.resources.items 0

/-! ## `output.c` -/

/-- `TRACE_CONTEXT_LIMIT`. -/
def traceContextLimit : Nat := 5

/-- `p101_report_finding_is_generic`. -/
def findingIsGeneric (kind : FindingKind) : Bool :=
  kind == .resourceLeak || kind == .resourceDoubleRelease || kind == .resourceStrayRelease ||
    kind == .resourceBadReplace || kind == .resourceDuplicateAcquire

/-- The first loop of `p101_report_trace_bounds` from `index` on: the last `ENTER` of the site with
the greatest sequence up to that of the finding. -/
def traceBegin (site : SourceSite) (finding : Finding) :
    List CallEvent → Nat → Option Nat → Nat → Option Nat
  | [], _, first, _ => first
  | call :: rest, index, first, bestSequence =>
    if call.kind = .enter ∧ call.eventSequence ≤ finding.eventSequence ∧
        bestSequence ≤ call.eventSequence ∧
        siteMatchesCall site call finding.pid finding.contextId = true then
      traceBegin site finding rest (index + 1) (some index) call.eventSequence
    else traceBegin site finding rest (index + 1) first bestSequence

/-- The second loop of `p101_report_trace_bounds` from `index` on. It starts at an `ENTER` of the
call, so that the depth is positive at every `EXIT`. -/
def traceEnd (finding : Finding) (callName : Option Text) :
    List CallEvent → Nat → Nat → Option Nat
  | [], _, _ => none
  | call :: rest, index, depth =>
    if call.pid ≠ finding.pid ∨ call.contextId ≠ finding.contextId ∨ call.callName ≠ callName then
      traceEnd finding callName rest (index + 1) depth
    else if call.kind = .enter then traceEnd finding callName rest (index + 1) (depth + 1)
    else if depth - 1 = 0 then some index
    else traceEnd finding callName rest (index + 1) (depth - 1)

/-- `p101_report_trace_bounds`: `none` where the source has `SIZE_MAX`. -/
def traceBounds (model : ReportModel lib) (site : SourceSite) (finding : Finding) :
    Option (Nat × Nat) := do
  let calls := model.calls.items
  let first ← traceBegin site finding calls 0 none 0
  let call ← calls[first]?
  return (first, (traceEnd finding call.callName (calls.drop first) first 0).getD
    (calls.length - 1))

/-- One call of a trace. -/
def printJsonCall (call : CallEvent) : List UInt8 :=
  List.flatten [
    ascii "\x7b\"sequence\": ", decimalNat call.sequence,
    ascii ", \"event\": ",
    jsonString (some (if call.kind = .enter then lit "ENTER" else lit "EXIT")),
    ascii ", \"call\": ", jsonString call.callName,
    ascii ", \"arguments\": ", jsonString call.arguments,
    ascii ", \"result\": ", jsonString call.result,
    ascii ", \"file\": ", jsonString call.fileName,
    ascii ", \"line\": ", decimalInt call.lineNumber,
    ascii ", \"function\": ", jsonString call.functionName, ascii "\x7d"]

/-- The loop of `p101_report_print_json_trace_context` over the calls within the bounds. -/
def printJsonTraceLoop (finding : Finding) : List CallEvent → Nat → List UInt8
  | [], _ => []
  | call :: rest, printed =>
    if printed < traceContextLimit then
      if call.pid ≠ finding.pid ∨ call.contextId ≠ finding.contextId then
        printJsonTraceLoop finding rest printed
      else
        List.flatten [
          if printed > 0 then ascii ", " else [], printJsonCall call,
          printJsonTraceLoop finding rest (printed + 1)]
    else []

/-- `p101_report_print_json_trace_context`. -/
def printJsonTraceContext (model : ReportModel lib) (site : SourceSite) (finding : Finding) :
    List UInt8 :=
  match traceBounds model site finding with
  | none => []
  | some (first, last) =>
    printJsonTraceLoop finding ((model.calls.items.take (last + 1)).drop first) 0

/-- The resource that a finding is about. -/
def printJsonFindingResource (finding : Finding) : List UInt8 :=
  if findingIsGeneric finding.kind then
    List.flatten [
      ascii ", \"resource_class\": ",
      jsonString (some (finding.resourceClass.getD (lit "resource"))),
      ascii ", \"resource_id\": ", jsonString (some (finding.resourceId.getD (lit "?"))),
      ascii ", \"context_id\": ", decimalNat finding.contextId]
  else if finding.kind = .fdLeak ∨ finding.kind = .doubleClose ∨ finding.kind = .strayClose ∨
      finding.kind = .execInherit then
    List.flatten [
      ascii ", \"fd\": ", decimalInt finding.fd,
      if finding.kind = .execInherit then
        ascii ", \"target\": " ++ jsonString (some (finding.ptr.getD (lit "?")))
      else []]
  else
    List.flatten [
      ascii ", \"ptr\": ", jsonString (some (finding.ptr.getD dash)),
      ascii ", \"bytes\": ", decimalNat finding.size]

/-- The site of the earlier record, when the finding has one. -/
def printJsonPrevious (model : ReportModel lib) (finding : Finding) : Option (List UInt8) :=
  if finding.previousSequence ≠ 0 ∧ finding.previousSite < model.sites.items.length then do
    let previous ← model.siteAt finding.previousSite
    return List.flatten [
      ascii ", \"previous\": \x7b\"resource_event\": ", decimalNat finding.previousSequence,
      ascii ", \"file\": ", jsonString previous.fileName,
      ascii ", \"line\": ", decimalInt previous.lineNumber,
      ascii ", \"function\": ", jsonString previous.functionName, ascii "\x7d"]
  else some []

/-- `p101_report_print_json_finding`. -/
def printJsonFinding (model : ReportModel lib) (finding : Finding) : Option (List UInt8) := do
  let site ← model.siteAt finding.site
  let previous ← printJsonPrevious model finding
  return List.flatten [
    ascii "    \x7b\"id\": ", jsonString (some (findingId finding.kind)),
    ascii ", \"severity\": \"error\", \"location\": \x7b\"path\": ", jsonString site.fileName,
    ascii ", \"line\": ", decimalInt site.lineNumber,
    ascii ", \"function\": ", jsonString site.functionName,
    ascii "\x7d, \"message\": ", jsonString (some (findingName finding.kind)),
    ascii ", \"evidence\": \x7b\"event_schema\": \"", lib.schemaName.bytes,
    ascii "\", \"resource_event\": ", decimalNat finding.sequence,
    ascii "\x7d, \"kind\": ", jsonString (some (findingName finding.kind)),
    ascii ", \"pid\": ", decimalInt finding.pid,
    printJsonFindingResource finding,
    ascii ", \"resource_event\": ", decimalNat finding.sequence,
    ascii ", \"site\": \x7b\"file\": ", jsonString site.fileName,
    ascii ", \"line\": ", decimalInt site.lineNumber,
    ascii ", \"function\": ", jsonString site.functionName, ascii "\x7d",
    previous,
    ascii ", \"trace\": [", printJsonTraceContext model site finding, ascii "]\x7d"]

/-- The loop over the findings of `p101_report_print_json_report` from `index` on. -/
def printJsonFindings (model : ReportModel lib) : List Finding → Nat → Option (List UInt8)
  | [], _ => some []
  | finding :: rest, index => do
    let text ← printJsonFinding model finding
    let later ← printJsonFindings model rest (index + 1)
    return List.flatten [if index > 0 then ascii "," else [], ascii "\n", text, later]

/-- The log paths of `struct arguments`. -/
structure Arguments where
  resourceLog : Option Text
  callLog : Option Text

/-- `value ? "true" : "false"`. -/
def jsonBool (value : Bool) : List UInt8 := if value then ascii "true" else ascii "false"

/-- The members of the summary. -/
def printJsonSummary (model : ReportModel lib) : List UInt8 :=
  let resource := model.resourceStreamHealth
  let call := model.callStreamHealth
  List.flatten [
    ascii "    \"resource_records\": ", decimalNat model.resourceRecords, ascii ",\n",
    ascii "    \"resource_skipped\": ", decimalNat model.resourceSkipped, ascii ",\n",
    ascii "    \"resource_malformed\": ", decimalNat model.resourceMalformed, ascii ",\n",
    ascii "    \"resource_bad_version\": ", decimalNat model.resourceBadVersion, ascii ",\n",
    ascii "    \"call_records\": ", decimalNat model.callRecords, ascii ",\n",
    ascii "    \"call_skipped\": ", decimalNat model.callSkipped, ascii ",\n",
    ascii "    \"call_malformed\": ", decimalNat model.callMalformed, ascii ",\n",
    ascii "    \"call_bad_version\": ", decimalNat model.callBadVersion, ascii ",\n",
    ascii "    \"resource_complete\": ", jsonBool (lib.healthIsComplete resource), ascii ",\n",
    ascii "    \"resource_producers\": ", decimalNat resource.producerCount, ascii ",\n",
    ascii "    \"resource_incomplete_producers\": ",
    decimalNat (lib.healthIncompleteProducers resource), ascii ",\n",
    ascii "    \"resource_completion_records\": ", decimalNat resource.completionRecords,
    ascii ",\n",
    ascii "    \"resource_producer_write_failures\": ", decimalNat resource.producerWriteFailures,
    ascii ",\n",
    ascii "    \"resource_duplicate_sequences\": ", decimalNat resource.duplicateSequences,
    ascii ",\n",
    ascii "    \"resource_records_after_completion\": ",
    decimalNat resource.recordsAfterCompletion, ascii ",\n",
    ascii "    \"call_complete\": ", jsonBool (lib.healthIsComplete call), ascii ",\n",
    ascii "    \"call_producers\": ", decimalNat call.producerCount, ascii ",\n",
    ascii "    \"call_incomplete_producers\": ", decimalNat (lib.healthIncompleteProducers call),
    ascii ",\n",
    ascii "    \"call_completion_records\": ", decimalNat call.completionRecords, ascii ",\n",
    ascii "    \"call_producer_write_failures\": ", decimalNat call.producerWriteFailures,
    ascii ",\n",
    ascii "    \"call_duplicate_sequences\": ", decimalNat call.duplicateSequences, ascii ",\n",
    ascii "    \"call_records_after_completion\": ", decimalNat call.recordsAfterCompletion,
    ascii ",\n",
    ascii "    \"findings\": ", decimalNat model.findings.items.length, ascii "\n"]

/-- `p101_report_print_json_report`. -/
def printJsonReport (args : Arguments) (model : ReportModel lib) : Option (List UInt8) := do
  let lifetimes ← printJsonLifetimes model
  let findings ← printJsonFindings model model.findings.items 0
  return List.flatten [
    ascii "\x7b\n  \"schema\": \"p101-report-findings-v3\",\n",
    ascii "  \"event_schema\": \"", lib.schemaName.bytes, ascii "\",\n",
    ascii "  \"event_id_policy\": \"derived-1-based-input-sequence\",\n",
    ascii "  \"resource_log\": ", jsonString args.resourceLog,
    ascii ",\n  \"call_log\": ", jsonString args.callLog,
    ascii ",\n  \"summary\": \x7b\n", printJsonSummary model,
    ascii "  \x7d,\n  \"lifetimes\": [", lifetimes,
    ascii "\n  ],\n  \"findings\": [", findings,
    if model.findings.items.length > 0 then ascii "\n" else [],
    ascii "  ]\n\x7d\n"]

end P101Report
