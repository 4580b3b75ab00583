import P101Report.Library.JsonDocument
import P101Report.Output.Bundle
import P101Report.Output.JsonReport

/-!
# Reading a report back

A consumer of the JSON report. From the bytes alone it recovers the counts of both streams, every
lifetime and every finding with its resource, site, earlier record and trace, and from them the exit
status of the run (`reportRun_readBack`). Texts come back as their bytes, with the constants that
the report writes in the place of a null pointer.
-/

set_option autoImplicit false

namespace P101Report

open Decimal Json

variable {lib : ToolEventLib}

/-! ## Values -/

/-- The value of the first member with this name. -/
def memberOf (name : String) : Json → Option Json
  | .object members => (members.find? fun member => member.1 = key name).map Prod.snd
  | _ => none

/-- A number without sign, fraction or exponent, written without leading zeros. -/
def natOf : Json → Option Nat
  | .number literal =>
    if decimalNat (readNat literal) = literal then some (readNat literal) else none
  | _ => none

/-- Such a number, with a minus sign in front of it or not. -/
def intOf : Json → Option Int
  | .number literal =>
    if literal.head? = some 0x2d then (natOf (.number literal.tail)).map fun n : Nat => -(n : Int)
    else (natOf (.number literal)).map Int.ofNat
  | _ => none

/-- A string whose code units are bytes. -/
def bytesOf : Json → Option (List UInt8)
  | .string units => if ∀ unit ∈ units, unit < 256 then some (units.map UInt8.ofNat) else none
  | _ => none

/-- `true` or `false`. -/
def boolOf : Json → Option Bool
  | .bool b => some b
  | _ => none

/-- A value, or `null`. -/
def orNull {α : Type} (read : Json → Option α) : Json → Option (Option α)
  | .null => some none
  | json => (read json).map some

/-- An array, every item read in the same way. -/
def itemsOf {α : Type} (read : Json → Option α) : Json → Option (List α)
  | .array items => items.mapM read
  | _ => none

/-- A member, read as what it is. -/
def readMember {α : Type} (name : String) (read : Json → Option α) (json : Json) : Option α :=
  (memberOf name json).bind read

/-- A member that may be missing. -/
def readOptionalMember {α : Type} (name : String) (read : Json → Option α) (json : Json) :
    Option (Option α) :=
  match memberOf name json with
  | none => some none
  | some value => (read value).map some

/-- The bytes of a text, as the report writes them. -/
def textBytes (text : Option Text) : List UInt8 := (text.map (·.bytes)).getD []

/-- Numbers are read back. -/
@[simp] theorem natOf_natJson (n : Nat) : natOf (natJson n) = some n := by
  simp [natOf, natJson, readNat_decimalNat]

@[simp] theorem intOf_intJson (i : Int) : intOf (intJson i) = some i := by
  have hnat : ∀ n, natOf (.number (decimalNat n)) = some n := natOf_natJson
  rw [intJson, decimalInt]
  split
  · rename_i hneg
    rw [intOf, if_pos List.head?_cons, List.tail_cons, hnat, Option.map_some]
    congr 1
    omega
  · rename_i hneg
    have hhead : (decimalNat i.natAbs).head? ≠ some 0x2d := fun h =>
      absurd (decimalNat_digit (List.mem_of_mem_head? h)).1 (by decide)
    rw [intOf, if_neg hhead, hnat, Option.map_some]
    congr 1
    simp only [Int.ofNat_eq_natCast]
    omega

/-- So are texts: the report writes the bytes of a text as the units of a string. -/
@[simp] theorem bytesOf_textJson (text : Option Text) :
    bytesOf (textJson text) = some (textBytes text) := by
  have hbytes : ∀ unit ∈ (textBytes text).map UInt8.toNat, unit < 256 := by
    intro unit hunit
    obtain ⟨b, -, rfl⟩ := List.mem_map.1 hunit
    exact b.toNat_lt
  rw [textJson, bytesOf]
  change (if ∀ unit ∈ (textBytes text).map UInt8.toNat, unit < 256 then
    some (((textBytes text).map UInt8.toNat).map UInt8.ofNat) else none) = _
  have hid : UInt8.ofNat ∘ UInt8.toNat = id := funext fun b => UInt8.ofNat_toNat
  rw [if_pos hbytes, List.map_map, hid, List.map_id]

@[simp] theorem orNull_optionalJson (n : Option Nat) :
    orNull natOf (optionalJson n) = some n := by
  cases n with
  | none => rfl
  | some n => exact congrArg (Option.map some) (natOf_natJson n)

/-- An array whose items are read back one by one is read back. -/
theorem itemsOf_map {α β : Type} {read : Json → Option β} {write : α → Json} {view : α → β}
    {items : List α} (h : ∀ item ∈ items, read (write item) = some (view item)) :
    itemsOf read (.array (items.map write)) = some (items.map view) := by
  rw [itemsOf]
  induction items with
  | nil => rfl
  | cons item rest ih =>
    rw [List.map_cons, List.mapM_cons, h item List.mem_cons_self,
      ih fun later hlater => h later (List.mem_cons_of_mem _ hlater)]
    rfl

/-- The object has these members under these keys. -/
def HasMembers (json : Json) (members : List (List Nat × Json)) : Prop :=
  ∀ name value, (key name, value) ∈ members → memberOf name json = some value

/-- Where no key occurs twice, each member is found. -/
theorem hasMembers_of_distinct {members found : List (List Nat × Json)}
    (h : (Json.object members).KeysDistinct) (hsome : found ⊆ members) :
    HasMembers (.object members) found := by
  intro name value hmember
  have hkeys : (members.map Prod.fst).Nodup := by
    cases h with
    | object hkeys _ => exact hkeys
  have hfind : members.find? (fun member => member.1 = key name) = some (key name, value) := by
    refine List.find?_eq_some_iff_append.2 ⟨by simp, ?_⟩
    obtain ⟨before, after, rfl⟩ := List.append_of_mem (hsome hmember)
    refine ⟨before, after, rfl, fun other hother => ?_⟩
    rw [List.map_append, List.map_cons, List.nodup_append] at hkeys
    simpa using hkeys.2.2 _ (List.mem_map_of_mem hother) _ List.mem_cons_self
  rw [memberOf, hfind, Option.map_some]

/-- A member that the object does not have is not found. -/
theorem memberOf_eq_none {name : String} {members : List (List Nat × Json)}
    (h : key name ∉ members.map Prod.fst) : memberOf name (.object members) = none := by
  have hnone : members.find? (fun member => member.1 = key name) = none := by
    rw [List.find?_eq_none]
    intro member hmember
    simp only [decide_eq_true_eq]
    exact fun heq => h (List.mem_map.2 ⟨member, hmember, heq⟩)
  rw [memberOf, hnone, Option.map_none]

/-! ## What a report says -/

/-- Where something has happened in the source. -/
structure SiteView where
  file : List UInt8
  line : Int
  function : List UInt8
  deriving DecidableEq

/-- A call record in the trace of a finding. -/
structure CallView where
  sequence : Nat
  event : List UInt8
  call : List UInt8
  arguments : List UInt8
  result : List UInt8
  site : SiteView
  deriving DecidableEq

/-- The resource of a finding or of a lifetime. -/
inductive ResourceView
  | generic (resourceClass resourceId : List UInt8) (contextId : Nat)
  | exec (fd : Int) (target : List UInt8)
  | descriptor (fd : Int)
  | allocation (ptr : List UInt8) (size : Nat)
  deriving DecidableEq

/-- A finding: what it is about, its event and site, and the calls around it. -/
structure FindingView where
  kind : FindingKind
  pid : Int
  resource : ResourceView
  sequence : Nat
  site : SiteView
  previous : Option (Nat × SiteView)
  trace : List CallView
  deriving DecidableEq

/-- The birth or the death of a resource. -/
structure EventView where
  sequence : Nat
  kind : List UInt8
  eventSequence : Nat
  monotonicNs : Option Nat
  wallUnixNs : Option Nat
  site : SiteView
  deriving DecidableEq

/-- The lifetime of a resource; one without a death has not ended. -/
structure LifetimeView where
  resource : ResourceView
  pid : Int
  birth : EventView
  death : Option EventView
  durationNs : Option Nat
  deriving DecidableEq

/-- The counts of one stream. -/
structure StreamView where
  records : Nat
  skipped : Nat
  malformed : Nat
  badVersion : Nat
  complete : Bool
  producers : Nat
  incompleteProducers : Nat
  completionRecords : Nat
  producerWriteFailures : Nat
  duplicateSequences : Nat
  recordsAfterCompletion : Nat
  deriving DecidableEq

/-- All that a report says. -/
structure ReportView where
  eventSchema : List UInt8
  resourceLog : List UInt8
  callLog : List UInt8
  resource : StreamView
  call : StreamView
  lifetimes : List LifetimeView
  findings : List FindingView
  deriving DecidableEq

/-- The exit status of the run that has written the report. -/
def ReportView.status (view : ReportView) : Nat :=
  if view.resource.malformed ≠ 0 ∨ view.call.malformed ≠ 0 ∨ view.resource.badVersion ≠ 0 ∨
      view.call.badVersion ≠ 0 ∨ !view.resource.complete ∨ !view.call.complete then exitTrouble
  else if view.findings.length = 0 then exitClean
  else exitFindings

/-! ## The consumer -/

/-- The three members of a site, which stand among those of the object it belongs to. -/
def readSite (json : Json) : Option SiteView := do
  let file ← readMember "file" bytesOf json
  let line ← readMember "line" intOf json
  let function ← readMember "function" bytesOf json
  return ⟨file, line, function⟩

def readCall (json : Json) : Option CallView := do
  let sequence ← readMember "sequence" natOf json
  let event ← readMember "event" bytesOf json
  let call ← readMember "call" bytesOf json
  let arguments ← readMember "arguments" bytesOf json
  let result ← readMember "result" bytesOf json
  let site ← readSite json
  return ⟨sequence, event, call, arguments, result, site⟩

/-- The two times of an event may be `null`. -/
def readEvent (json : Json) : Option EventView := do
  let sequence ← readMember "event" natOf json
  let kind ← readMember "kind" bytesOf json
  let eventSequence ← readMember "event_sequence" natOf json
  let monotonicNs ← readMember "monotonic_ns" (orNull natOf) json
  let wallUnixNs ← readMember "wall_unix_ns" (orNull natOf) json
  let site ← readSite json
  return ⟨sequence, kind, eventSequence, monotonicNs, wallUnixNs, site⟩

/-- All kinds of findings. -/
def findingKinds : List FindingKind :=
  [.fdLeak, .allocLeak, .doubleClose, .strayClose, .doubleFree, .strayFree, .badRealloc,
    .execInherit, .resourceLeak, .resourceDoubleRelease, .resourceStrayRelease,
    .resourceBadReplace, .resourceDuplicateAcquire]

/-- The kind with this identifier. -/
def kindOfId (id : List UInt8) : Option FindingKind :=
  findingKinds.find? fun kind => (findingId kind).bytes = id

def readGeneric (json : Json) : Option ResourceView := do
  let resourceClass ← readMember "resource_class" bytesOf json
  let resourceId ← readMember "resource_id" bytesOf json
  let contextId ← readMember "context_id" natOf json
  return .generic resourceClass resourceId contextId

def readAllocation (json : Json) : Option ResourceView := do
  let ptr ← readMember "ptr" bytesOf json
  let size ← readMember "bytes" natOf json
  return .allocation ptr size

/-- The resource of a finding of this kind. -/
def readFindingResource (kind : FindingKind) (json : Json) : Option ResourceView :=
  if findingIsGeneric kind then readGeneric json
  else if kind = .execInherit then do
    let fd ← readMember "fd" intOf json
    let target ← readMember "target" bytesOf json
    return .exec fd target
  else if kind = .fdLeak ∨ kind = .doubleClose ∨ kind = .strayClose then do
    let fd ← readMember "fd" intOf json
    return .descriptor fd
  else readAllocation json

def readPrevious (json : Json) : Option (Nat × SiteView) := do
  let sequence ← readMember "resource_event" natOf json
  let site ← readSite json
  return (sequence, site)

/-- The kind of a finding is told by its identifier, and decides how its resource is given. -/
def readFinding (json : Json) : Option FindingView := do
  let id ← readMember "id" bytesOf json
  let kind ← kindOfId id
  let pid ← readMember "pid" intOf json
  let resource ← readFindingResource kind json
  let sequence ← readMember "resource_event" natOf json
  let site ← readMember "site" readSite json
  let previous ← readOptionalMember "previous" readPrevious json
  let trace ← readMember "trace" (itemsOf readCall) json
  return ⟨kind, pid, resource, sequence, site, previous, trace⟩

/-- The member `resource` of a lifetime tells how the rest of it is given. -/
def readLifetimeResource (json : Json) : Option ResourceView := do
  let resource ← readMember "resource" bytesOf json
  if resource = ascii "fd" then
    let fd ← readMember "fd" intOf json
    return .descriptor fd
  else if resource = ascii "allocation" then readAllocation json
  else readGeneric json

def readLifetime (json : Json) : Option LifetimeView := do
  let resource ← readLifetimeResource json
  let pid ← readMember "pid" intOf json
  let birth ← readMember "birth" readEvent json
  let death ← readMember "death" (orNull readEvent) json
  let durationNs ← readMember "duration_ns" (orNull natOf) json
  return ⟨resource, pid, birth, death, durationNs⟩

/-- The counts whose names begin with the name of a stream. -/
def readStream (stream : String) (json : Json) : Option StreamView := do
  let records ← readMember (stream ++ "_records") natOf json
  let skipped ← readMember (stream ++ "_skipped") natOf json
  let malformed ← readMember (stream ++ "_malformed") natOf json
  let badVersion ← readMember (stream ++ "_bad_version") natOf json
  let complete ← readMember (stream ++ "_complete") boolOf json
  let producers ← readMember (stream ++ "_producers") natOf json
  let incompleteProducers ← readMember (stream ++ "_incomplete_producers") natOf json
  let completionRecords ← readMember (stream ++ "_completion_records") natOf json
  let producerWriteFailures ← readMember (stream ++ "_producer_write_failures") natOf json
  let duplicateSequences ← readMember (stream ++ "_duplicate_sequences") natOf json
  let recordsAfterCompletion ← readMember (stream ++ "_records_after_completion") natOf json
  return ⟨records, skipped, malformed, badVersion, complete, producers, incompleteProducers,
    completionRecords, producerWriteFailures, duplicateSequences, recordsAfterCompletion⟩

/-- The report as a JSON value. -/
def readReportJson (json : Json) : Option ReportView := do
  let eventSchema ← readMember "event_schema" bytesOf json
  let resourceLog ← readMember "resource_log" bytesOf json
  let callLog ← readMember "call_log" bytesOf json
  let resource ← readMember "summary" (readStream "resource") json
  let call ← readMember "summary" (readStream "call") json
  let lifetimes ← readMember "lifetimes" (itemsOf readLifetime) json
  let findings ← readMember "findings" (itemsOf readFinding) json
  return ⟨eventSchema, resourceLog, callLog, resource, call, lifetimes, findings⟩

/-- A whole report, from its bytes. -/
def readReport (text : List UInt8) : Option ReportView := (readDocument text).bind readReportJson

/-! ## What the report of a model says -/

/-- A null pointer is written as an empty string. -/
def siteView (site : SourceSite) : SiteView where
  file := textBytes site.fileName
  line := site.lineNumber
  function := textBytes site.functionName

def callView (call : CallEvent) : CallView where
  sequence := call.sequence
  event := if call.kind = .enter then ascii "ENTER" else ascii "EXIT"
  call := textBytes call.callName
  arguments := textBytes call.arguments
  result := textBytes call.result
  site := ⟨textBytes call.fileName, call.lineNumber, textBytes call.functionName⟩

def eventView (model : ReportModel lib) (event : ResourceEvent) : EventView where
  sequence := event.sequence
  kind := (eventKindName event).bytes
  eventSequence := event.eventSequence
  monotonicNs := timeOf event.monotonicNsAvailable event.monotonicNs
  wallUnixNs := timeOf event.wallUnixNsAvailable event.wallUnixNs
  site := siteView (model.siteOf event.site)

/-- The defaults are those of `p101_report_print_json_finding`. -/
def findingResourceView (finding : Finding) : ResourceView :=
  if findingIsGeneric finding.kind then
    .generic (finding.resourceClass.getD (lit "resource")).bytes
      (finding.resourceId.getD (lit "?")).bytes finding.contextId
  else if finding.kind = .execInherit then
    .exec finding.fd (finding.ptr.getD (lit "?")).bytes
  else if finding.kind = .fdLeak ∨ finding.kind = .doubleClose ∨ finding.kind = .strayClose then
    .descriptor finding.fd
  else .allocation (finding.ptr.getD dash).bytes finding.size

/-- A finding has an earlier event when its number is not `0` and its site is in the table. -/
def findingView (model : ReportModel lib) (finding : Finding) : FindingView where
  kind := finding.kind
  pid := finding.pid
  resource := findingResourceView finding
  sequence := finding.sequence
  site := siteView (model.siteOf finding.site)
  previous :=
    if finding.previousSequence ≠ 0 ∧ finding.previousSite < model.sites.items.length then
      some (finding.previousSequence, siteView (model.siteOf finding.previousSite))
    else none
  trace := (tracedCalls model (model.siteOf finding.site) finding).map callView

/-- The defaults are those of `p101_report_print_json_lifetime`. -/
def lifetimeResourceView (birth : ResourceEvent) : ResourceView :=
  if birth.kind = .fdOpen then .descriptor birth.fd
  else if birth.kind = .alloc ∨ birth.kind = .realloc then
    .allocation ((allocBirthPtr birth).getD dash).bytes birth.size
  else
    .generic (birth.resourceClass.getD (lit "resource")).bytes
      ((genericBirthId birth).getD (lit "?")).bytes birth.contextId

/-- The end of a lifetime is searched for in the stored records. -/
def lifetimeView (model : ReportModel lib) (birth : ResourceEvent) : LifetimeView :=
  let death := findLifetimeEnd model.resources.items birth
  { resource := lifetimeResourceView birth
    pid := birth.pid
    birth := eventView model birth
    death := death.map (eventView model)
    durationNs := death.bind (lifetimeDurationNs birth) }

def streamView (counts : Counts) (health : StreamHealth lib.HealthInner) :
    StreamView where
  records := counts.records
  skipped := counts.skipped
  malformed := counts.malformed
  badVersion := counts.badVersion
  complete := lib.healthIsComplete health
  producers := health.producerCount
  incompleteProducers := lib.healthIncompleteProducers health
  completionRecords := health.completionRecords
  producerWriteFailures := health.producerWriteFailures
  duplicateSequences := health.duplicateSequences
  recordsAfterCompletion := health.recordsAfterCompletion

/-- What the JSON report of a model says. -/
def reportView (args : Arguments) (model : ReportModel lib) : ReportView where
  eventSchema := lib.schemaName.bytes
  resourceLog := textBytes args.resourceLog
  callLog := textBytes args.callLog
  resource := streamView model.records.resourceCounts model.resourceStreamHealth
  call := streamView model.records.callCounts model.callStreamHealth
  lifetimes := (model.resources.items.filter isBirth).map (lifetimeView model)
  findings := model.findings.items.map (findingView model)

/-! ## Reading it back -/

/-- An object with the members of a site is read back as that site. -/
theorem readSite_eq {json : Json} {site : SourceSite}
    (hfile : memberOf "file" json = some (textJson site.fileName))
    (hline : memberOf "line" json = some (intJson site.lineNumber))
    (hfunction : memberOf "function" json = some (textJson site.functionName)) :
    readSite json = some (siteView site) := by
  simp [readSite, readMember, hfile, hline, hfunction, siteView]

/-- A call record is read back. -/
theorem readCall_callJson (call : CallEvent) : readCall (callJson call) = some (callView call) := by
  have hsite : readSite (callJson call) =
      some (siteView ⟨call.fileName, call.functionName, call.lineNumber⟩) :=
    readSite_eq rfl rfl rfl
  have hsequence : memberOf "sequence" (callJson call) = some (natJson call.sequence) := rfl
  have hevent : memberOf "event" (callJson call) =
      some (textJson (some (if call.kind = .enter then lit "ENTER" else lit "EXIT"))) := rfl
  have hcall : memberOf "call" (callJson call) = some (textJson call.callName) := rfl
  have harguments : memberOf "arguments" (callJson call) = some (textJson call.arguments) := rfl
  have hresult : memberOf "result" (callJson call) = some (textJson call.result) := rfl
  have hkind : textBytes (some (if call.kind = .enter then lit "ENTER" else lit "EXIT")) =
      if call.kind = .enter then ascii "ENTER" else ascii "EXIT" := by
    split <;> rfl
  simp [readCall, readMember, hsite, hsequence, hevent, hcall, harguments, hresult, hkind,
    callView, siteView]

/-- An event is read back. -/
theorem readEvent_eventJson (model : ReportModel lib) (event : ResourceEvent) :
    readEvent (eventJson (model.siteOf event.site) event) = some (eventView model event) := by
  let json := eventJson (model.siteOf event.site) event
  have hsite : readSite json = some (siteView (model.siteOf event.site)) :=
    readSite_eq rfl rfl rfl
  have hsequence : memberOf "event" json = some (natJson event.sequence) := rfl
  have hkind : memberOf "kind" json = some (textJson (some (eventKindName event))) := rfl
  have heventSequence : memberOf "event_sequence" json = some (natJson event.eventSequence) := rfl
  have hmonotonic : memberOf "monotonic_ns" json =
      some (optionalJson (timeOf event.monotonicNsAvailable event.monotonicNs)) := rfl
  have hwall : memberOf "wall_unix_ns" json =
      some (optionalJson (timeOf event.wallUnixNsAvailable event.wallUnixNs)) := rfl
  change readEvent json = _
  simp [readEvent, readMember, hsite, hsequence, hkind, heventSequence, hmonotonic, hwall,
    eventView, textBytes]

/-- Different kinds of findings have different identifiers. -/
theorem kindOfId_findingId (kind : FindingKind) :
    kindOfId (findingId kind).bytes = some kind := by
  cases kind <;> rfl

theorem readGeneric_eq {json : Json} {resourceClass resourceId : Text} {contextId : Nat}
    (h : HasMembers json [(key "resource_class", textJson (some resourceClass)),
      (key "resource_id", textJson (some resourceId)), (key "context_id", natJson contextId)]) :
    readGeneric json = some (.generic resourceClass.bytes resourceId.bytes contextId) := by
  have hclass := h "resource_class" _ (.head _)
  have hid := h "resource_id" _ (.tail _ (.head _))
  have hcontext := h "context_id" _ (.tail _ (.tail _ (.head _)))
  simp [readGeneric, readMember, hclass, hid, hcontext, textBytes]

theorem readAllocation_eq {json : Json} {ptr : Text} {size : Nat}
    (h : HasMembers json [(key "ptr", textJson (some ptr)), (key "bytes", natJson size)]) :
    readAllocation json = some (.allocation ptr.bytes size) := by
  have hptr := h "ptr" _ (.head _)
  have hsize := h "bytes" _ (.tail _ (.head _))
  simp [readAllocation, readMember, hptr, hsize, textBytes]

/-- The resource of a finding is read back under each of its four forms. -/
theorem readFindingResource_eq {finding : Finding} {json : Json}
    (h : HasMembers json (findingResourceMembers finding)) :
    readFindingResource finding.kind json = some (findingResourceView finding) := by
  unfold findingResourceMembers at h
  unfold readFindingResource findingResourceView
  -- reader and printer ask the kind of the finding the same questions
  split
  · rename_i hgeneric
    rw [if_pos hgeneric] at h
    exact readGeneric_eq h
  · rename_i hgeneric
    rw [if_neg hgeneric] at h
    split
    · rename_i hexec
      rw [if_pos hexec] at h
      have hfd := h "fd" _ (.head _)
      have htarget := h "target" _ (.tail _ (.head _))
      simp [readMember, hfd, htarget, textBytes]
    · rename_i hexec
      rw [if_neg hexec] at h
      split
      · rename_i hdescriptor
        rw [if_pos hdescriptor] at h
        have hfd := h "fd" _ (.head _)
        simp [readMember, hfd]
      · rename_i hdescriptor
        rw [if_neg hdescriptor] at h
        exact readAllocation_eq h

/-- The earlier record of a finding, as the report writes it. -/
def previousJson (model : ReportModel lib) (finding : Finding) : Json :=
  .object [
    (key "resource_event", natJson finding.previousSequence),
    (key "file", textJson (model.siteOf finding.previousSite).fileName),
    (key "line", intJson (model.siteOf finding.previousSite).lineNumber),
    (key "function", textJson (model.siteOf finding.previousSite).functionName)]

/-- The member `previous` is there exactly when the finding has an earlier event. -/
theorem readPrevious_previousJson (model : ReportModel lib) (finding : Finding) :
    readPrevious (previousJson model finding) =
      some (finding.previousSequence, siteView (model.siteOf finding.previousSite)) := by
  have hsite : readSite (previousJson model finding) =
      some (siteView (model.siteOf finding.previousSite)) := readSite_eq rfl rfl rfl
  have hsequence : readMember "resource_event" natOf (previousJson model finding) =
      some finding.previousSequence := natOf_natJson _
  simp [readPrevious, hsite, hsequence]

/-- A finding has the member exactly where it has an earlier record. -/
theorem readPrevious_findingJson (model : ReportModel lib) (finding : Finding) :
    readOptionalMember "previous" readPrevious (findingJson model finding) =
      some (findingView model finding).previous := by
  unfold readOptionalMember findingView
  by_cases hprevious : finding.previousSequence ≠ 0 ∧
      finding.previousSite < model.sites.items.length
  · have hmember := @hasMembers_of_distinct _ _ (keysDistinct_findingJson model finding)
      (List.Subset.refl _) "previous" (previousJson model finding)
      (by simp [previousMembers, previousJson, hprevious])
    rw [findingJson, hmember]
    simp [readPrevious_previousJson, hprevious]
  · have hnone : previousMembers model finding = [] := if_neg hprevious
    rw [findingJson, memberOf_eq_none, if_neg hprevious]
    -- no other member of a finding has this key
    have hresource : key "previous" ∉ (findingResourceMembers finding).map Prod.fst := fun h =>
      absurd ((findingResource_keys finding).subset h) (by decide)
    simp only [hnone, List.nil_append, List.map_append, List.mem_append, not_or]
    refine ⟨?_, hresource, ?_, ?_⟩
    · simp only [List.map_cons, List.map_nil]
      decide
    · simp only [List.map_cons, List.map_nil]
      decide
    · simp only [List.map_cons, List.map_nil]
      decide

/-- A finding is read back. -/
theorem readFinding_findingJson (model : ReportModel lib) (finding : Finding) :
    readFinding (findingJson model finding) = some (findingView model finding) := by
  have hmembers := @hasMembers_of_distinct _ _ (keysDistinct_findingJson model finding)
    (List.Subset.refl _)
  have hresource : readFindingResource finding.kind (findingJson model finding) =
      some (findingResourceView finding) :=
    readFindingResource_eq fun name value hmember => hmembers name value (by simp [hmember])
  have hid : memberOf "id" (findingJson model finding) =
      some (textJson (some (findingId finding.kind))) := rfl
  have hpid : memberOf "pid" (findingJson model finding) = some (intJson finding.pid) := rfl
  have hsequence : memberOf "resource_event" (findingJson model finding) =
      some (natJson finding.sequence) := hmembers _ _ (by simp)
  have hsite : memberOf "site" (findingJson model finding) =
      some (siteJson (model.siteOf finding.site)) := hmembers _ _ (by simp)
  have htrace : memberOf "trace" (findingJson model finding) = some (.array
      ((tracedCalls model (model.siteOf finding.site) finding).map callJson)) :=
    hmembers _ _ (by simp)
  have hsiteView : readSite (siteJson (model.siteOf finding.site)) =
      some (siteView (model.siteOf finding.site)) := readSite_eq rfl rfl rfl
  have hcalls := @itemsOf_map _ _ _ _ _
    (tracedCalls model (model.siteOf finding.site) finding) fun call _ => readCall_callJson call
  simp [readFinding, readPrevious_findingJson, readMember, hid, hpid, hresource, hsequence, hsite,
    htrace, hsiteView, hcalls, kindOfId_findingId, textBytes, findingView]

theorem readLifetimeResource_eq {birth : ResourceEvent} {json : Json}
    (h : HasMembers json (lifetimeResourceMembers birth)) :
    readLifetimeResource json = some (lifetimeResourceView birth) := by
  have hstart : ∀ {resource : String},
      memberOf "resource" json = some (textJson (some (lit resource))) →
        readMember "resource" bytesOf json = some (lit resource).bytes := by
    intro resource hresource
    rw [readMember, hresource, Option.bind_some, bytesOf_textJson]
    rfl
  unfold lifetimeResourceMembers at h
  unfold readLifetimeResource lifetimeResourceView
  -- the reader knows the kind of the birth by the name of its resource
  split
  · rename_i hfd
    rw [if_pos hfd] at h
    rw [hstart (h "resource" _ (.head _))]
    have hfd := h "fd" _ (.tail _ (.head _))
    have hname : (lit "fd").bytes = ascii "fd" := by decide
    simp [readMember, hfd, hname]
  · rename_i hfd
    rw [if_neg hfd] at h
    split
    · rename_i halloc
      rw [if_pos halloc] at h
      have hname : (lit "allocation").bytes = ascii "allocation" := by decide
      have hne : ascii "allocation" ≠ ascii "fd" := by decide
      rw [hstart (h "resource" _ (.head _))]
      simp only [Option.bind_eq_bind, Option.bind_some, hname, if_neg hne, if_true]
      exact readAllocation_eq fun name value hmember => h name value (.tail _ hmember)
    · rename_i halloc
      rw [if_neg halloc] at h
      have hname : (lit "generic").bytes ≠ ascii "fd" ∧
          (lit "generic").bytes ≠ ascii "allocation" := by
        decide
      rw [hstart (h "resource" _ (.head _))]
      simp only [Option.bind_eq_bind, Option.bind_some, if_neg hname.1, if_neg hname.2]
      exact readGeneric_eq fun name value hmember => h name value (.tail _ hmember)

/-- A lifetime is read back. -/
theorem readLifetime_lifetimeJson (model : ReportModel lib) (birth : ResourceEvent) :
    readLifetime (lifetimeJson model birth) = some (lifetimeView model birth) := by
  have hmembers := @hasMembers_of_distinct _ _ (keysDistinct_lifetimeJson model birth)
    (List.Subset.refl _)
  have hresource : readLifetimeResource (lifetimeJson model birth) =
      some (lifetimeResourceView birth) :=
    readLifetimeResource_eq fun name value hmember =>
      hmembers name value (List.mem_append_left _ hmember)
  have hpid : memberOf "pid" (lifetimeJson model birth) = some (intJson birth.pid) :=
    hmembers _ _ (by simp)
  have hbirth : memberOf "birth" (lifetimeJson model birth) =
      some (eventJson (model.siteOf birth.site) birth) := hmembers _ _ (by simp)
  have hdeath : memberOf "death" (lifetimeJson model birth) =
      some (deathJson model (findLifetimeEnd model.resources.items birth)) :=
    hmembers _ _ (by simp)
  have hduration : memberOf "duration_ns" (lifetimeJson model birth) =
      some (optionalJson ((findLifetimeEnd model.resources.items birth).bind
        (lifetimeDurationNs birth))) := hmembers _ _ (by simp)
  have hend : ∀ death, orNull readEvent (deathJson model death) =
      some (death.map (eventView model)) := by
    rintro (_ | death)
    · rfl
    · exact congrArg (Option.map some) (readEvent_eventJson model death)
  simp [readLifetime, readMember, hresource, hpid, hbirth, hdeath, hduration, hend,
    readEvent_eventJson, lifetimeView]

/-- The counts of the streams are read back from the summary. -/
theorem readStream_summaryJson (model : ReportModel lib) :
    readStream "resource" (summaryJson model) =
        some (streamView model.records.resourceCounts model.resourceStreamHealth) ∧
      readStream "call" (summaryJson model) =
        some (streamView model.records.callCounts model.callStreamHealth) := by
  have hnat : ∀ name n, memberOf name (summaryJson model) = some (natJson n) →
      readMember name natOf (summaryJson model) = some n := by
    intro name n h
    rw [readMember, h, Option.bind_some, natOf_natJson]
  have hbool : ∀ name b, memberOf name (summaryJson model) = some (.bool b) →
      readMember name boolOf (summaryJson model) = some b := by
    intro name b h
    rw [readMember, h, Option.bind_some, boolOf]
  constructor
  · simp [readStream, streamView, hbool ("resource_complete") _ rfl,
      hnat ("resource_records") _ rfl, hnat ("resource_skipped") _ rfl,
      hnat ("resource_malformed") _ rfl, hnat ("resource_bad_version") _ rfl,
      hnat ("resource_producers") _ rfl, hnat ("resource_incomplete_producers") _ rfl,
      hnat ("resource_completion_records") _ rfl,
      hnat ("resource_producer_write_failures") _ rfl,
      hnat ("resource_duplicate_sequences") _ rfl,
      hnat ("resource_records_after_completion") _ rfl]
    exact ⟨rfl, rfl, rfl, rfl⟩
  · simp [readStream, streamView, hbool ("call_complete") _ rfl,
      hnat ("call_records") _ rfl, hnat ("call_skipped") _ rfl,
      hnat ("call_malformed") _ rfl, hnat ("call_bad_version") _ rfl,
      hnat ("call_producers") _ rfl, hnat ("call_incomplete_producers") _ rfl,
      hnat ("call_completion_records") _ rfl,
      hnat ("call_producer_write_failures") _ rfl,
      hnat ("call_duplicate_sequences") _ rfl,
      hnat ("call_records_after_completion") _ rfl]
    exact ⟨rfl, rfl, rfl, rfl⟩

/-- The report is read back as a JSON value. -/
theorem readReportJson_reportJson (args : Arguments) (model : ReportModel lib) :
    readReportJson (reportJson args model) = some (reportView args model) := by
  have heventSchema : memberOf "event_schema" (reportJson args model) =
      some (textJson (some lib.schemaName)) := rfl
  have hresourceLog : memberOf "resource_log" (reportJson args model) =
      some (textJson args.resourceLog) := rfl
  have hcallLog : memberOf "call_log" (reportJson args model) = some (textJson args.callLog) := rfl
  have hsummary : memberOf "summary" (reportJson args model) = some (summaryJson model) := rfl
  have hlifetimes : memberOf "lifetimes" (reportJson args model) =
      some (.array ((model.resources.items.filter isBirth).map (lifetimeJson model))) := rfl
  have hfindings : memberOf "findings" (reportJson args model) =
      some (.array (model.findings.items.map (findingJson model))) := rfl
  obtain ⟨hresource, hcall⟩ := readStream_summaryJson model
  have hlifetimeViews := @itemsOf_map _ _ _ _ _
    (model.resources.items.filter isBirth) fun birth _ => readLifetime_lifetimeJson model birth
  have hfindingViews := @itemsOf_map _ _ _ _ _ model.findings.items
    fun finding _ => readFinding_findingJson model finding
  simp [readReportJson, readMember, heventSchema, hresourceLog, hcallLog, hsummary, hlifetimes,
    hfindings, hresource, hcall, hlifetimeViews, hfindingViews, reportView]
  rfl

/-- The status that a consumer computes is the one the run decides. -/
theorem status_reportView (args : Arguments) (model : ReportModel lib) :
    (reportView args model).status = exitStatus model := by
  rw [ReportView.status, reportView, exitStatus, List.length_map]
  rfl

/-- The report of a model is read back as what the model says. -/
theorem readReport_printJsonReport (args : Arguments) {model : ReportModel lib}
    (hschema : Plain lib.schemaName.bytes) (hsites : SitesInRange model) :
    ∃ text, printJsonReport args model = some text ∧
      readReport text = some (reportView args model) := by
  obtain ⟨text, htext, hitem⟩ := item_printJsonReport args hschema hsites
  refine ⟨text, htext, ?_⟩
  rw [readReport, readDocument_eq_some_iff.2 hitem, Option.bind_some, readReportJson_reportJson]

theorem InBounds.sitesInRange {model : ReportModel lib} (h : InBounds model) :
    SitesInRange model :=
  ⟨h.resources, fun finding hfinding => (h.findings finding hfinding).1⟩

/-- The JSON report is among what a run writes: it is the output, or a file of the bundle. -/
theorem json_mem_outputTexts (run : RunModelLib lib) {args : RunArguments}
    (hformat : args.bundleOutputDir = none → args.format = .json) (model : ReportModel lib) :
    printJsonReport args.toArguments model ∈ outputTexts run args model := by
  unfold outputTexts
  cases hdir : args.bundleOutputDir with
  | none => simp [hformat hdir, printReport]
  | some dir => simp [bundleReports, printReport]

/-- **A report can be read back.** Whenever the output step of a run that writes JSON, as its output
or into a bundle, ends without an error, a consumer recovers from the bytes alone the exit status of
the run, the counts of both streams, and each lifetime and each finding of its model, in order. -/
theorem reportRun_readBack {run : RunModelLib lib} {args : RunArguments} {input : RunInput lib}
    {st : State lib} (hschema : Plain lib.schemaName.bytes)
    (hformat : args.bundleOutputDir = none → args.format = .json)
    (hprepared : prepareReport run args input = .ok st)
    (hended : outputRaises args input = false) :
    let result := reportRun run args input
    ∃ texts text view, result.written = some texts ∧ some text ∈ texts ∧
      printJsonReport args.toArguments result.state.model = some text ∧
      readReport text = some view ∧ view.status = result.status ∧
      view = reportView args.toArguments result.state.model := by
  intro result
  obtain ⟨hstate, hstatus, hwritten⟩ := reportRun_of_ok hprepared hended
  obtain ⟨text, htext, hread⟩ := readReport_printJsonReport args.toArguments hschema
    (prepareReport_inBounds hprepared).sitesInRange
  refine ⟨outputTexts run args st.model, text, _, hwritten,
    htext ▸ json_mem_outputTexts run hformat st.model, ?_, ?_, ?_, rfl⟩
  · rw [hstate, htext]
  · rw [hstate, hread]
  · rw [hstatus, hstate]
    exact status_reportView _ _

/-- The arguments of a run that writes JSON. -/
def jsonArguments : RunArguments := { fixtureArguments with format := .json }

/-- The JSON report of a log with a leak. -/
theorem reportRun_readBack_leak :
    let result := reportRun fixtureRun jsonArguments leakInput
    result.status = exitFindings ∧
      ∃ texts text view, result.written = some texts ∧ some text ∈ texts ∧
        printJsonReport jsonArguments.toArguments result.state.model = some text ∧
        readReport text = some view ∧ view.status = result.status ∧
        view = reportView jsonArguments.toArguments result.state.model := by
  have hstatus : (reportRun fixtureRun jsonArguments leakInput).status = exitFindings := by
    decide +kernel
  obtain ⟨st, hprepared⟩ : ∃ st, prepareReport fixtureRun jsonArguments leakInput = .ok st :=
    exists_ok (by decide)
  exact ⟨hstatus, reportRun_readBack (by decide) (fun _ => rfl) hprepared rfl⟩

end P101Report
