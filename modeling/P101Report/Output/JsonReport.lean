import P101Report.Library.Json
import P101Report.Model.Lifecycle
import P101Report.Model.Output
import P101Report.Replay.Steps

/-!
# The JSON report is a JSON document

The report is put together from pieces: each function that prints a part of it prints the text of
one JSON value, or members of one, and this value is given beside it (`eventJson`, `lifetimeJson`,
`findingJson`, `summaryJson`, `reportJson`). The texts of a log are only ever printed as strings, in
which every byte is itself or an escape (`value_jsonString`); everything else is a constant or a
number. The loops separate their items by commas (`piecesAfter`).

The result is `jsonReport_wellFormed`. Its condition on the sites is what keeps the lookups of the
printing functions within the table; the schema name of the library is printed without escapes.
-/

set_option autoImplicit false

namespace P101Report

open Decimal Json

variable {lib : ToolEventLib}

/-! ## Strings -/

/-- A key of the report. -/
def key (name : String) : List Nat := (ascii name).map UInt8.toNat

/-- A text of the model as a JSON string of its bytes; `NULL` is the empty string. -/
def textJson (text : Option Text) : Json :=
  .string (((text.map (·.bytes)).getD []).map UInt8.toNat)

/-- A count of the report. -/
def natJson (n : Nat) : Json := .number (decimalNat n)

/-- A signed number of the report. -/
def intJson (i : Int) : Json := .number (decimalInt i)

@[simp] theorem keysDistinct_textJson (text : Option Text) : (textJson text).KeysDistinct :=
  .string _

@[simp] theorem keysDistinct_natJson (n : Nat) : (natJson n).KeysDistinct := .number _

@[simp] theorem keysDistinct_intJson (i : Int) : (intJson i).KeysDistinct := .number _

/-- A digit that is written reads back. -/
theorem hexValue_hexDigit {n : Nat} (h : n < 16) : hexValue (hexDigit n) = some n := by
  interval_cases n <;> rfl

/-- Four hexadecimal digits spell the code unit. -/
theorem chars_hexFour {n : Nat} (h : n < 65536) : Chars [n] (0x5c :: 0x75 :: hexFour n) := by
  have hunit : (((n / 4096 % 16) * 16 + n / 256 % 16) * 16 + n / 16 % 16) * 16 + n % 16 = n := by
    omega
  have hchars := Chars.unicode (hexValue_hexDigit (Nat.mod_lt (n / 4096) (by decide)))
    (hexValue_hexDigit (Nat.mod_lt (n / 256) (by decide)))
    (hexValue_hexDigit (Nat.mod_lt (n / 16) (by decide)))
    (hexValue_hexDigit (Nat.mod_lt n (by decide))) .nil
  rwa [hunit] at hchars

/-- A byte is spelled as itself or as an escape of itself. -/
theorem chars_jsonByte (current : UInt8) : Chars [current.toNat] (jsonByte current) := by
  rw [jsonByte]
  split
  · -- a quote or a backslash
    rename_i hquote
    refine .escaped ?_ .nil
    rcases hquote with rfl | rfl <;> rfl
  · rename_i hquote
    split
    · rename_i hline
      subst hline
      exact .escaped rfl .nil
    · split
      · rename_i hreturn
        subst hreturn
        exact .escaped rfl .nil
      · split
        · rename_i htab
          subst htab
          exact .escaped rfl .nil
        · split
          · -- a control byte or a byte outside ASCII
            have hbyte := current.toNat_lt
            exact chars_hexFour (by omega)
          · -- every other byte stands for itself
            rename_i hplain
            simp only [not_or, jsonControlLimit, jsonNonAsciiLimit, UInt8.not_lt, UInt8.not_le]
              at hquote hplain
            refine .unescaped ⟨hplain.1, ?_, hquote.1, hquote.2⟩ .nil
            have hlt := UInt8.lt_iff_toNat_lt.1 hplain.2
            rw [UInt8.le_iff_toNat_le]
            exact Nat.le_of_lt_succ hlt

/-- **Strings.** Whatever bytes a text has, it is written as the JSON string of these bytes. -/
theorem value_jsonString (text : Option Text) : Value (textJson text) (jsonString text) := by
  cases text with
  | none => exact .string .nil
  | some text =>
    have hchars : Chars (text.bytes.map UInt8.toNat) (text.bytes.flatMap jsonByte) := by
      induction text.bytes with
      | nil => exact .nil
      | cons current rest ih => exact (chars_jsonByte current).append ih
    exact .string hchars

/-! ## Calls -/

/-- A piece of an object. -/
def field (left name : String) (value : List UInt8) : List UInt8 :=
  fieldText (ascii left) (ascii name) value

/-- A call record of a trace. -/
def callJson (call : CallEvent) : Json :=
  .object [
    (key "sequence", natJson call.sequence),
    (key "event", textJson (some (if call.kind = .enter then lit "ENTER" else lit "EXIT"))),
    (key "call", textJson call.callName),
    (key "arguments", textJson call.arguments),
    (key "result", textJson call.result),
    (key "file", textJson call.fileName),
    (key "line", intJson call.lineNumber),
    (key "function", textJson call.functionName)]

/-- A call is printed member by member, in this order. -/
theorem printJsonCall_eq (call : CallEvent) :
    printJsonCall call = objectText [
      field "" "sequence" (decimalNat call.sequence),
      field " " "event"
        (jsonString (some (if call.kind = .enter then lit "ENTER" else lit "EXIT"))),
      field " " "call" (jsonString call.callName),
      field " " "arguments" (jsonString call.arguments),
      field " " "result" (jsonString call.result),
      field " " "file" (jsonString call.fileName),
      field " " "line" (decimalInt call.lineNumber),
      field " " "function" (jsonString call.functionName)] [] := by
  simp [printJsonCall, objectText, separated, field, fieldText, ascii]

/-- A call is written as its object. -/
theorem value_printJsonCall (call : CallEvent) : Value (callJson call) (printJsonCall call) := by
  rw [printJsonCall_eq]
  exact .of_fields <|
    .cons (.of_value (.decimalNat _)) <|
    .cons (.of_value (value_jsonString _)) <|
    .cons (.of_value (value_jsonString _)) <|
    .cons (.of_value (value_jsonString _)) <|
    .cons (.of_value (value_jsonString _)) <|
    .cons (.of_value (value_jsonString _)) <|
    .cons (.of_value (.decimalInt _)) <|
    .cons (.of_value (value_jsonString _)) .nil

theorem keysDistinct_callJson (call : CallEvent) : (callJson call).KeysDistinct := by
  refine .object ?_ (by simp)
  simp only [List.map_cons, List.map_nil]
  decide

/-! ## Optional numbers -/

/-- A number that may be missing. -/
def optionalJson : Option Nat → Json
  | none => .null
  | some n => natJson n

/-- Its text. -/
def jsonOptional : Option Nat → List UInt8
  | none => ascii "null"
  | some n => decimalNat n

theorem value_jsonOptional (n : Option Nat) : Value (optionalJson n) (jsonOptional n) := by
  cases n with
  | none => exact .null
  | some n => exact .decimalNat n

@[simp] theorem keysDistinct_optionalJson (n : Option Nat) : (optionalJson n).KeysDistinct := by
  cases n with
  | none => exact .null
  | some n => exact .number _

/-- A time of an event, when it was recorded. -/
def timeOf (available : Int) (ns : Nat) : Option Nat := if available ≠ 0 then some ns else none

/-- The two texts of a time are those of the branches that print it. -/
theorem jsonOptional_timeOf (name : String) (available : Int) (ns : Nat) :
    field " " name (jsonOptional (timeOf available ns)) =
      if available ≠ 0 then field " " name (decimalNat ns) else field " " name (ascii "null") := by
  rw [timeOf]
  split <;> rfl

/-! ## Births and deaths -/

/-- A birth or a death. -/
def eventJson (site : SourceSite) (event : ResourceEvent) : Json :=
  .object [
    (key "event", natJson event.sequence),
    (key "kind", textJson (some (eventKindName event))),
    (key "event_sequence", natJson event.eventSequence),
    (key "monotonic_ns", optionalJson (timeOf event.monotonicNsAvailable event.monotonicNs)),
    (key "wall_unix_ns", optionalJson (timeOf event.wallUnixNsAvailable event.wallUnixNs)),
    (key "file", textJson site.fileName),
    (key "line", intJson site.lineNumber),
    (key "function", textJson site.functionName)]

theorem printJsonOptionalTime_eq (event : ResourceEvent) :
    printJsonOptionalTime event = continued [
      field " " "event_sequence" (decimalNat event.eventSequence),
      field " " "monotonic_ns" (jsonOptional (timeOf event.monotonicNsAvailable event.monotonicNs)),
      field " " "wall_unix_ns"
        (jsonOptional (timeOf event.wallUnixNsAvailable event.wallUnixNs))] := by
  rw [printJsonOptionalTime, jsonOptional_timeOf, jsonOptional_timeOf]
  split <;> split <;> simp [field, fieldText, ascii]

/-- A birth or a death is printed member by member, in this order. -/
theorem printJsonEvent_eq (site : SourceSite) (event : ResourceEvent) :
    printJsonEvent site event = objectText [
      field "" "event" (decimalNat event.sequence),
      field " " "kind" (jsonString (some (eventKindName event))),
      field " " "event_sequence" (decimalNat event.eventSequence),
      field " " "monotonic_ns" (jsonOptional (timeOf event.monotonicNsAvailable event.monotonicNs)),
      field " " "wall_unix_ns" (jsonOptional (timeOf event.wallUnixNsAvailable event.wallUnixNs)),
      field " " "file" (jsonString site.fileName),
      field " " "line" (decimalInt site.lineNumber),
      field " " "function" (jsonString site.functionName)] [] := by
  rw [printJsonEvent, printJsonOptionalTime_eq]
  simp [objectText, separated, field, fieldText, ascii]

/-- A birth or a death is written as its object. -/
theorem value_printJsonEvent (site : SourceSite) (event : ResourceEvent) :
    Value (eventJson site event) (printJsonEvent site event) := by
  rw [printJsonEvent_eq]
  exact .of_fields <|
    .cons (.of_value (.decimalNat _)) <|
    .cons (.of_value (value_jsonString _)) <|
    .cons (.of_value (.decimalNat _)) <|
    .cons (.of_value (value_jsonOptional _)) <|
    .cons (.of_value (value_jsonOptional _)) <|
    .cons (.of_value (value_jsonString _)) <|
    .cons (.of_value (.decimalInt _)) <|
    .cons (.of_value (value_jsonString _)) .nil

@[simp] theorem keysDistinct_eventJson (site : SourceSite) (event : ResourceEvent) :
    (eventJson site event).KeysDistinct := by
  refine .object ?_ (by simp)
  simp only [List.map_cons, List.map_nil]
  decide

/-! ## Lifetimes -/

/-- The site of an index within the table. -/
def ReportModel.siteOf (model : ReportModel lib) (index : Nat) : SourceSite :=
  (model.siteAt index).getD ⟨none, none, 0⟩

/-- The sites of stored events and findings are in the table. -/
def SitesInRange (model : ReportModel lib) : Prop :=
  (∀ event ∈ model.resources.items, event.site < model.sites.items.length) ∧
    ∀ finding ∈ model.findings.items, finding.site < model.sites.items.length

instance (model : ReportModel lib) : Decidable (SitesInRange model) :=
  inferInstanceAs (Decidable ((∀ _ ∈ _, _) ∧ ∀ _ ∈ _, _))

theorem siteAt_of_lt {model : ReportModel lib} {index : Nat}
    (h : index < model.sites.items.length) : model.siteAt index = some (model.siteOf index) := by
  simp [ReportModel.siteOf, ReportModel.siteAt, h]

/-- An end that a scan finds is a stored event. -/
theorem mem_of_findLifetimeEnd {resources : List ResourceEvent} {birth death : ResourceEvent}
    (h : findLifetimeEnd resources birth = some death) : death ∈ resources := by
  rw [findLifetimeEnd] at h
  split at h
  · exact List.mem_of_find?_eq_some h
  · split at h
    · exact List.mem_of_find?_eq_some h
    · rw [findGenericLifetimeEnd] at h
      split at h
      · cases h
      · exact List.mem_of_find?_eq_some h

/-- The resource of a lifetime: a descriptor, an allocation or a generic resource. -/
def lifetimeResourceMembers (birth : ResourceEvent) : List (List Nat × Json) :=
  if birth.kind = .fdOpen then
    [(key "resource", textJson (some (lit "fd"))), (key "fd", intJson birth.fd)]
  else if birth.kind = .alloc ∨ birth.kind = .realloc then
    [(key "resource", textJson (some (lit "allocation"))),
      (key "ptr", textJson (some ((allocBirthPtr birth).getD dash))),
      (key "bytes", natJson birth.size)]
  else
    [(key "resource", textJson (some (lit "generic"))),
      (key "resource_class", textJson (some (birth.resourceClass.getD (lit "resource")))),
      (key "resource_id", textJson (some ((genericBirthId birth).getD (lit "?")))),
      (key "context_id", natJson birth.contextId)]

/-- The death of a lifetime, `null` while it is still live. -/
def deathJson (model : ReportModel lib) : Option ResourceEvent → Json
  | none => .null
  | some death => eventJson (model.siteOf death.site) death

/-- One lifetime: the resource, its birth, its death and how long it lasted. -/
def lifetimeJson (model : ReportModel lib) (birth : ResourceEvent) : Json :=
  let death := findLifetimeEnd model.resources.items birth
  .object (lifetimeResourceMembers birth ++ [
    (key "pid", intJson birth.pid),
    (key "birth", eventJson (model.siteOf birth.site) birth),
    (key "death", deathJson model death),
    (key "duration_ns", optionalJson (death.bind (lifetimeDurationNs birth)))])

/-- The resource of a lifetime is written as its members. -/
theorem lifetimeResource_fields (birth : ResourceEvent) :
    ∃ fields, fields ≠ [] ∧ List.Forall₂ Member (lifetimeResourceMembers birth) fields ∧
      ascii "\"resource\": " ++ printJsonLifetimeResource birth = separated fields := by
  rw [lifetimeResourceMembers, printJsonLifetimeResource]
  split
  · refine ⟨[field "" "resource" (jsonString (some (lit "fd"))),
      field " " "fd" (decimalInt birth.fd)], by simp, ?_, ?_⟩
    · exact .cons (.of_value (value_jsonString _)) <| .cons (.of_value (.decimalInt _)) .nil
    · simp [separated, field, fieldText, ascii]
  · split
    · -- the opening constant belongs to the first member
      refine ⟨[field "" "resource" (jsonString (some (lit "allocation"))),
        field " " "ptr" (jsonString (some ((allocBirthPtr birth).getD dash))),
        field " " "bytes" (decimalNat birth.size)], by simp, ?_, ?_⟩
      · exact .cons (.of_value (value_jsonString _)) <| .cons (.of_value (value_jsonString _)) <|
          .cons (.of_value (.decimalNat _)) .nil
      · simp [separated, field, fieldText, ascii]
    · refine ⟨[field "" "resource" (jsonString (some (lit "generic"))),
        field " " "resource_class" (jsonString (some (birth.resourceClass.getD (lit "resource")))),
        field " " "resource_id" (jsonString (some ((genericBirthId birth).getD (lit "?")))),
        field " " "context_id" (decimalNat birth.contextId)], by simp, ?_, ?_⟩
      · exact .cons (.of_value (value_jsonString _)) <| .cons (.of_value (value_jsonString _)) <|
          .cons (.of_value (value_jsonString _)) <| .cons (.of_value (.decimalNat _)) .nil
      · -- an unknown identifier is written as a constant, not through the escaping
        have hunknown : jsonString (some (lit "?")) = [0x22, 0x3f, 0x22] := rfl
        cases genericBirthId birth with
        | none => simp [hunknown, separated, field, fieldText, ascii]
        | some resourceId => simp [separated, field, fieldText, ascii]

/-- The death of a lifetime and its duration are two more members. -/
theorem death_fields {model : ReportModel lib} (hsites : SitesInRange model)
    (birth : ResourceEvent) :
    let death := findLifetimeEnd model.resources.items birth
    ∃ fields, List.Forall₂ Member [(key "death", deathJson model death),
        (key "duration_ns", optionalJson (death.bind (lifetimeDurationNs birth)))] fields ∧
      printJsonDeath model birth death = some (continued fields) := by
  cases hdeath : findLifetimeEnd model.resources.items birth with
  | none =>
    refine ⟨[field " " "death" (ascii "null"), field " " "duration_ns" (ascii "null")], ?_, ?_⟩
    · exact .cons (.of_value .null) <| .cons (.of_value .null) .nil
    · simp [printJsonDeath, field, fieldText, ascii]
  | some death =>
    have hsite := siteAt_of_lt (hsites.1 death (mem_of_findLifetimeEnd hdeath))
    refine ⟨[field " " "death" (printJsonEvent (model.siteOf death.site) death),
      field " " "duration_ns" (jsonOptional (lifetimeDurationNs birth death))], ?_, ?_⟩
    · exact .cons (.of_value (value_printJsonEvent _ _)) <|
        .cons (.of_value (value_jsonOptional _)) .nil
    · rw [printJsonDeath, hsite]
      cases lifetimeDurationNs birth death with
      | none => simp [jsonOptional, field, fieldText, ascii]
      | some durationNs => simp [jsonOptional, field, fieldText, ascii]

/-- A lifetime is written as its object, behind four spaces. -/
theorem value_printJsonLifetime {model : ReportModel lib} (hsites : SitesInRange model)
    {birth : ResourceEvent} (hbirth : birth ∈ model.resources.items) :
    ∃ text, printJsonLifetime model birth = some (ascii "    " ++ text) ∧
      Value (lifetimeJson model birth) text := by
  obtain ⟨resourceFields, hsome, hresource, hresourceText⟩ := lifetimeResource_fields birth
  obtain ⟨deathFields, hdeath, hdeathText⟩ := death_fields hsites birth
  have hsite := siteAt_of_lt (hsites.1 birth hbirth)
  refine ⟨objectText (resourceFields ++ ([field " " "pid" (decimalInt birth.pid),
    field " " "birth" (printJsonEvent (model.siteOf birth.site) birth)] ++ deathFields)) [], ?_, ?_⟩
  · have hopen : ascii "    \x7b\"resource\": " =
        ascii "    " ++ 0x7b :: ascii "\"resource\": " := by
      simp [ascii]
    rw [printJsonLifetime, hsite, hdeathText, objectText, separated_append hsome, ← hresourceText,
      hopen]
    simp [field, fieldText, ascii]
  · refine .of_fields (List.rel_append hresource ?_)
    exact .cons (.of_value (.decimalInt _)) <| .cons (.of_value (value_printJsonEvent _ _)) hdeath

/-- The pieces a loop has written after `printed` earlier ones. -/
def piecesAfter (printed : Nat) (pieces : List (List UInt8)) : List UInt8 :=
  if printed = 0 then separated pieces else continued pieces

/-- A comma stands in front of every piece but the first. -/
theorem piecesAfter_cons (printed : Nat) (piece : List UInt8) (later : List (List UInt8)) :
    piecesAfter printed (piece :: later) =
      (if printed > 0 then [0x2c] else []) ++ (piece ++ piecesAfter (printed + 1) later) := by
  rw [piecesAfter, piecesAfter, if_neg (Nat.succ_ne_zero printed)]
  rcases Nat.eq_zero_or_pos printed with rfl | hpos
  · rfl
  · rw [if_neg (Nat.ne_of_gt hpos), if_pos hpos]
    rfl

theorem piecesAfter_nil (printed : Nat) : piecesAfter printed [] = [] := by
  rw [piecesAfter]
  split <;> rfl

/-- The loop writes one item for each rendered birth, in stored order. -/
theorem printJsonLifetimesLoop_items {model : ReportModel lib} (hsites : SitesInRange model)
    (events : List ResourceEvent) (hevents : ∀ event ∈ events, event ∈ model.resources.items)
    (printed : Nat) :
    ∃ pieces, List.Forall₂ Item ((events.filter isBirth).map (lifetimeJson model)) pieces ∧
      printJsonLifetimesLoop model events printed = some (piecesAfter printed pieces) := by
  induction events generalizing printed with
  | nil => exact ⟨[], .nil, by rw [piecesAfter_nil]; rfl⟩
  | cons event rest ih =>
    have hrest : ∀ later ∈ rest, later ∈ model.resources.items :=
      fun later hlater => hevents later (by simp [hlater])
    rw [printJsonLifetimesLoop, isNoBirth_eq]
    -- an event that is no birth writes nothing, not even a comma
    by_cases hbirth : isBirth event = true
    · obtain ⟨text, htext, hvalue⟩ := value_printJsonLifetime hsites (hevents event (by simp))
      obtain ⟨pieces, hpieces, hlater⟩ := ih hrest (printed + 1)
      refine ⟨(ascii "\n    " ++ text) :: pieces, ?_, ?_⟩
      · rw [List.filter_cons_of_pos hbirth, List.map_cons]
        exact .cons (.of_value (by decide) hvalue) hpieces
      · rw [hbirth, Bool.not_true, if_neg Bool.false_ne_true, htext, hlater, piecesAfter_cons]
        simp [ascii]
    · obtain ⟨pieces, hpieces, hlater⟩ := ih hrest printed
      rw [if_pos (by simpa using hbirth), List.filter_cons_of_neg hbirth]
      exact ⟨pieces, hpieces, hlater⟩

/-! ## Findings -/

/-- The calls of the trace of a finding: the first of its process and context within the bounds. -/
def tracedCalls (model : ReportModel lib) (site : SourceSite) (finding : Finding) :
    List CallEvent :=
  match traceBounds model site finding with
  | none => []
  | some (first, last) =>
    (((model.calls.items.take (last + 1)).drop first).filter fun call =>
      call.pid = finding.pid ∧ call.contextId = finding.contextId).take traceContextLimit

/-- The loop writes one item for each call of the process and context, up to the limit. -/
theorem printJsonTraceLoop_items (finding : Finding) (calls : List CallEvent) (printed : Nat) :
    ∃ pieces, List.Forall₂ Item (((calls.filter fun call =>
        call.pid = finding.pid ∧ call.contextId = finding.contextId).take
          (traceContextLimit - printed)).map callJson) pieces ∧
      printJsonTraceLoop finding calls printed = piecesAfter printed pieces := by
  induction calls generalizing printed with
  | nil => exact ⟨[], by simp, by rw [piecesAfter_nil]; rfl⟩
  | cons call rest ih =>
    rw [printJsonTraceLoop]
    by_cases hlimit : printed < traceContextLimit
    · rw [if_pos hlimit]
      by_cases hown : call.pid = finding.pid ∧ call.contextId = finding.contextId
      · obtain ⟨pieces, hpieces, hlater⟩ := ih (printed + 1)
        have hleft : traceContextLimit - printed = traceContextLimit - (printed + 1) + 1 := by
          omega
        rw [if_neg (by simp [hown]), List.filter_cons_of_pos (by simp [hown]), hleft,
          List.take_succ_cons, List.map_cons, hlater]
        -- only the first call of a trace has no space in front
        refine ⟨((if printed > 0 then ascii " " else []) ++ printJsonCall call) :: pieces, ?_, ?_⟩
        · refine .cons (.of_value ?_ (value_printJsonCall call)) hpieces
          split <;> decide
        · rw [piecesAfter_cons]
          split <;> simp [ascii]
      · obtain ⟨pieces, hpieces, hlater⟩ := ih printed
        rw [if_pos (by tauto), List.filter_cons_of_neg (by simpa using hown)]
        exact ⟨pieces, hpieces, hlater⟩
    · -- the limit is reached, and the loop ends
      rw [if_neg hlimit, Nat.sub_eq_zero_of_le (Nat.not_lt.1 hlimit)]
      exact ⟨[], by simp, (piecesAfter_nil printed).symm⟩

/-- A trace is written as the array of its calls. -/
theorem value_printJsonTraceContext (model : ReportModel lib) (site : SourceSite)
    (finding : Finding) :
    Value (.array ((tracedCalls model site finding).map callJson))
      (0x5b :: (printJsonTraceContext model site finding ++ [0x5d])) := by
  rw [tracedCalls, printJsonTraceContext]
  cases traceBounds model site finding with
  | none => exact .emptyArray Spaces.nil
  | some bounds =>
    obtain ⟨first, last⟩ := bounds
    obtain ⟨pieces, hpieces, htext⟩ :=
      printJsonTraceLoop_items finding ((model.calls.items.take (last + 1)).drop first) 0
    have hvalue := @Value.of_items _ _ [] hpieces
    simpa [arrayText, htext, piecesAfter] using hvalue

/-- The resource of a finding: a generic resource, a descriptor or an allocation. -/
def findingResourceMembers (finding : Finding) : List (List Nat × Json) :=
  if findingIsGeneric finding.kind then
    [(key "resource_class", textJson (some (finding.resourceClass.getD (lit "resource")))),
      (key "resource_id", textJson (some (finding.resourceId.getD (lit "?")))),
      (key "context_id", natJson finding.contextId)]
  else if finding.kind = .execInherit then
    [(key "fd", intJson finding.fd), (key "target", textJson (some (finding.ptr.getD (lit "?"))))]
  else if finding.kind = .fdLeak ∨ finding.kind = .doubleClose ∨ finding.kind = .strayClose then
    [(key "fd", intJson finding.fd)]
  else
    [(key "ptr", textJson (some (finding.ptr.getD dash))), (key "bytes", natJson finding.size)]

/-- The place of a finding. -/
def siteJson (site : SourceSite) : Json :=
  .object [(key "file", textJson site.fileName), (key "line", intJson site.lineNumber),
    (key "function", textJson site.functionName)]

/-- The earlier record of a finding, when it has one. -/
def previousMembers (model : ReportModel lib) (finding : Finding) : List (List Nat × Json) :=
  if finding.previousSequence ≠ 0 ∧ finding.previousSite < model.sites.items.length then
    let site := model.siteOf finding.previousSite
    [(key "previous", .object [
      (key "resource_event", natJson finding.previousSequence),
      (key "file", textJson site.fileName),
      (key "line", intJson site.lineNumber),
      (key "function", textJson site.functionName)])]
  else []

/-- One finding: what it is, the resource it is about, where it arose, the earlier record and the
trace. -/
def findingJson (model : ReportModel lib) (finding : Finding) : Json :=
  let site := model.siteOf finding.site
  .object (
    [(key "id", textJson (some (findingId finding.kind))),
      (key "severity", .string (key "error")),
      (key "location", .object [
        (key "path", textJson site.fileName),
        (key "line", intJson site.lineNumber),
        (key "function", textJson site.functionName)]),
      (key "message", textJson (some (findingName finding.kind))),
      (key "evidence", .object [
        (key "event_schema", textJson (some lib.schemaName)),
        (key "resource_event", natJson finding.sequence)]),
      (key "kind", textJson (some (findingName finding.kind))),
      (key "pid", intJson finding.pid)] ++
    (findingResourceMembers finding ++
    ([(key "resource_event", natJson finding.sequence), (key "site", siteJson site)] ++
    (previousMembers model finding ++
    [(key "trace", .array ((tracedCalls model site finding).map callJson))]))))

/-- A constant of the report. -/
def quoted (name : String) : List UInt8 := 0x22 :: (ascii name ++ [0x22])

theorem value_quoted (name : String) (h : Plain (ascii name) := by decide) :
    Value (.string (key name)) (quoted name) :=
  .string (Chars.of_plain h)

/-- The schema name is written as it is: its bytes must stand for themselves in a string. -/
theorem value_schemaName (h : Plain lib.schemaName.bytes) :
    Value (textJson (some lib.schemaName)) (0x22 :: (lib.schemaName.bytes ++ [0x22])) :=
  .string (Chars.of_plain h)

/-- The resource of a finding is written as its members. -/
theorem findingResource_fields (finding : Finding) :
    ∃ fields, List.Forall₂ Member (findingResourceMembers finding) fields ∧
      printJsonFindingResource finding = continued fields := by
  rw [findingResourceMembers, printJsonFindingResource]
  split
  · refine ⟨[field " " "resource_class"
        (jsonString (some (finding.resourceClass.getD (lit "resource")))),
      field " " "resource_id" (jsonString (some (finding.resourceId.getD (lit "?")))),
      field " " "context_id" (decimalNat finding.contextId)], ?_, ?_⟩
    · exact .cons (.of_value (value_jsonString _)) <| .cons (.of_value (value_jsonString _)) <|
        .cons (.of_value (.decimalNat _)) .nil
    · simp [field, fieldText, ascii]
  · by_cases hexec : finding.kind = .execInherit
    · refine ⟨[field " " "fd" (decimalInt finding.fd),
        field " " "target" (jsonString (some (finding.ptr.getD (lit "?"))))], ?_, ?_⟩
      · rw [if_pos hexec]
        exact .cons (.of_value (.decimalInt _)) <| .cons (.of_value (value_jsonString _)) .nil
      · simp [hexec, field, fieldText, ascii]
    · rw [if_neg hexec]
      by_cases hfd : finding.kind = .fdLeak ∨ finding.kind = .doubleClose ∨
          finding.kind = .strayClose
      · refine ⟨[field " " "fd" (decimalInt finding.fd)], ?_, ?_⟩
        · rw [if_pos hfd]
          exact .cons (.of_value (.decimalInt _)) .nil
        · rw [if_pos (by tauto), if_neg hexec]
          simp [field, fieldText, ascii]
      · refine ⟨[field " " "ptr" (jsonString (some (finding.ptr.getD dash))),
          field " " "bytes" (decimalNat finding.size)], ?_, ?_⟩
        · rw [if_neg hfd]
          exact .cons (.of_value (value_jsonString _)) <| .cons (.of_value (.decimalNat _)) .nil
        · rw [if_neg (by tauto)]
          simp [field, fieldText, ascii]

/-- The earlier record is one more member, or none. -/
theorem previous_fields (model : ReportModel lib) (finding : Finding) :
    ∃ fields, List.Forall₂ Member (previousMembers model finding) fields ∧
      printJsonPrevious model finding = some (continued fields) := by
  rw [previousMembers, printJsonPrevious]
  split
  · rename_i hprevious
    let site := model.siteOf finding.previousSite
    refine ⟨[field " " "previous" (objectText [
      field "" "resource_event" (decimalNat finding.previousSequence),
      field " " "file" (jsonString site.fileName),
      field " " "line" (decimalInt site.lineNumber),
      field " " "function" (jsonString site.functionName)] [])], ?_, ?_⟩
    · refine .cons (.of_value (.of_fields ?_)) .nil
      exact .cons (.of_value (.decimalNat _)) <| .cons (.of_value (value_jsonString _)) <|
        .cons (.of_value (.decimalInt _)) <| .cons (.of_value (value_jsonString _)) .nil
    · rw [siteAt_of_lt hprevious.2]
      simp [site, objectText, separated, field, fieldText, ascii]
  · exact ⟨[], .nil, rfl⟩

/-- The members in front of the resource of a finding. -/
def findingHead (lib : ToolEventLib) (site : SourceSite) (finding : Finding) :
    List (List UInt8) := [
  field "" "id" (jsonString (some (findingId finding.kind))),
  field " " "severity" (quoted "error"),
  field " " "location" (objectText [
    field "" "path" (jsonString site.fileName),
    field " " "line" (decimalInt site.lineNumber),
    field " " "function" (jsonString site.functionName)] []),
  field " " "message" (jsonString (some (findingName finding.kind))),
  field " " "evidence" (objectText [
    field "" "event_schema" (0x22 :: (lib.schemaName.bytes ++ [0x22])),
    field " " "resource_event" (decimalNat finding.sequence)] []),
  field " " "kind" (jsonString (some (findingName finding.kind))),
  field " " "pid" (decimalInt finding.pid)]

/-- The members behind it. -/
def findingSite (site : SourceSite) (finding : Finding) : List (List UInt8) := [
  field " " "resource_event" (decimalNat finding.sequence),
  field " " "site" (objectText [
    field "" "file" (jsonString site.fileName),
    field " " "line" (decimalInt site.lineNumber),
    field " " "function" (jsonString site.functionName)] [])]

set_option maxRecDepth 4000 in
/-- A finding is written as its object, behind four spaces. -/
theorem value_printJsonFinding {model : ReportModel lib}
    (hschema : Plain lib.schemaName.bytes) (hsites : SitesInRange model)
    {finding : Finding} (hfinding : finding ∈ model.findings.items) :
    ∃ text, printJsonFinding model finding = some (ascii "    " ++ text) ∧
      Value (findingJson model finding) text := by
  have hsite := siteAt_of_lt (hsites.2 finding hfinding)
  obtain ⟨resourceFields, hresource, hresourceText⟩ := findingResource_fields finding
  obtain ⟨previousFields, hprevious, hpreviousText⟩ := previous_fields model finding
  let site := model.siteOf finding.site
  refine ⟨objectText (findingHead lib site finding ++ (resourceFields ++
    (findingSite site finding ++ (previousFields ++ [
      field " " "trace" (0x5b :: (printJsonTraceContext model site finding ++ [0x5d]))])))) [],
    ?_, ?_⟩
  · rw [printJsonFinding, hsite, hpreviousText, hresourceText, objectText,
      separated_append (by simp [findingHead])]
    simp [site, findingHead, findingSite, quoted, objectText, separated, field, fieldText, ascii]
  · refine .of_fields (List.rel_append ?_ (List.rel_append hresource
      (List.rel_append ?_ (List.rel_append hprevious ?_))))
    · exact .cons (.of_value (value_jsonString _)) <|
        .cons (.of_value (value_quoted _)) <|
        .cons (.of_value (.of_fields <| .cons (.of_value (value_jsonString _)) <|
          .cons (.of_value (.decimalInt _)) <| .cons (.of_value (value_jsonString _)) .nil)) <|
        .cons (.of_value (value_jsonString _)) <|
        .cons (.of_value (.of_fields <| .cons (.of_value (value_schemaName hschema)) <|
          .cons (.of_value (.decimalNat _)) .nil)) <|
        .cons (.of_value (value_jsonString _)) <|
        .cons (.of_value (.decimalInt _)) .nil
    · exact .cons (.of_value (.decimalNat _)) <|
        .cons (.of_value (.of_fields <| .cons (.of_value (value_jsonString _)) <|
          .cons (.of_value (.decimalInt _)) <| .cons (.of_value (value_jsonString _)) .nil)) .nil
    · exact .cons (.of_value (value_printJsonTraceContext _ _ _)) .nil

/-- The loop writes one item for each finding, in stored order. -/
theorem printJsonFindings_items {model : ReportModel lib}
    (hschema : Plain lib.schemaName.bytes) (hsites : SitesInRange model)
    (findings : List Finding) (hfindings : ∀ finding ∈ findings, finding ∈ model.findings.items)
    (index : Nat) :
    ∃ pieces, List.Forall₂ Item (findings.map (findingJson model)) pieces ∧
      printJsonFindings model findings index = some (piecesAfter index pieces) := by
  induction findings generalizing index with
  | nil => exact ⟨[], .nil, by rw [piecesAfter_nil]; rfl⟩
  | cons finding rest ih =>
    obtain ⟨text, htext, hvalue⟩ :=
      value_printJsonFinding hschema hsites (hfindings finding (by simp))
    obtain ⟨pieces, hpieces, hlater⟩ :=
      ih (fun later hlater => hfindings later (by simp [hlater])) (index + 1)
    refine ⟨(ascii "\n    " ++ text) :: pieces, ?_, ?_⟩
    · rw [List.map_cons]
      exact .cons (.of_value (by decide) hvalue) hpieces
    · rw [printJsonFindings, htext, hlater, piecesAfter_cons]
      simp [ascii]

/-! ## The summary -/

theorem value_jsonBool (value : Bool) : Value (.bool value) (jsonBool value) := by
  cases value with
  | true => exact .true
  | false => exact .false

/-- The counts of the report. -/
def summaryJson (model : ReportModel lib) : Json :=
  let resource := model.resourceStreamHealth
  let call := model.callStreamHealth
  .object [
    (key "resource_records", natJson model.resourceRecords),
    (key "resource_skipped", natJson model.resourceSkipped),
    (key "resource_malformed", natJson model.resourceMalformed),
    (key "resource_bad_version", natJson model.resourceBadVersion),
    (key "call_records", natJson model.callRecords),
    (key "call_skipped", natJson model.callSkipped),
    (key "call_malformed", natJson model.callMalformed),
    (key "call_bad_version", natJson model.callBadVersion),
    (key "resource_complete", .bool (lib.healthIsComplete resource)),
    (key "resource_producers", natJson resource.producerCount),
    (key "resource_incomplete_producers", natJson (lib.healthIncompleteProducers resource)),
    (key "resource_completion_records", natJson resource.completionRecords),
    (key "resource_producer_write_failures", natJson resource.producerWriteFailures),
    (key "resource_duplicate_sequences", natJson resource.duplicateSequences),
    (key "resource_records_after_completion", natJson resource.recordsAfterCompletion),
    (key "call_complete", .bool (lib.healthIsComplete call)),
    (key "call_producers", natJson call.producerCount),
    (key "call_incomplete_producers", natJson (lib.healthIncompleteProducers call)),
    (key "call_completion_records", natJson call.completionRecords),
    (key "call_producer_write_failures", natJson call.producerWriteFailures),
    (key "call_duplicate_sequences", natJson call.duplicateSequences),
    (key "call_records_after_completion", natJson call.recordsAfterCompletion),
    (key "findings", natJson model.findings.items.length)]

set_option maxRecDepth 10000 in
/-- The counts are printed in this order. -/
theorem printJsonSummary_eq (model : ReportModel lib) :
    let resource := model.resourceStreamHealth
    let call := model.callStreamHealth
    ascii "\x7b\n" ++ (printJsonSummary model ++ ascii "  \x7d") = objectText [
    field "\n    " "resource_records" (decimalNat model.resourceRecords),
    field "\n    " "resource_skipped" (decimalNat model.resourceSkipped),
    field "\n    " "resource_malformed" (decimalNat model.resourceMalformed),
    field "\n    " "resource_bad_version" (decimalNat model.resourceBadVersion),
    field "\n    " "call_records" (decimalNat model.callRecords),
    field "\n    " "call_skipped" (decimalNat model.callSkipped),
    field "\n    " "call_malformed" (decimalNat model.callMalformed),
    field "\n    " "call_bad_version" (decimalNat model.callBadVersion),
    field "\n    " "resource_complete" (jsonBool (lib.healthIsComplete resource)),
    field "\n    " "resource_producers" (decimalNat resource.producerCount),
    field "\n    " "resource_incomplete_producers"
      (decimalNat (lib.healthIncompleteProducers resource)),
    field "\n    " "resource_completion_records" (decimalNat resource.completionRecords),
    field "\n    " "resource_producer_write_failures" (decimalNat resource.producerWriteFailures),
    field "\n    " "resource_duplicate_sequences" (decimalNat resource.duplicateSequences),
    field "\n    " "resource_records_after_completion" (decimalNat resource.recordsAfterCompletion),
    field "\n    " "call_complete" (jsonBool (lib.healthIsComplete call)),
    field "\n    " "call_producers" (decimalNat call.producerCount),
    field "\n    " "call_incomplete_producers" (decimalNat (lib.healthIncompleteProducers call)),
    field "\n    " "call_completion_records" (decimalNat call.completionRecords),
    field "\n    " "call_producer_write_failures" (decimalNat call.producerWriteFailures),
    field "\n    " "call_duplicate_sequences" (decimalNat call.duplicateSequences),
    field "\n    " "call_records_after_completion" (decimalNat call.recordsAfterCompletion),
    field "\n    " "findings" (decimalNat model.findings.items.length)] (ascii "\n  ") := by
  simp [printJsonSummary, objectText, separated, field, fieldText, ascii]

/-- The counts are written as one object. -/
theorem value_printJsonSummary (model : ReportModel lib) :
    Value (summaryJson model) (ascii "\x7b\n" ++ (printJsonSummary model ++ ascii "  \x7d")) := by
  rw [printJsonSummary_eq]
  exact .of_fields <|
    .cons (.of_value (.decimalNat _)) <|
    .cons (.of_value (.decimalNat _)) <|
    .cons (.of_value (.decimalNat _)) <|
    .cons (.of_value (.decimalNat _)) <|
    .cons (.of_value (.decimalNat _)) <|
    .cons (.of_value (.decimalNat _)) <|
    .cons (.of_value (.decimalNat _)) <|
    .cons (.of_value (.decimalNat _)) <|
    .cons (.of_value (value_jsonBool _)) <|
    .cons (.of_value (.decimalNat _)) <|
    .cons (.of_value (.decimalNat _)) <|
    .cons (.of_value (.decimalNat _)) <|
    .cons (.of_value (.decimalNat _)) <|
    .cons (.of_value (.decimalNat _)) <|
    .cons (.of_value (.decimalNat _)) <|
    .cons (.of_value (value_jsonBool _)) <|
    .cons (.of_value (.decimalNat _)) <|
    .cons (.of_value (.decimalNat _)) <|
    .cons (.of_value (.decimalNat _)) <|
    .cons (.of_value (.decimalNat _)) <|
    .cons (.of_value (.decimalNat _)) <|
    .cons (.of_value (.decimalNat _)) <|
    .cons (.of_value (.decimalNat _)) .nil

theorem keysDistinct_summaryJson (model : ReportModel lib) :
    (summaryJson model).KeysDistinct := by
  refine .object ?_ (by simp)
  simp only [List.map_cons, List.map_nil]
  decide

/-! ## Keys -/

theorem keysDistinct_deathJson (model : ReportModel lib) (death : Option ResourceEvent) :
    (deathJson model death).KeysDistinct := by
  cases death with
  | none => exact .null
  | some death => exact keysDistinct_eventJson _ death

theorem keysDistinct_lifetimeJson (model : ReportModel lib) (birth : ResourceEvent) :
    (lifetimeJson model birth).KeysDistinct := by
  rw [lifetimeJson, lifetimeResourceMembers]
  split
  · refine .object ?_ (by simp [keysDistinct_deathJson])
    simp only [List.map_cons, List.map_nil, List.cons_append, List.nil_append]
    decide
  · split
    · refine .object ?_ (by simp [keysDistinct_deathJson])
      simp only [List.map_cons, List.map_nil, List.cons_append, List.nil_append]
      decide
    · refine .object ?_ (by simp [keysDistinct_deathJson])
      simp only [List.map_cons, List.map_nil, List.cons_append, List.nil_append]
      decide

/-- The keys that a finding can have. -/
def findingKeys : List (List Nat) :=
  [key "id", key "severity", key "location", key "message", key "evidence", key "kind", key "pid",
    key "resource_class", key "resource_id", key "context_id", key "fd", key "target", key "ptr",
    key "bytes", key "resource_event", key "site", key "previous", key "trace"]

/-- The kinds of findings differ in these keys only. -/
theorem findingResource_keys (finding : Finding) :
    ((findingResourceMembers finding).map Prod.fst).Sublist
      [key "resource_class", key "resource_id", key "context_id", key "fd", key "target",
        key "ptr", key "bytes"] := by
  rw [findingResourceMembers]
  split
  · exact .cons_cons _ (.cons_cons _ (.cons_cons _ (List.nil_sublist _)))
  · split
    · exact .cons _ (.cons _ (.cons _ (.cons_cons _ (.cons_cons _ (List.nil_sublist _)))))
    · split
      · exact .cons _ (.cons _ (.cons _ (.cons_cons _ (List.nil_sublist _))))
      · exact .cons _ (.cons _ (.cons _ (.cons _ (.cons _ (.cons_cons _ (.cons_cons _ .slnil))))))

theorem previous_keys (model : ReportModel lib) (finding : Finding) :
    ((previousMembers model finding).map Prod.fst).Sublist [key "previous"] := by
  rw [previousMembers]
  split
  · exact .refl _
  · exact List.nil_sublist _

theorem keysDistinct_findingResource (finding : Finding) :
    ∀ member ∈ findingResourceMembers finding, member.2.KeysDistinct := by
  rw [findingResourceMembers]
  split
  · simp
  · split
    · simp
    · split <;> simp

theorem keysDistinct_previous (model : ReportModel lib) (finding : Finding) :
    ∀ member ∈ previousMembers model finding, member.2.KeysDistinct := by
  rw [previousMembers]
  split
  · simp only [List.mem_singleton, forall_eq]
    refine .object ?_ (by simp)
    simp only [List.map_cons, List.map_nil]
    decide
  · exact fun _ hmember => absurd hmember List.not_mem_nil

theorem keysDistinct_siteJson (site : SourceSite) : (siteJson site).KeysDistinct := by
  refine .object ?_ (by simp)
  simp only [List.map_cons, List.map_nil]
  decide

/-- No finding has a key twice, whatever its kind. -/
theorem keysDistinct_findingJson (model : ReportModel lib) (finding : Finding) :
    (findingJson model finding).KeysDistinct := by
  refine .object ?_ ?_
  · -- whatever the kind, the keys are among those a finding can have, in their order
    have hkeys : findingKeys.Nodup := by decide
    refine List.Nodup.sublist ?_ hkeys
    simp only [List.map_append]
    exact .append (.refl _) (.append (findingResource_keys finding)
      (.append (.refl [key "resource_event", key "site"])
        (.append (previous_keys model finding) (.refl _))))
  · simp only [List.forall_mem_append]
    refine ⟨?_, keysDistinct_findingResource finding, ?_, keysDistinct_previous model finding, ?_⟩
    · have hlocation : (Json.object [(key "path", textJson (model.siteOf finding.site).fileName),
          (key "line", intJson (model.siteOf finding.site).lineNumber),
          (key "function", textJson (model.siteOf finding.site).functionName)]).KeysDistinct :=
        .object (by simp only [List.map_cons, List.map_nil]; decide) (by simp)
      have hevidence : (Json.object [(key "event_schema", textJson (some lib.schemaName)),
          (key "resource_event", natJson finding.sequence)]).KeysDistinct :=
        .object (by simp only [List.map_cons, List.map_nil]; decide) (by simp)
      simp [hlocation, hevidence]
    · simp [keysDistinct_siteJson]
    · have htrace : (Json.array ((tracedCalls model (model.siteOf finding.site) finding).map
          callJson)).KeysDistinct := by
        refine .array fun item hitem => ?_
        obtain ⟨call, -, rfl⟩ := List.mem_map.1 hitem
        exact keysDistinct_callJson call
      simp [htrace]

/-! ## The report -/

/-- The members of the report: the logs, the summary, one element for each rendered birth and one
for each finding, in stored order. -/
def reportMembers (args : Arguments) (model : ReportModel lib) : List (List Nat × Json) := [
  (key "schema", .string (key "p101-report-findings-v3")),
  (key "event_schema", textJson (some lib.schemaName)),
  (key "event_id_policy", .string (key "derived-1-based-input-sequence")),
  (key "resource_log", textJson args.resourceLog),
  (key "call_log", textJson args.callLog),
  (key "summary", summaryJson model),
  (key "lifetimes", .array ((model.resources.items.filter isBirth).map (lifetimeJson model))),
  (key "findings", .array (model.findings.items.map (findingJson model)))]

/-- The report as a value. -/
def reportJson (args : Arguments) (model : ReportModel lib) : Json :=
  .object (reportMembers args model)

/-- No object of the report has a key twice. -/
theorem keysDistinct_reportJson (args : Arguments) (model : ReportModel lib) :
    (reportJson args model).KeysDistinct := by
  refine .object ?_ ?_
  · simp only [reportMembers, List.map_cons, List.map_nil]
    decide
  · have hlifetimes : (Json.array ((model.resources.items.filter isBirth).map
        (lifetimeJson model))).KeysDistinct := by
      refine .array fun item hitem => ?_
      obtain ⟨birth, -, rfl⟩ := List.mem_map.1 hitem
      exact keysDistinct_lifetimeJson model birth
    have hfindings : (Json.array (model.findings.items.map (findingJson model))).KeysDistinct := by
      refine .array fun item hitem => ?_
      obtain ⟨finding, -, rfl⟩ := List.mem_map.1 hitem
      exact keysDistinct_findingJson model finding
    simp [reportMembers, hlifetimes, hfindings, keysDistinct_summaryJson]

set_option maxRecDepth 4000 in
/-- The report is the object of its members, and a line feed. -/
theorem item_printJsonReport (args : Arguments) {model : ReportModel lib}
    (hschema : Plain lib.schemaName.bytes) (hsites : SitesInRange model) :
    ∃ text, printJsonReport args model = some text ∧ Item (reportJson args model) text := by
  obtain ⟨lifetimes, hlifetimes, hlifetimesText⟩ :=
    printJsonLifetimesLoop_items hsites model.resources.items (fun _ h => h) 0
  obtain ⟨findings, hfindings, hfindingsText⟩ :=
    printJsonFindings_items hschema hsites model.findings.items (fun _ h => h) 0
  -- without findings the bracket stands behind two spaces, on the same line
  let closing := (if model.findings.items.length > 0 then ascii "\n" else []) ++ ascii "  "
  have hclosing : Spaces closing := by
    dsimp only [closing]
    split <;> decide
  let pieces := [
    field "\n  " "schema" (quoted "p101-report-findings-v3"),
    field "\n  " "event_schema" (0x22 :: (lib.schemaName.bytes ++ [0x22])),
    field "\n  " "event_id_policy" (quoted "derived-1-based-input-sequence"),
    field "\n  " "resource_log" (jsonString args.resourceLog),
    field "\n  " "call_log" (jsonString args.callLog),
    field "\n  " "summary" (ascii "\x7b\n" ++ (printJsonSummary model ++ ascii "  \x7d")),
    field "\n  " "lifetimes" (arrayText lifetimes (ascii "\n  ")),
    field "\n  " "findings" (arrayText findings closing)]
  have hpieces : List.Forall₂ Member (reportMembers args model) pieces :=
    .cons (.of_value (value_quoted _)) <|
    .cons (.of_value (value_schemaName hschema)) <|
    .cons (.of_value (value_quoted _)) <|
    .cons (.of_value (value_jsonString _)) <|
    .cons (.of_value (value_jsonString _)) <|
    .cons (.of_value (value_printJsonSummary model)) <|
    .cons (.of_value (.of_items hlifetimes)) <|
    .cons (.of_value (.of_items hfindings hclosing)) .nil
  refine ⟨objectText pieces (ascii "\n") ++ ascii "\n", ?_, ?_⟩
  · rw [printJsonReport, printJsonLifetimes, hlifetimesText, hfindingsText]
    simp [pieces, closing, piecesAfter, quoted, objectText, arrayText, separated, field, fieldText,
      ascii]
  · have hvalue : Value (reportJson args model) (objectText pieces (ascii "\n")) :=
      .of_fields hpieces
    exact (Item.of_value Spaces.nil hvalue).append (by decide)

/-- **The report is well formed.** With the sites in range, whatever bytes the texts of the model
have, the report is written, and its text is one JSON object, without a duplicate key at any level,
that holds the rendered births and the findings, in stored order. -/
theorem jsonReport_wellFormed (args : Arguments) (model : ReportModel lib)
    (hschema : Plain lib.schemaName.bytes) (hsites : SitesInRange model) :
    ∃ text members, printJsonReport args model = some text ∧ Item (.object members) text ∧
      (Json.object members).KeysDistinct ∧ members = reportMembers args model ∧
      (key "lifetimes", Json.array ((model.resources.items.filter isBirth).map
        (lifetimeJson model))) ∈ members ∧
      (key "findings", Json.array (model.findings.items.map (findingJson model))) ∈ members := by
  obtain ⟨text, htext, hitem⟩ := item_printJsonReport args hschema hsites
  refine ⟨text, reportMembers args model, htext, hitem, keysDistinct_reportJson args model, rfl,
    ?_, ?_⟩
  · simp [reportMembers]
  · simp [reportMembers]

/-- A leaked descriptor and a leaked allocation whose pointer text is a quote, a backslash and a
byte outside ASCII. -/
theorem jsonReport_wellFormed_leaks :
    let log := [openRecord 1 3, allocRecord 1 ⟨[0x22, 0x5c, 0xff], by decide⟩]
    let model := (finalizeLeaks (ingestLog State.zeroed (number log))).model
    let args : Arguments := ⟨some (lit "resource.log"), none⟩
    model.findings.items.length = 2 ∧
      ∃ text members, printJsonReport args model = some text ∧ Item (.object members) text ∧
        (Json.object members).KeysDistinct ∧ members = reportMembers args model ∧
        (key "lifetimes", Json.array ((model.resources.items.filter isBirth).map
          (lifetimeJson model))) ∈ members ∧
        (key "findings", Json.array (model.findings.items.map (findingJson model))) ∈ members := by
  intro log model args
  refine ⟨by decide, ?_⟩
  exact jsonReport_wellFormed args model (by decide) (by decide)

end P101Report
