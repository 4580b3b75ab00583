import P101Report.Library.Ownership
import P101Report.Model.Runner

/-!
# The memory of a run

`src/memory.c`, and what the other files do with the texts they copy. A `char *` field is a pointer
to a block of a heap, and the tables that hold texts are tables of cells with such pointers
(`Memory`). Every function of the report that copies, keeps, reads or frees a text is written on
this memory, under the name of the function of the model that it refines; a step that keeps no text
is the step of the model on what the memory stands for (`Memory.step`).

A search through a table may read all the texts it compares, and a null pointer compares as no
text. The arrays of the tables are lists, as in the model, and the objects of the libraries stay
closed: they copy what they keep of a record, and only texts are blocks.
-/

set_option autoImplicit false

namespace P101Report

open Ownership SwapTable

variable {lib : ToolEventLib} {α : Type}

/-! ## Cells -/

/-- `struct source_site`. -/
structure SiteCell (α : Type) where
  fileName : Option α
  functionName : Option α
  lineNumber : Int

/-- `struct resource_event`: its pointers, and in `fields` what is no pointer. -/
structure EventCell (α : Type) where
  fields : ResourceEvent := {}
  ptr : Option α := none
  newPtr : Option α := none
  target : Option α := none
  resourceClass : Option α := none
  resourceId : Option α := none
  relatedId : Option α := none
  metadata : Option α := none

/-- `struct call_event`, in the same way. -/
structure CallCell (α : Type) where
  fields : CallEvent := {}
  functionName : Option α := none
  callName : Option α := none
  arguments : Option α := none
  result : Option α := none
  fileName : Option α := none

/-- `struct live_alloc`. -/
structure AllocCell (α : Type) where
  pid : Int
  ptr : Option α
  size : Nat
  site : Nat
  sequence : Nat

/-- `struct freed_alloc`. -/
structure FreedCell (α : Type) where
  pid : Int
  ptr : Option α
  site : Nat
  sequence : Nat

/-- `struct finding`: its pointers, and in `fields` what is no pointer. -/
structure FindingCell (α : Type) where
  fields : Finding := {}
  ptr : Option α := none
  resourceClass : Option α := none
  resourceId : Option α := none

/-! ## What a cell stands for -/

section Read

variable (content : α → Text)

def SiteCell.read (site : SiteCell α) : SourceSite :=
  ⟨site.fileName.map content, site.functionName.map content, site.lineNumber⟩

def EventCell.read (event : EventCell α) : ResourceEvent :=
  { event.fields with
    ptr := event.ptr.map content
    newPtr := event.newPtr.map content
    target := event.target.map content
    resourceClass := event.resourceClass.map content
    resourceId := event.resourceId.map content
    relatedId := event.relatedId.map content
    metadata := event.metadata.map content }

def CallCell.read (call : CallCell α) : CallEvent :=
  { call.fields with
    functionName := call.functionName.map content
    callName := call.callName.map content
    arguments := call.arguments.map content
    result := call.result.map content
    fileName := call.fileName.map content }

def AllocCell.read (alloc : AllocCell α) : LiveAlloc :=
  ⟨alloc.pid, alloc.ptr.map content, alloc.size, alloc.site, alloc.sequence⟩

def FreedCell.read (freed : FreedCell α) : FreedAlloc :=
  ⟨freed.pid, freed.ptr.map content, freed.site, freed.sequence⟩

def FindingCell.read (finding : FindingCell α) : Finding :=
  { finding.fields with
    ptr := finding.ptr.map content
    resourceClass := finding.resourceClass.map content
    resourceId := finding.resourceId.map content }

end Read

def SiteCell.pointers (site : SiteCell α) : List (Option α) := [site.fileName, site.functionName]

/-- In the order of `p101_report_free_resource_event`. -/
def EventCell.pointers (event : EventCell α) : List (Option α) :=
  [event.ptr, event.newPtr, event.target, event.resourceClass, event.resourceId, event.relatedId,
    event.metadata]

/-- In the order of `p101_report_free_call_event`. -/
def CallCell.pointers (call : CallCell α) : List (Option α) :=
  [call.functionName, call.callName, call.arguments, call.result, call.fileName]

def FindingCell.pointers (finding : FindingCell α) : List (Option α) :=
  [finding.ptr, finding.resourceClass, finding.resourceId]

/-- A `const char *` argument: a text outside the heap (in the line buffer, in an object of a
library, or a literal), or a pointer into it. -/
inductive CharPtr (α : Type)
  | outside (text : Option Text)
  | inside (pointer : Option α)

def CharPtr.read (content : α → Text) : CharPtr α → Option Text
  | .outside text => text
  | .inside pointer => pointer.map content

def CharPtr.pointers : CharPtr α → List (Option α)
  | .outside _ => []
  | .inside pointer => [pointer]

def CharPtr.isNull : CharPtr α → Bool
  | .outside text => text.isNone
  | .inside pointer => pointer.isNone

/-! ## The memory -/

/-- A table of what the cells stand for. -/
def Table.mapItems {κ ν : Type} (f : κ → ν) (t : Table κ) : Table ν := ⟨t.items.map f, t.capacity⟩

/-- The heap, the tables that hold texts, and in `rest` everything else: the error object, the
tables without texts, the counters and the objects of the libraries. -/
structure Memory (lib : ToolEventLib) (α : Type) where
  rest : State lib
  heap : Heap α Text
  sites : Table (SiteCell α) := {}
  resources : Table (EventCell α) := {}
  calls : Table (CallCell α) := {}
  allocs : Table (AllocCell α) := {}
  freedAllocs : Table (FreedCell α) := {}
  findings : Table (FindingCell α) := {}

namespace Memory

/-- The state that a memory stands for. -/
def state (m : Memory lib α) : State lib :=
  { m.rest with
    model := { m.rest.model with
      sites := m.sites.mapItems (SiteCell.read m.heap.content)
      resources := m.resources.mapItems (EventCell.read m.heap.content)
      calls := m.calls.mapItems (CallCell.read m.heap.content)
      allocs := m.allocs.mapItems (AllocCell.read m.heap.content)
      freedAllocs := m.freedAllocs.mapItems (FreedCell.read m.heap.content)
      findings := m.findings.mapItems (FindingCell.read m.heap.content) } }

/-- The error object. -/
def setErr (err : ErrState) (m : Memory lib α) : Memory lib α :=
  { m with rest := { m.rest with err } }

/-- A step that keeps no text, on what the memory stands for. -/
def step (f : State lib → State lib) (m : Memory lib α) : Memory lib α :=
  { m with rest := f m.state }

variable [DecidableEq α]

/-- Pointers are read through. -/
def touch (ps : List (Option α)) (m : Memory lib α) : Memory lib α :=
  { m with heap := m.heap.touch ps }

/-- `p101_free`. -/
def free (p : Option α) (m : Memory lib α) : Memory lib α := { m with heap := m.heap.free p }

def freeAll (ps : List (Option α)) (m : Memory lib α) : Memory lib α :=
  { m with heap := m.heap.freeAll ps }

/-! ## Copies of texts -/

/-- `p101_report_dup_text`. -/
def dupText (text : CharPtr α) (m : Memory lib α) : Option α × Memory lib α :=
  let m := m.touch text.pointers
  match m.rest.err.allocate with
  | (true, err) =>
    let (block, heap) := m.heap.alloc ((text.read m.heap.content).getD (lit ""))
    (some block, { m.setErr err with heap })
  | (false, err) => (none, m.setErr err)

/-- `if(text != NULL) { copy = p101_report_dup_text(text); }` into a field that was `NULL`. -/
def dupField (text : CharPtr α) (m : Memory lib α) : Option α × Memory lib α :=
  if text.isNull then (none, m) else m.dupText text

/-- `p101_report_intern_site`. -/
def internSite (fileName functionName : Option Text) (lineNumber : Int) (m : Memory lib α) :
    Nat × Memory lib α :=
  let m := m.touch (m.sites.items.flatMap SiteCell.pointers)
  let known := m.sites.items.findIdx? fun site =>
    site.lineNumber == lineNumber && site.fileName.map m.heap.content == fileName &&
      site.functionName.map m.heap.content == functionName
  match known with
  | some index => (index, m)
  | none =>
    match growTable lib lib.sizeofSite m.sites m.rest.err with
    | (false, sites, err) => (0, { m.setErr err with sites })
    | (true, sites, err) =>
      let index := sites.items.length
      let (fileCopy, m) := ({ m.setErr err with sites } : Memory lib α).dupText (.outside fileName)
      let (functionCopy, m) := m.dupText (.outside functionName)
      (index, { m with sites := m.sites.push ⟨fileCopy, functionCopy, lineNumber⟩ })

/-- The finding handed to `p101_report_add_finding_internal`: its texts belong to others. -/
structure FindingArgument (α : Type) where
  fields : Finding
  ptr : CharPtr α := .outside none
  resourceClass : CharPtr α := .outside none
  resourceId : CharPtr α := .outside none

/-- `p101_report_add_finding_internal`. -/
def addFindingInternal (finding : FindingArgument α) (m : Memory lib α) : Memory lib α :=
  match growTable lib lib.sizeofFinding m.findings m.rest.err with
  | (false, findings, err) => { m.setErr err with findings }
  | (true, findings, err) =>
    let (ptr, m) := ({ m.setErr err with findings } : Memory lib α).dupField finding.ptr
    let (resourceClass, m) := m.dupField finding.resourceClass
    let (resourceId, m) := m.dupField finding.resourceId
    let copy : FindingCell α := { fields := finding.fields, ptr, resourceClass, resourceId }
    if m.rest.err.error then m.freeAll copy.pointers
    else { m with findings := m.findings.push copy }

/-- `p101_report_add_call`: the table takes the event over, when there is room for it. -/
def addCall (event : CallCell α) (m : Memory lib α) : Memory lib α :=
  match growTable lib lib.sizeofCallEvent m.calls m.rest.err with
  | (false, calls, err) => { m.setErr err with calls }
  | (true, calls, err) => { m.setErr err with calls := calls.push event }

/-! ## The lifecycle library -/

/-- `p101_report_ingest_generic`: the library reads the texts of the event and of its site. -/
def ingestGeneric (event : EventCell α) (m : Memory lib α) : Memory lib α :=
  let site := m.sites.items[event.fields.site]?
  (m.touch (event.pointers ++ (site.map SiteCell.pointers).getD [])).step
    (P101Report.ingestGeneric (event.read m.heap.content))

/-- `p101_report_find_generic_sequence`: the class of an event is compared with that of the
finding. -/
def findGenericSequence (source : LifecycleFinding) (previous : Bool) (m : Memory lib α) :
    Nat × Memory lib α :=
  let m := m.touch (m.resources.items.map EventCell.resourceClass)
  (P101Report.findGenericSequence (m.resources.items.map (EventCell.read m.heap.content)) source
    previous, m)

/-- `p101_report_find_lifecycle_event`. -/
def findLifecycleEvent (source : LifecycleFinding) (m : Memory lib α) : Option (EventCell α) :=
  m.resources.items.find? fun event =>
    event.fields.pid == source.pid && event.fields.contextId == source.contextId &&
      event.fields.eventSequence == source.sequence

/-- The finding of a lifecycle finding: its texts belong to the library, and its pointer to the
stored event that was found. -/
def genericArgument (source : LifecycleFinding) (found : Option (EventCell α)) (fields : Finding) :
    FindingArgument α where
  fields := fields
  ptr := .inside (found.bind EventCell.ptr)
  resourceClass := .outside source.resourceClass
  resourceId := .outside source.resourceId

/-- The loop body of `p101_report_finalize_generic` for one lifecycle finding. -/
def finalizeFinding (source : LifecycleFinding) (m : Memory lib α) : Memory lib α :=
  let (site, m) := m.internSite source.fileName source.functionName source.lineNumber
  let (sequence, m) := m.findGenericSequence source false
  let found := m.findLifecycleEvent source
  let fields : Finding :=
    { kind := genericFindingKind source
      pid := source.pid
      contextId := source.contextId
      eventSequence := source.sequence
      site
      sequence
      fd := (found.map (·.fields.fd)).getD 0
      size := (found.map (·.fields.size)).getD 0 }
  if source.previousSequence ≠ 0 then
    let (previousSite, m) :=
      m.internSite source.previousFileName source.previousFunctionName source.previousLineNumber
    let (previousSequence, m) := m.findGenericSequence source true
    m.addFindingInternal
      (genericArgument source found { fields with previousSite, previousSequence })
  else m.addFindingInternal (genericArgument source found fields)

/-- The loop of `p101_report_finalize_generic`. -/
def finalizeFindings : List (Option LifecycleFinding) → Memory lib α → Memory lib α
  | [], m => m
  | none :: _, m =>
    if m.rest.err.error then m else m.step fun st => { st with err := st.err.raise }
  | some source :: rest, m =>
    if m.rest.err.error then m else finalizeFindings rest (m.finalizeFinding source)

/-- `p101_report_finalize_generic`. -/
def finalizeGeneric (m : Memory lib α) : Memory lib α :=
  match m.rest.model.genericLifecycle with
  | none => m
  | some lifecycle =>
    if m.rest.model.genericFinalized then m
    else
      let result := lib.lifecycleFinish lifecycle m.rest.err.allocations
      let (lifecycle, failed) := result.value
      let m := m.step fun st =>
        { model := { st.model with genericLifecycle := some lifecycle }
          err := st.err.after result }
      if failed then m
      else
        let m := m.finalizeFindings (lib.lifecycleFindingAt lifecycle)
        if m.rest.err.error then m
        else m.step fun st => { st with model := { st.model with genericFinalized := true } }

end Memory

end P101Report
