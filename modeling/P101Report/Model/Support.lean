import P101Report.Model.Types

/-!
# Table growth, text copies, site interning and findings

`src/memory.c` and `src/model_support.c`. Allocation failure is explicit: each allocation consumes
one outcome of the error state, and a failed one raises the error.

`p101_strcmp` has no answer for `NULL`. A function that compares texts while a log is read or the
findings are made has a predicate `…Faults` beside it, which says of a call that it hands a null
pointer to `p101_strcmp`; what the function returns for such a call says nothing about the program.
-/

set_option autoImplicit false

namespace P101Report

/-- `FIRST_CAPACITY`. -/
def firstCapacity : Nat := 16

/-- `P101_ERROR_RAISE_*`. -/
def ErrState.raise (err : ErrState) : ErrState := { err with error := true }

/-- One allocation: whether it succeeded, and the state after it. -/
def ErrState.allocate (err : ErrState) : Bool × ErrState :=
  match err.allocations with
  | [] => (true, err)
  | fails :: rest =>
    if fails then (false, ⟨true, rest⟩) else (true, { err with allocations := rest })

/-- The error state after a library call. -/
def ErrState.after {α : Type} (err : ErrState) (result : LibResult α) : ErrState :=
  ⟨err.error || result.raised, result.allocations⟩

variable {lib : ToolEventLib}

/-- `new_capacity`: the doubling wraps around `SIZE_MAX`. -/
def newCapacity (lib : ToolEventLib) (capacity : Nat) : Nat :=
  if capacity = 0 then firstCapacity else capacity * 2 % (lib.sizeMax + 1)

/-- `p101_report_grow_array_internal` on a capacity: whether there is room for one more item, and
the capacity after the call. -/
def growArrayInternal (lib : ToolEventLib) (itemSize count capacity : Nat) (err : ErrState) :
    Bool × Nat × ErrState :=
  if count < capacity then (true, capacity, err)
  -- the doubled capacity has wrapped, or its size in bytes would
  else if newCapacity lib capacity < capacity ∨
      (itemSize ≠ 0 ∧ newCapacity lib capacity > lib.sizeMax / itemSize) then
    (false, capacity, err.raise)
  else
    match err.allocate with
    | (true, err) => (true, newCapacity lib capacity, err)
    | (false, err) => (false, capacity, err)

/-- `p101_report_grow_array_internal` on a table. -/
def growTable {α : Type} (lib : ToolEventLib) (itemSize : Nat) (t : Table α) (err : ErrState) :
    Bool × Table α × ErrState :=
  match growArrayInternal lib itemSize t.items.length t.capacity err with
  | (ok, capacity, err) => (ok, { t with capacity }, err)

/-- `p101_report_dup_text`: a copy of the text, or of `""` when there is none; `NULL` when the
allocation fails. -/
def dupText (text : Option Text) (err : ErrState) : Option Text × ErrState :=
  match err.allocate with
  | (true, err) => (some (text.getD (lit "")), err)
  | (false, err) => (none, err)

/-- `if(text != NULL) { copy = p101_report_dup_text(text); }` into a field that was `NULL`. -/
def dupField (text : Option Text) (err : ErrState) : Option Text × ErrState :=
  match text with
  | none => (none, err)
  | some t => dupText (some t) err

/-- Whether `p101_strcmp` is handed a null pointer. -/
def strcmpFaults (left right : Option Text) : Bool := left.isNone || right.isNone

/-- A search that stops at the first entry it has `found`: whether it comes to an entry at which a
comparison `faults`. -/
def searchFaults {α : Type} (faults found : α → Bool) : List α → Bool
  | [] => false
  | entry :: rest => faults entry || (!found entry && searchFaults faults found rest)

theorem searchFaults_of_none {α : Type} {faults found : α → Bool} {l : List α}
    (h : ∀ entry ∈ l, faults entry = false) : searchFaults faults found l = false := by
  induction l with
  | nil => rfl
  | cons entry rest ih =>
    obtain ⟨hfirst, hrest⟩ := List.forall_mem_cons.1 h
    rw [searchFaults, hfirst, ih hrest, Bool.and_false, Bool.or_false]

/-- Behind entries at which nothing faults, a search may go on. -/
theorem searchFaults_append_of_none {α : Type} {faults found : α → Bool} {later : List α}
    (h : ∀ entry ∈ later, faults entry = false) (l : List α) :
    searchFaults faults found (l ++ later) = searchFaults faults found l := by
  induction l with
  | nil => exact searchFaults_of_none h
  | cons entry rest ih => rw [List.cons_append, searchFaults, searchFaults, ih]

/-- A search that ends without a match comes to every entry. -/
theorem searchFaults_of_unfound {α : Type} {faults found : α → Bool} {l : List α}
    (h : ∀ entry ∈ l, found entry = false) : searchFaults faults found l = l.any faults := by
  induction l with
  | nil => rfl
  | cons entry rest ih =>
    obtain ⟨hfirst, hrest⟩ := List.forall_mem_cons.1 h
    rw [searchFaults, hfirst, ih hrest, Bool.not_false, Bool.true_and, List.any_cons]

/-- `site.line_number == line_number && strcmp(site.file_name, file_name) == 0 &&
strcmp(site.function_name, function_name) == 0`; no answer where `isAtFaults` holds. -/
def SourceSite.isAt (fileName functionName : Option Text) (lineNumber : Int) (site : SourceSite) :
    Bool :=
  site.lineNumber == lineNumber && site.fileName == fileName && site.functionName == functionName

theorem SourceSite.isAt_iff {fileName functionName : Option Text} {lineNumber : Int}
    {site : SourceSite} :
    site.isAt fileName functionName lineNumber = true ↔
      (site.lineNumber = lineNumber ∧ site.fileName = fileName) ∧
        site.functionName = functionName := by
  simp only [isAt, Bool.and_eq_true, beq_iff_eq]

/-- The comparisons of that condition; each is made when the ones before it are true. -/
def SourceSite.isAtFaults (fileName functionName : Option Text) (lineNumber : Int)
    (site : SourceSite) : Bool :=
  site.lineNumber == lineNumber &&
    (strcmpFaults site.fileName fileName ||
      (site.fileName == fileName && strcmpFaults site.functionName functionName))

/-- `p101_report_intern_site`: the index of an equal site, or of the site added behind the others;
index `0` when the table cannot grow. A copy that fails leaves a null pointer in the table, at which
a later search may end the program (`internSiteFaults`). -/
def internSite (fileName functionName : Option Text) (lineNumber : Int) (st : State lib) :
    Nat × State lib :=
  let known := st.model.sites.items.findIdx? (SourceSite.isAt fileName functionName lineNumber)
  match known with
  | some index => (index, st)
  | none =>
    match growTable lib lib.sizeofSite st.model.sites st.err with
    | (false, sites, err) => (0, { model := { st.model with sites }, err })
    | (true, sites, err) =>
      let (fileCopy, err) := dupText fileName err
      let (functionCopy, err) := dupText functionName err
      let site : SourceSite := ⟨fileCopy, functionCopy, lineNumber⟩
      (st.model.sites.items.length, { model := { st.model with sites := sites.push site }, err })

/-- The search of `internSite`, in a table of sites. -/
def internSiteFaults (fileName functionName : Option Text) (lineNumber : Int)
    (sites : List SourceSite) : Bool :=
  searchFaults (SourceSite.isAtFaults fileName functionName lineNumber)
    (SourceSite.isAt fileName functionName lineNumber) sites

/-- `p101_report_add_finding_internal`: a copy of the finding that owns its texts. When an error is
raised the slot is zeroed and not counted. -/
def addFindingInternal (finding : Finding) (st : State lib) : State lib :=
  match growTable lib lib.sizeofFinding st.model.findings st.err with
  | (false, findings, err) => { model := { st.model with findings }, err }
  | (true, findings, err) =>
    let (ptr, err) := dupField finding.ptr err
    let (resourceClass, err) := dupField finding.resourceClass err
    let (resourceId, err) := dupField finding.resourceId err
    let copy : Finding := { finding with ptr, resourceClass, resourceId }
    if err.error then { model := { st.model with findings }, err }
    else { model := { st.model with findings := findings.push copy }, err }

/-- `p101_report_add_call`. -/
def addCall (event : CallEvent) (st : State lib) : State lib :=
  match growTable lib lib.sizeofCallEvent st.model.calls st.err with
  | (false, calls, err) => { model := { st.model with calls }, err }
  | (true, calls, err) => { model := { st.model with calls := calls.push event }, err }

end P101Report
