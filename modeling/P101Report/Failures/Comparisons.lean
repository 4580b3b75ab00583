import P101Report.Calls.FailedIngest
import P101Report.Calls.RetriedFinalization
import P101Report.Failures.Operations
import P101Report.Reading.Forwarding

/-!
# The comparisons of a run

A run hands texts to `p101_strcmp` that an allocation may have failed to provide. While no error has
been raised every site has its names and every live allocation its pointer text (`TextsThere`), and
a reader stops at the first error, so that reading compares no null pointer
(`readResources_compares`). The loop over the findings of the library stops as late as after the
second site of a finding: it may search for that one in a table whose last name could not be copied,
and ends with an error then (`finalizeLeaks_compares`). So a run with such a comparison gives up
(`prepareReport_compares`), and one in which no allocation fails has none
(`finalizeLeaks_compares_calm`).
-/

set_option autoImplicit false

namespace P101Report

open Faults

variable {lib : ToolEventLib}

/-- Every record whose site is interned names it. -/
def NamesRecords (lib : ToolEventLib) : Prop :=
  ∀ line : List UInt8, (lib.parseLine line).1 = .ok →
    (lib.parseLine line).2.recordKind ≠ .complete ∧ (lib.parseLine line).2.recordKind ≠ .call →
      (lib.parseLine line).2.fileName.isSome = true ∧
        (lib.parseLine line).2.functionName.isSome = true

/-- Every site has its names, and every allocation its pointer text. -/
structure TextsThere (model : ReportModel lib) : Prop where
  sites : SitesNamed model
  pointers : model.tables.PointersNamed

/-! ## Reading -/

/-- A search by names in a table that has its names. -/
theorem internSiteFaults_of_named {fileName functionName : Option Text}
    (hfile : fileName.isSome = true) (hfunction : functionName.isSome = true) (lineNumber : Int)
    {model : ReportModel lib} (hnamed : SitesNamed model) :
    internSiteFaults fileName functionName lineNumber model.sites.items = false :=
  internSiteFaults_append hfile hfunction lineNumber hnamed []

theorem parseResourceLine_compares (hrecords : NamesRecords lib) (line : List UInt8)
    {st : State lib} (hnamed : SitesNamed st.model) : parseResourceLineFaults line st = false := by
  have hnames := hrecords line
  rw [parseResourceLineFaults]
  generalize lib.parseLine line = parsed at hnames ⊢
  obtain ⟨status, record⟩ := parsed
  dsimp only at hnames ⊢
  cases status with
  | ok =>
    dsimp only [mapParseStatus]
    split
    · rfl
    · rename_i hkind
      obtain ⟨hfile, hfunction⟩ := hnames rfl (not_or.1 hkind)
      rw [internSiteFaults_of_named hfile hfunction _ hnamed, Bool.and_false]
  | other => rfl
  | badVersion => rfl
  | malformed => rfl

/-- A record is freed by name: its event has a copy of the pointer text. -/
theorem freesByName_ofRecord (record : ToolEventRecord) (sequence site : Nat)
    (model : ReportModel lib) (err : ErrState) :
    FreesByName (.ofRecord record sequence site) model err := by
  intro hkind
  left
  rw [ResourceEvent.ofRecord] at hkind ⊢
  cases hrecord : record.recordKind with
  | alloc => rfl
  | fd =>
    rw [hrecord] at hkind
    dsimp only at hkind
    split at hkind <;> cases hkind
  | fork | spawn | exec | execFail | resource | call | complete =>
    rw [hrecord] at hkind
    cases hkind

theorem readResourceLine_compares (hrecords : NamesRecords lib) (text : List UInt8)
    {st : State lib} (h : TextsThere st.model) : readResourceLineFaults text st = false := by
  obtain ⟨hframe, -⟩ := parseResourceLine_frame text (st.model.resourceRecords + 1) st
  have hevent (hok : (parseResourceLine text (st.model.resourceRecords + 1) st).1 = .ok) :=
    (parseResourceLine_ok h.sites (parseResourceLine_error hok)).2 hok
  rw [readResourceLineFaults, parseResourceLine_compares hrecords text h.sites]
  generalize parseResourceLine text (st.model.resourceRecords + 1) st = parsed at hframe hevent ⊢
  obtain ⟨status, event, st'⟩ := parsed
  dsimp only at hframe hevent ⊢
  by_cases hok : status = .ok
  · -- only an accepted record is ingested, and it has been copied as a whole
    obtain ⟨site, rfl, -⟩ := hevent hok
    have hpointers : st'.model.tables.PointersNamed :=
      h.pointers.of_eq (by rw [hframe]; rfl) (by rw [hframe]; rfl)
    have hcompares := (ingestFaults_eq_false_iff hpointers _ st'.err).2
      (freesByName_ofRecord (lib.parseLine text).2 (st.model.resourceRecords + 1) site _ _)
    rw [hcompares, Bool.and_false, Bool.or_false]
  · rw [beq_false_of_ne hok, Bool.false_and, Bool.or_false]

/-- A line that is read without an error leaves all texts there. -/
theorem resourceStep_texts {st : State lib} {read : LineRead}
    (h : (resourceStep st read).err.error = false) (htexts : TextsThere st.model) :
    TextsThere (resourceStep st read).model := by
  have hkept : KeptByIngest lib Tables.PointersNamed :=
    fun _ event ht => ht.ingest lib.execInherits event
  exact ⟨resourceStep_named (fun _ => htexts.sites) h, resourceStep_keeps hkept h htexts.pointers⟩

/-- **Reading.** A log compares no null pointer, whatever allocations fail. -/
theorem readResources_compares (hrecords : NamesRecords lib) (reads : List LineRead)
    {st : State lib} (hstart : st.err.error = false → TextsThere st.model) :
    readResourcesFaults reads st = false := by
  induction reads generalizing st with
  | nil => rfl
  | cons read rest ih =>
    rw [readResourcesFaults]
    split
    · rfl
    · rename_i hnone
      have htexts := hstart (Bool.eq_false_iff.2 hnone)
      have hstep : (resourceStep st read).err.error = false →
          TextsThere (resourceStep st read).model := fun h => resourceStep_texts h htexts
      rw [resourceStep, readStep] at hstep
      cases hstatus : read.status with
      | error => rfl
      | malformed =>
        simp only [hstatus] at hstep ⊢
        exact ih hstep
      | line text =>
        simp only [hstatus] at hstep ⊢
        have hline := @readResourceLine_compares lib hrecords text (st.raiseIf read.raised) htexts
        rw [hline, Bool.false_or]
        exact ih hstep

/-! ## Finalization -/

/-- A finalization that ends without an error. -/
theorem finalizeGeneric_compares (hfindings : NamesFindings lib) {st : State lib}
    (hnamed : SitesNamed st.model) (h : (finalizeGeneric st).err.error = false) :
    finalizeGenericFaults st = false := by
  cases hlifecycle : st.model.genericLifecycle with
  | none => exact finalizeGenericFaults_idle (Or.inl hlifecycle)
  | some lifecycle =>
    cases hfinalized : st.model.genericFinalized with
    | true => exact finalizeGenericFaults_idle (Or.inr hfinalized)
    | false =>
      rw [finalizeGenericFaults_runs hlifecycle hfinalized]
      rcases finalizeGeneric_runs hlifecycle hfinalized with
        ⟨hfailed, -⟩ | ⟨-, ⟨herror, heq⟩ | ⟨hok, -⟩⟩
      · rw [hfailed]
        rfl
      · rw [heq, herror] at h
        cases h
      · -- every name in the table is there, so no search comes to a null pointer
        have hstart : SitesNamed (loopStart lifecycle st).model := hnamed
        have hloop := finalizeFindingsFault_iff (hfindings _) (List.nil_append _).symm hstart hok
        have hnone (source : LifecycleFinding) : ¬SearchesNull source [] [] := by
          simp [SearchesNull, internSiteFaults, searchFaults]
        have hcompares : finalizeFindingsFault (lib.lifecycleFindingAt
            (lib.lifecycleFinish lifecycle st.err.allocations).value.1)
            (loopStart lifecycle st) = false := by
          rw [Bool.eq_false_iff, ne_eq, hloop]
          rintro ⟨source, -, hnull⟩
          exact hnone source hnull
        rw [hcompares, Bool.and_false]

theorem finishPending_sites (st : State lib) :
    (finishPending st.model.fds.items.length st).model.sites = st.model.sites :=
  congrArg Prod.fst (finishPending_keeps _ st)

/-- **Finalization.** A null pointer is compared only in a call that ends with an error. -/
theorem finalizeLeaks_compares (hfindings : NamesFindings lib) {st : State lib}
    (hnamed : SitesNamed st.model) (h : (finalizeLeaks st).err.error = false) :
    finalizeLeaksFaults st = false := by
  apply finalizeGeneric_compares hfindings _ h
  rw [SitesNamed, finishPending_sites]
  exact hnamed

/-! ## Without failed allocations -/

theorem growTable_calm {α : Type} (itemSize : Nat) (t : Table α) {err : ErrState}
    (hcalm : err.allocations = []) : (growTable lib itemSize t err).2.2.allocations = [] := by
  rw [growTable, growArrayInternal, ErrState.allocate, hcalm]
  split_ifs <;> exact hcalm

theorem dupText_calm (text : Option Text) {err : ErrState} (hcalm : err.allocations = []) :
    dupText text err = (some (text.getD (lit "")), err) := by
  rw [dupText, ErrState.allocate, hcalm]

/-- When no allocation fails an entry is added with its names or not at all. -/
theorem internSite_calm (fileName functionName : Option Text) (lineNumber : Int) {st : State lib}
    (hcalm : st.err.allocations = []) (hnamed : SitesNamed st.model) :
    SitesNamed (internSite fileName functionName lineNumber st).2.model := by
  have hgrown := @growTable_calm lib _ lib.sizeofSite st.model.sites st.err hcalm
  obtain ⟨table, err, hitems, hgrowth⟩ :=
    @growTable_cases lib _ lib.sizeofSite st.model.sites st.err
  rw [internSite]
  dsimp only
  split
  · exact hnamed
  · rcases hgrowth with ⟨hfull, -⟩ | ⟨hroom, -⟩
    · rw [hfull]
      dsimp only
      rw [SitesNamed, hitems]
      exact hnamed
    · rw [hroom] at hgrown ⊢
      dsimp only at hgrown ⊢
      rw [dupText_calm fileName hgrown]
      dsimp only
      rw [dupText_calm functionName hgrown, SitesNamed, Table.push, hitems]
      exact List.forall_mem_append.2 ⟨hnamed, by simp⟩

theorem finalizeFinding_compares_calm {source : LifecycleFinding} (hsource : source.named = true)
    {st : State lib} (hcalm : st.err.allocations = []) (hnamed : SitesNamed st.model) :
    finalizeFindingFaults source st = false := by
  simp only [LifecycleFinding.named, Bool.and_eq_true, Bool.or_eq_true, beq_iff_eq] at hsource
  obtain ⟨⟨⟨hclass, hfile⟩, hfunction⟩, hprevious⟩ := hsource
  rw [finalizeFindingFaults, internSiteFaults_of_named hfile hfunction _ hnamed,
    Option.isNone_eq_false_iff.2 hclass, Bool.false_or, Bool.false_or]
  rcases hprevious with hzero | ⟨hpreviousFile, hpreviousFunction⟩
  · rw [hzero]
    rfl
  · rw [internSiteFaults_of_named hpreviousFile hpreviousFunction _
      (internSite_calm _ _ _ hcalm hnamed), Bool.and_false]

/-- The loop goes on with a calm state whose sites have their names, or stops. -/
theorem finalizeFindings_compares_calm {sources : List (Option LifecycleFinding)} {st : State lib}
    (hsources : ∀ source ∈ readFindings sources, source.named = true)
    (hcalm : st.err.error = false → st.err.allocations = []) (hnamed : SitesNamed st.model) :
    finalizeFindingsFault sources st = false := by
  induction sources generalizing st with
  | nil => rfl
  | cons source rest ih =>
    cases source with
    | none => rfl
    | some source =>
      rw [finalizeFindingsFault]
      cases hstart : st.err.error with
      | true => rfl
      | false =>
        obtain ⟨hsource, hrest⟩ := List.forall_mem_cons.1 hsources
        have hallocations := hcalm hstart
        rw [finalizeFinding_compares_calm hsource hallocations hnamed, Bool.false_or,
          Bool.not_false, Bool.true_and]
        cases hstored : (finalizeFinding source st).err.error with
        | true => exact finalizeFindingsFault_stopped hstored rest
        | false =>
          have hstays := (finalizeFinding_transparent source).stays_calm
            (calm_of_allocations hallocations) (Bool.eq_false_iff.1 hstored)
          have hsites := finalizeFinding_searches hsource (List.nil_append _).symm hnamed hstored
          obtain ⟨-, added, hitems, hadded⟩ := hsites
          refine ih hrest (fun _ => allocations_of_calm hstays) ?_
          rw [SitesNamed, hitems]
          exact hadded

/-- **Finalization without failed allocations.** It compares no null pointer, also where it ends
with an error. -/
theorem finalizeLeaks_compares_calm (hlib : HonestLifecycle lib) (hfindings : NamesFindings lib)
    {st : State lib} (hcalm : st.err.error = false → st.err.allocations = [])
    (hnamed : SitesNamed st.model) : finalizeLeaksFaults st = false := by
  rw [finalizeLeaksFaults]
  have hsites : SitesNamed (finishPending st.model.fds.items.length st).model := by
    rw [SitesNamed, finishPending_sites]
    exact hnamed
  have hsettled : (finishPending st.model.fds.items.length st).err.error = false →
      (finishPending st.model.fds.items.length st).err.allocations = [] := by
    intro hok
    have hsteps := @finishPending_transparent lib st.model.fds.items.length
    obtain ⟨hstart, -⟩ := hsteps st (Bool.eq_false_iff.1 hok)
    exact allocations_of_calm (hsteps.stays_calm
      (calm_of_allocations (hcalm (Bool.eq_false_iff.2 hstart))) (Bool.eq_false_iff.1 hok))
  generalize finishPending st.model.fds.items.length st = settled at hsites hsettled ⊢
  cases hlifecycle : settled.model.genericLifecycle with
  | none => exact finalizeGenericFaults_idle (Or.inl hlifecycle)
  | some lifecycle =>
    cases hfinalized : settled.model.genericFinalized with
    | true => exact finalizeGenericFaults_idle (Or.inr hfinalized)
    | false =>
      rw [finalizeGenericFaults_runs hlifecycle hfinalized]
      have hfinish : (loopStart lifecycle settled).err.error = false →
          (loopStart lifecycle settled).err.allocations = [] := by
        intro hok
        obtain ⟨hstart, hraised⟩ := Bool.or_eq_false_iff.1 hok
        rw [loopStart, ErrState.after]
        rw [hsettled hstart] at hraised ⊢
        rw [hlib.finish lifecycle [] hraised]
      rw [finalizeFindings_compares_calm (hfindings _) hfinish hsites, Bool.and_false]

end P101Report
