import P101Report.Calls.ModelCalls
import P101Report.Reading.Preparation

/-!
# Interning is injective and stable

`InternRun` is a run in which sites are interned by names, without a failed allocation, between
steps that leave the site table alone. Over such a run the indices returned are equal exactly for
equal sites, and an index denotes its site from then on (`internRun_injective`), so that the exec
rollback compares sites when it compares their indices. A run of the program up to its output is
such a run (`internRun_prepareReport`).
-/

set_option autoImplicit false

namespace P101Report

variable {lib : ToolEventLib}

/-- A run of a model with the sites that have been interned in it, each with the index returned.
Every call of `p101_report_intern_site` is given an error object of its own, and both names, which
it compares with `strcmp`. -/
inductive InternRun : ReportModel lib → List (SourceSite × Nat) → ReportModel lib → Prop
  | done (model : ReportModel lib) : InternRun model [] model
  | intern {model model' : ReportModel lib} {err : ErrState} {fileName functionName : Text}
      {lineNumber : Int} {index : Nat} {st : State lib} {calls : List (SourceSite × Nat)}
      (hcall : internSite (some fileName) (some functionName) lineNumber ⟨model, err⟩ = (index, st))
      (hok : st.err.error = false) (rest : InternRun st.model calls model') :
      InternRun model ((⟨some fileName, some functionName, lineNumber⟩, index) :: calls) model'
  | other {model model' model'' : ReportModel lib} {calls : List (SourceSite × Nat)}
      (hsites : model'.sites = model.sites) (rest : InternRun model' calls model'') :
      InternRun model calls model''

/-! ## One call -/

/-- The sites are distinct and have their names. -/
structure SitesDistinct (model : ReportModel lib) : Prop where
  named : SitesNamed model
  distinct : model.sites.items.Nodup

/-- Without a failure, interning finds the site in the table or adds it behind the others. -/
theorem internSite_sites {model : ReportModel lib} {err : ErrState} {fileName functionName : Text}
    {lineNumber : Int} {index : Nat} {st : State lib}
    (hcall : internSite (some fileName) (some functionName) lineNumber ⟨model, err⟩ = (index, st))
    (hok : st.err.error = false) :
    st.model.sites.items = model.sites.items ∨
      let site : SourceSite := ⟨some fileName, some functionName, lineNumber⟩
      site ∉ model.sites.items ∧ st.model.sites.items = model.sites.items ++ [site] := by
  rw [internSite] at hcall
  dsimp only at hcall
  split at hcall
  · obtain ⟨-, rfl⟩ := Prod.mk.inj hcall
    exact Or.inl rfl
  · rename_i hunknown
    obtain ⟨table, err', hitems, ⟨hgrown, herror⟩ | ⟨hgrown, -⟩⟩ :=
      @growTable_cases lib _ lib.sizeofSite model.sites err
    · -- the table could not grow
      rw [hgrown] at hcall
      obtain ⟨-, rfl⟩ := Prod.mk.inj hcall
      exact absurd hok (by simp [herror])
    · rw [hgrown] at hcall
      obtain ⟨-, rfl⟩ := Prod.mk.inj hcall
      obtain ⟨hfile, hfunctionCopy⟩ := dupText_ok hok
      obtain ⟨-, hfileCopy⟩ := dupText_ok hfile
      -- both copies have succeeded, so the new entry is the site itself
      refine Or.inr ⟨?_, ?_⟩
      · intro hmem
        have hother := List.findIdx?_eq_none_iff.1 hunknown _ hmem
        rw [Bool.eq_false_iff] at hother
        exact hother (SourceSite.isAt_iff.2 ⟨⟨rfl, rfl⟩, rfl⟩)
      · simp only [Table.push_items, hitems]
        rw [hfileCopy, hfunctionCopy]
        rfl

theorem SitesDistinct.intern {model : ReportModel lib} (h : SitesDistinct model) {err : ErrState}
    {fileName functionName : Text} {lineNumber : Int} {index : Nat} {st : State lib}
    (hcall : internSite (some fileName) (some functionName) lineNumber ⟨model, err⟩ = (index, st))
    (hok : st.err.error = false) :
    SitesDistinct st.model ∧ model.sites.items <+: st.model.sites.items ∧
      st.model.sites.items[index]? = some ⟨some fileName, some functionName, lineNumber⟩ := by
  have hgrow : _ ∧ _ := @internSite_ok lib (some fileName) (some functionName) lineNumber
    ⟨model, err⟩ h.named (by rw [hcall]; exact hok)
  rw [hcall] at hgrow
  obtain ⟨hgrow, hget⟩ := hgrow
  refine ⟨⟨hgrow.named, ?_⟩, hgrow.grown, hget⟩
  rcases internSite_sites hcall hok with hsites | ⟨hnew, hsites⟩
  · rw [hsites]
    exact h.distinct
  · rw [hsites]
    exact h.distinct.append (List.nodup_singleton _) (by simpa using hnew)

/-! ## Runs -/

namespace InternRun

variable {model model' model'' : ReportModel lib} {calls later : List (SourceSite × Nat)}

theorem trans (h : InternRun model calls model') (h' : InternRun model' later model'') :
    InternRun model (calls ++ later) model'' := by
  induction h with
  | done => exact h'
  | intern hcall hok _ ih => exact .intern hcall hok (ih h')
  | other hsites _ ih => exact .other hsites (ih h')

/-- A step that leaves the table alone. -/
theorem of_sites (hsites : model'.sites = model.sites) : InternRun model [] model' :=
  .other hsites (.done model')

/-- The invariant of a run: the table grows, its sites stay distinct, and it has each site at the
index that was returned for it. -/
theorem sites (h : InternRun model calls model') (hstart : SitesDistinct model) :
    SitesDistinct model' ∧ model.sites.items <+: model'.sites.items ∧
      ∀ call ∈ calls, model'.sites.items[call.2]? = some call.1 := by
  induction h with
  | done => exact ⟨hstart, List.prefix_rfl, fun call hcall => absurd hcall List.not_mem_nil⟩
  | intern hcall hok _ ih =>
    -- the index returned denotes the site now, and the table only grows from here
    obtain ⟨hnext, hgrown, hget⟩ := hstart.intern hcall hok
    obtain ⟨hlast, hrest, hcalls⟩ := ih hnext
    refine ⟨hlast, hgrown.trans hrest, ?_⟩
    intro call hmem
    rcases List.mem_cons.1 hmem with rfl | hmem
    · exact getElem?_of_grown hrest hget
    · exact hcalls call hmem
  | @other model mid _ _ hsites _ ih =>
    have hnext : SitesDistinct mid := by
      refine ⟨?_, by rw [hsites]; exact hstart.distinct⟩
      rw [SitesNamed, hsites]
      exact hstart.named
    obtain ⟨hlast, hrest, hcalls⟩ := ih hnext
    rw [hsites] at hrest
    exact ⟨hlast, hrest, hcalls⟩

end InternRun

/-- **Injective and stable.** Over every run that begins with no site interned, two calls have
returned the same index exactly when they were given the same file, function and line; the sites of
the table are distinct, and each index denotes its site in every later state. For events with
these indices the exec rollback compares their sites. -/
theorem internRun_injective {model model' : ReportModel lib} {calls : List (SourceSite × Nat)}
    (hstart : model.sites.items = []) (hrun : InternRun model calls model') :
    (∀ call ∈ calls, ∀ other ∈ calls, call.2 = other.2 ↔ call.1 = other.1) ∧
      model'.sites.items.Nodup ∧
      (∀ call ∈ calls, ∀ (later : List (SourceSite × Nat)) (model'' : ReportModel lib),
        InternRun model' later model'' → model''.sites.items[call.2]? = some call.1) ∧
      ∀ call ∈ calls, ∀ other ∈ calls, ∀ candidate event : ResourceEvent,
        candidate.site = call.2 → event.site = other.2 →
        (execAttemptMatches candidate event = true ↔
          candidate.kind = .exec ∧ candidate.pid = event.pid ∧ call.1 = other.1 ∧
            candidate.target.isSome = true ∧ candidate.target = event.target) := by
  have hempty : SitesDistinct model := by
    refine ⟨?_, by rw [hstart]; exact List.nodup_nil⟩
    rw [SitesNamed, hstart]
    exact fun site hsite => absurd hsite List.not_mem_nil
  obtain ⟨hlast, -, hcalls⟩ := hrun.sites hempty
  have hinjective : ∀ call ∈ calls, ∀ other ∈ calls, call.2 = other.2 ↔ call.1 = other.1 := by
    intro call hcall other hother
    have hget := hcalls call hcall
    have hget' := hcalls other hother
    constructor
    · intro hindex
      rw [hindex, hget', Option.some.injEq] at hget
      exact hget.symm
    · intro hsite
      rw [← hsite] at hget'
      obtain ⟨hlt, heq⟩ := List.getElem?_eq_some_iff.1 hget
      -- distinct entries have one index each
      exact (List.getElem?_inj hlt hlast.distinct).1 (hget.trans hget'.symm)
  refine ⟨hinjective, hlast.distinct, ?_, ?_⟩
  · intro call hcall later model'' hlater
    exact getElem?_of_grown (hlater.sites hlast).2.1 (hcalls call hcall)
  · intro call hcall other hother candidate event hcandidate hevent
    simp only [execAttemptMatches, Bool.and_eq_true, beq_iff_eq, hcandidate, hevent,
      hinjective call hcall other hother]
    constructor
    · rintro ⟨⟨⟨⟨⟨hkind, hpid⟩, hsite⟩, htarget⟩, -⟩, heq⟩
      exact ⟨hkind, hpid, hsite, htarget, heq⟩
    · rintro ⟨hkind, hpid, hsite, htarget, heq⟩
      exact ⟨⟨⟨⟨⟨hkind, hpid⟩, hsite⟩, htarget⟩, heq ▸ htarget⟩, heq⟩

/-- A site of `main.c`. -/
def mainSite (lineNumber : Int) : SourceSite := ⟨some (lit "main.c"), some (lit "main"), lineNumber⟩

/-- Three calls, the last one for the site of the first. -/
def threeCalls : List (SourceSite × Nat) := [(mainSite 1, 0), (mainSite 2, 1), (mainSite 1, 0)]

/-- The model after these calls. -/
def threeCallsModel : ReportModel replayLib :=
  { ReportModel.zeroed replayLib () with sites := ⟨[mainSite 1, mainSite 2], 16⟩ }

theorem internRun_injective_repeated :
    (∀ call ∈ threeCalls, ∀ other ∈ threeCalls, call.2 = other.2 ↔ call.1 = other.1) ∧
      threeCallsModel.sites.items.Nodup ∧
      (∀ call ∈ threeCalls, ∀ (later : List (SourceSite × Nat)) (model'' : ReportModel replayLib),
        InternRun threeCallsModel later model'' →
          model''.sites.items[call.2]? = some call.1) ∧
      ∀ call ∈ threeCalls, ∀ other ∈ threeCalls, ∀ candidate event : ResourceEvent,
        candidate.site = call.2 → event.site = other.2 →
        (execAttemptMatches candidate event = true ↔
          candidate.kind = .exec ∧ candidate.pid = event.pid ∧ call.1 = other.1 ∧
            candidate.target.isSome = true ∧ candidate.target = event.target) := by
  let noError : ErrState := ⟨false, []⟩
  let first : State replayLib :=
    ⟨{ ReportModel.zeroed replayLib () with sites := ⟨[mainSite 1], 16⟩ }, noError⟩
  let last : State replayLib := ⟨threeCallsModel, noError⟩
  have hfirst : internSite (some (lit "main.c")) (some (lit "main")) 1
      ⟨ReportModel.zeroed replayLib (), noError⟩ = (0, first) := rfl
  have hsecond : internSite (some (lit "main.c")) (some (lit "main")) 2 first = (1, last) := rfl
  have hthird : internSite (some (lit "main.c")) (some (lit "main")) 1 last = (0, last) := rfl
  exact internRun_injective rfl
    (.intern hfirst rfl (.intern hsecond rfl (.intern hthird rfl (.done _))))

/-! ## What the program interns -/

/-- The texts by which a record or a finding of the library names its site are no null pointers. -/
structure NamesSites (lib : ToolEventLib) : Prop where
  record : ∀ line : List UInt8, (lib.parseLine line).2.fileName.isSome = true ∧
    (lib.parseLine line).2.functionName.isSome = true
  finding : ∀ (lifecycle : lib.Lifecycle), ∀ source ∈ lib.lifecycleFindings lifecycle,
    source.fileName.isSome = true ∧ source.functionName.isSome = true ∧
      (source.previousSequence ≠ 0 → source.previousFileName.isSome = true ∧
        source.previousFunctionName.isSome = true)

/-- A finding of the library with all the texts that the report compares. -/
def LifecycleFinding.named (source : LifecycleFinding) : Bool :=
  source.resourceClass.isSome && source.fileName.isSome && source.functionName.isSome &&
    (source.previousSequence == 0 ||
      source.previousFileName.isSome && source.previousFunctionName.isSome)

/-- The library gives every finding its class and the names of its sites. -/
def NamesFindings (lib : ToolEventLib) : Prop :=
  ∀ (lifecycle : lib.Lifecycle), ∀ source ∈ lib.lifecycleFindings lifecycle, source.named = true

/-- The sites interned between two models. -/
def Interns (model model' : ReportModel lib) : Prop := ∃ calls, InternRun model calls model'

theorem Interns.trans {model model' model'' : ReportModel lib} (h : Interns model model')
    (h' : Interns model' model'') : Interns model model'' := by
  obtain ⟨calls, hrun⟩ := h
  obtain ⟨later, hrun'⟩ := h'
  exact ⟨calls ++ later, hrun.trans hrun'⟩

theorem Interns.of_sites {model model' : ReportModel lib} (h : model'.sites = model.sites) :
    Interns model model' := ⟨[], .of_sites h⟩

/-- One call by names. -/
theorem internRun_internSite {fileName functionName : Option Text} {lineNumber : Int}
    {st : State lib} (hfile : fileName.isSome = true) (hfunction : functionName.isSome = true)
    (hok : (internSite fileName functionName lineNumber st).2.err.error = false) :
    InternRun st.model
      [(⟨fileName, functionName, lineNumber⟩, (internSite fileName functionName lineNumber st).1)]
      (internSite fileName functionName lineNumber st).2.model := by
  obtain ⟨file, rfl⟩ := Option.isSome_iff_exists.1 hfile
  obtain ⟨function, rfl⟩ := Option.isSome_iff_exists.1 hfunction
  exact .intern rfl hok (.done _)

/-- A resource line: an accepted one has interned the site of its record, and the event has the
index. -/
theorem internRun_parseResourceLine (hnames : NamesSites lib) {line : List UInt8} {sequence : Nat}
    {st : State lib} (hok : (parseResourceLine line sequence st).2.2.err.error = false) :
    let record := (lib.parseLine line).2
    let parsed := parseResourceLine line sequence st
    ∃ calls, InternRun st.model calls parsed.2.2.model ∧
      (parsed.1 = .ok → calls =
        [(⟨record.fileName, record.functionName, record.lineNumber⟩, parsed.2.1.site)]) := by
  obtain ⟨hoffered, -⟩ := ingestRunModel_frame (lib.parseLine line).2
    (st.observeResource (lib.parseLine line).2)
  dsimp only at hoffered ⊢
  have hsites : (ingestRunModel (lib.parseLine line).2
      (st.observeResource (lib.parseLine line).2)).2.model.sites = st.model.sites := by
    rw [hoffered]
    rfl
  obtain ⟨status, hne, heq⟩ | ⟨status, hne, heq⟩ | heq | ⟨hkind, heq⟩ :=
    parseResourceLine_cases line sequence st
  · rw [heq]
    exact ⟨[], .done _, fun h => absurd h hne⟩
  · rw [heq]
    exact ⟨[], .of_sites rfl, fun h => absurd h hne⟩
  · rw [heq]
    exact ⟨[], .of_sites hsites, fun h => by cases h⟩
  · rw [heq] at hok ⊢
    obtain ⟨st', hmodel, hcopied, hsite⟩ := copyRecord_interns
      (copyResourceMetadata (lib.parseLine line).2 sequence) _ hkind
    dsimp only at hok ⊢
    rw [hcopied] at hok ⊢
    have hrun := internRun_internSite (hnames.record line).1 (hnames.record line).2 hok
    rw [hmodel] at hrun
    exact ⟨_, (InternRun.of_sites hsites).trans hrun, fun _ => by rw [List.nil_append, hsite]; rfl⟩

theorem interns_countResource (status : LineStatus) (event : ResourceEvent) (st : State lib) :
    Interns st.model (countResource status event st).model := by
  cases status with
  | ok => exact .of_sites (ingestResource_frame _ event).1
  | complete | other | malformed | badVersion => exact .of_sites rfl

theorem interns_resourceStep (hnames : NamesSites lib) {st : State lib} (read : LineRead)
    (hok : (resourceStep st read).err.error = false) :
    Interns st.model (resourceStep st read).model := by
  rw [resourceStep, readStep] at hok ⊢
  cases hstatus : read.status with
  | error => exact .of_sites rfl
  | malformed => exact .of_sites rfl
  | line text =>
    simp only [hstatus, readResourceLine] at hok ⊢
    obtain ⟨calls, hparsed, -⟩ :=
      internRun_parseResourceLine hnames (countResource_sticky _ _ _ hok)
    have hread : Interns st.model _ := ⟨calls, hparsed⟩
    exact hread.trans (interns_countResource _ _ _)

/-- The call reader interns no site. -/
theorem callStep_sites (st : State lib) (read : LineRead) :
    (callStep st read).model.sites = st.model.sites := by
  have hcount (status : LineStatus) (event : CallEvent) (st : State lib) :
      (countCall status event st).model.sites = st.model.sites := by
    cases status with
    | ok =>
      rw [countCall, addCall]
      split <;> rfl
    | complete | other | malformed | badVersion => rfl
  rw [callStep, readStep]
  cases hstatus : read.status with
  | error => rfl
  | malformed => rfl
  | line text =>
    simp only [readCallLine, hcount]
    rw [(parseCallLine_ok text _ _).1]
    rfl

/-- A run of steps that end without an error. -/
theorem interns_foldl {step : State lib → LineRead → State lib}
    (hsticky : ∀ read, Sticky fun st => step st read)
    (hstep : ∀ {st : State lib} (read : LineRead), (step st read).err.error = false →
      Interns st.model (step st read).model)
    {reads : List LineRead} {st : State lib} (hok : (reads.foldl step st).err.error = false) :
    Interns st.model (reads.foldl step st).model := by
  induction reads generalizing st with
  | nil => exact .of_sites rfl
  | cons read rest ih =>
    have hrest : (rest.foldl step (step st read)).err.error = false := hok
    have hlater := (everyStep_of_ok hsticky hrest).1
    exact (hstep read hlater).trans (ih hok)

theorem interns_finalizeFinding {source : LifecycleFinding} {st : State lib}
    (hfile : source.fileName.isSome = true) (hfunction : source.functionName.isSome = true)
    (hprevious : source.previousSequence ≠ 0 → source.previousFileName.isSome = true ∧
      source.previousFunctionName.isSome = true)
    (hok : (finalizeFinding source st).err.error = false) :
    Interns st.model (finalizeFinding source st).model := by
  rw [finalizeFinding] at hok ⊢
  dsimp only at hok ⊢
  by_cases hsequence : source.previousSequence ≠ 0
  · rw [if_pos hsequence] at hok ⊢
    obtain ⟨hpreviousOk, hsites, -⟩ := addFindingInternal_sites hok
    have hsiteOk := (internSite_tables _ _ _ _).2 hpreviousOk
    have hsite := internRun_internSite hfile hfunction hsiteOk
    have hrun := hsite.trans (internRun_internSite (hprevious hsequence).1 (hprevious hsequence).2
      hpreviousOk)
    exact ⟨_, hrun.trans (.of_sites hsites)⟩
  · rw [if_neg hsequence] at hok ⊢
    obtain ⟨hsiteOk, hsites, -⟩ := addFindingInternal_sites hok
    have hsite := internRun_internSite hfile hfunction hsiteOk
    exact ⟨_, hsite.trans (.of_sites hsites)⟩

theorem interns_finalizeFindings (hnames : NamesSites lib) {lifecycle : lib.Lifecycle}
    {sources : List (Option LifecycleFinding)} {st : State lib}
    (hsources : ∀ source ∈ readFindings sources, source ∈ lib.lifecycleFindings lifecycle)
    (hok : (finalizeFindings sources st).err.error = false) :
    Interns st.model (finalizeFindings sources st).model := by
  induction sources generalizing st with
  | nil => exact .of_sites rfl
  | cons source rest ih =>
    cases source with
    | none => exact absurd (finalizeFindings_null rest st) (by simp [hok])
    | some source =>
      obtain ⟨hsource, hrest⟩ := List.forall_mem_cons.1 hsources
      obtain ⟨hfile, hfunction, hprevious⟩ := hnames.finding lifecycle source hsource
      have hstart := finalizeFindings_ok hok
      rw [finalizeFindings_some hstart] at hok ⊢
      have hstep := interns_finalizeFinding hfile hfunction hprevious (finalizeFindings_ok hok)
      exact hstep.trans (ih hrest hok)

theorem interns_finalizeGeneric (hnames : NamesSites lib) {st : State lib}
    (hok : (finalizeGeneric st).err.error = false) :
    Interns st.model (finalizeGeneric st).model := by
  rcases finalizeGeneric_cases st with
    ⟨-, heq⟩ | ⟨lifecycle, ⟨-, heq⟩ | ⟨-, ⟨herror, heq⟩ | ⟨hloopOk, heq⟩⟩⟩
  · rw [heq]
    exact .of_sites rfl
  · rw [heq]
    exact .of_sites rfl
  · rw [heq, herror] at hok
    cases hok
  · -- only the library's state has changed when the loop starts
    have hstart : Interns st.model (loopStart lifecycle st).model := .of_sites rfl
    have hloop := hstart.trans
      (interns_finalizeFindings hnames (fun _ hsource => hsource) hloopOk)
    rw [heq]
    exact hloop.trans (.of_sites rfl)

theorem interns_finalizeLeaks (hnames : NamesSites lib) {st : State lib}
    (hok : (finalizeLeaks st).err.error = false) : Interns st.model (finalizeLeaks st).model := by
  have hsettled : Interns st.model (finishPending st.model.fds.items.length st).model :=
    .of_sites (congrArg Prod.fst (finishPending_keeps _ st))
  exact hsettled.trans (interns_finalizeGeneric hnames hok)

/-- **The program.** Up to its output, a run without an error interns sites one after another. -/
theorem internRun_prepareReport (hnames : NamesSites lib) {run : RunModelLib lib}
    {args : RunArguments} {input : RunInput lib} {st : State lib}
    (h : prepareReport run args input = .ok st) :
    ∃ calls, InternRun (ReportModel.zeroed lib input.health) calls st.model := by
  obtain ⟨hread, hok, runModel, err, rfl⟩ := prepareReport_ok h
  rw [readLogs] at hread hok
  obtain ⟨hresourcesOk, hcallsEq⟩ := readCalls_ok hread
  obtain ⟨-, hresourcesEq⟩ := readResources_ok hresourcesOk
  have hcreated : Interns (ReportModel.zeroed lib input.health) (createModel run input).model :=
    .of_sites rfl
  have hresources := hcreated.trans (interns_foldl resourceStep_sticky
    (interns_resourceStep hnames) (hresourcesEq ▸ hresourcesOk))
  rw [← hresourcesEq] at hresources
  have hcalls := hresources.trans (interns_foldl callStep_sticky
    (fun read _ => .of_sites (callStep_sites _ read)) (hcallsEq ▸ hread))
  rw [← hcallsEq] at hcalls
  have hfinished : Interns _ { (readLogs run args input).model with runModel } :=
    hcalls.trans (.of_sites rfl)
  exact hfinished.trans (interns_finalizeLeaks hnames hok)

end P101Report
