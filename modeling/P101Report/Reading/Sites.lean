import P101Report.Lifetime.Parsed

/-!
# Interned sites and parsed records

The site table only grows, and an index that interning returns without an error denotes the file,
function and line it was given (`internSite_ok`). An event that the parser hands over is the record
itself, with a copy of each of its texts and the index of its site (`parseResourceLine_ok`).
-/

set_option autoImplicit false

namespace P101Report

variable {lib : ToolEventLib}

/-! ## The site table -/

/-- The entry that a file, a function and a line are interned as: `NULL` is stored as `""`. -/
def SourceSite.of (fileName functionName : Option Text) (lineNumber : Int) : SourceSite :=
  ⟨some (fileName.getD (lit "")), some (functionName.getD (lit "")), lineNumber⟩

/-- The site of a record. -/
def ToolEventRecord.site (record : ToolEventRecord) : SourceSite :=
  .of record.fileName record.functionName record.lineNumber

/-- Every entry of the site table has its names. -/
def SitesNamed (model : ReportModel lib) : Prop :=
  ∀ site ∈ model.sites.items, site.fileName.isSome = true ∧ site.functionName.isSome = true

/-- A later model: the site table has grown and has all its names. -/
structure SitesGrow (model model' : ReportModel lib) : Prop where
  named : SitesNamed model'
  grown : model.sites.items <+: model'.sites.items

theorem SitesGrow.refl {model : ReportModel lib} (h : SitesNamed model) : SitesGrow model model :=
  ⟨h, List.prefix_rfl⟩

theorem SitesGrow.trans {model model' model'' : ReportModel lib} (h : SitesGrow model model')
    (h' : SitesGrow model' model'') : SitesGrow model model'' :=
  ⟨h'.named, h.grown.trans h'.grown⟩

/-- A step that leaves the table alone. -/
theorem SitesGrow.of_eq {model model' : ReportModel lib} (h : SitesNamed model)
    (heq : model'.sites = model.sites) : SitesGrow model model' := by
  refine ⟨?_, by rw [heq]⟩
  rw [SitesNamed, heq]
  exact h

/-- An index of the table still denotes its site after the table has grown. -/
theorem getElem?_of_grown {sites sites' : List SourceSite} {index : Nat} {site : SourceSite}
    (h : sites <+: sites') (hget : sites[index]? = some site) : sites'[index]? = some site := by
  obtain ⟨added, rfl⟩ := h
  obtain ⟨hlt, -⟩ := List.getElem?_eq_some_iff.1 hget
  rw [List.getElem?_append_left hlt, hget]

/-- Interning writes the site table and consumes allocations, nothing else. -/
theorem internSite_frame (fileName functionName : Option Text) (lineNumber : Int)
    (st : State lib) :
    let st' := (internSite fileName functionName lineNumber st).2
    st'.model = { st.model with sites := st'.model.sites } := by
  dsimp only
  rw [internSite]
  dsimp only
  split
  · rfl
  · split <;> rfl

/-- **Interning.** Without an error the returned index denotes the site, whether it was in the table
or has been added behind the others. -/
theorem internSite_ok {fileName functionName : Option Text} {lineNumber : Int} {st : State lib}
    (hnamed : SitesNamed st.model)
    (h : (internSite fileName functionName lineNumber st).2.err.error = false) :
    let interned := internSite fileName functionName lineNumber st
    SitesGrow st.model interned.2.model ∧
      interned.2.model.sites.items[interned.1]? =
        some (.of fileName functionName lineNumber) := by
  dsimp only
  rw [internSite] at h ⊢
  dsimp only at h ⊢
  split
  · -- an equal entry: its names are the ones asked for
    rename_i index hknown
    refine ⟨.refl hnamed, ?_⟩
    obtain ⟨hlt, hsite, -⟩ := List.findIdx?_eq_some_iff_getElem.1 hknown
    obtain ⟨⟨hline, hfile⟩, hfunction⟩ := SourceSite.isAt_iff.1 hsite
    obtain ⟨hfileSome, hfunctionSome⟩ := hnamed _ (List.getElem_mem hlt)
    rw [hfile] at hfileSome
    rw [hfunction] at hfunctionSome
    obtain ⟨file, rfl⟩ := Option.isSome_iff_exists.1 hfileSome
    obtain ⟨function, rfl⟩ := Option.isSome_iff_exists.1 hfunctionSome
    rw [List.getElem?_eq_getElem hlt]
    simp only [SourceSite.of, Option.getD_some, Option.some.injEq]
    rw [← hfile, ← hfunction, ← hline]
  · rename_i hknown
    rw [hknown] at h
    dsimp only at h
    obtain ⟨table, err, hitems, ⟨hgrown, herror⟩ | ⟨hgrown, -⟩⟩ :=
      @growTable_cases lib _ lib.sizeofSite st.model.sites st.err
    · -- the table could not grow
      rw [hgrown] at h
      exact absurd h (by simp [herror])
    · rw [hgrown] at h ⊢
      dsimp only at h ⊢
      obtain ⟨hfile, hfunctionCopy⟩ := dupText_ok h
      obtain ⟨-, hfileCopy⟩ := dupText_ok hfile
      rw [hfileCopy, hfunctionCopy]
      refine ⟨⟨?_, ?_⟩, ?_⟩
      · intro site hsite
        simp only [Table.push_items, hitems, List.mem_append, List.mem_singleton] at hsite
        rcases hsite with hsite | rfl
        · exact hnamed site hsite
        · exact ⟨rfl, rfl⟩
      · simp only [Table.push_items, hitems]
        exact List.prefix_append _ _
      · simp only [Table.push_items, hitems, List.getElem?_concat_length]
        rfl

/-! ## Copies -/

theorem State.dup_value {text : Option Text} {st : State lib}
    (h : (st.dup text).2.err.error = false) :
    (st.dup text).1 = some (text.getD (lit "")) := (dupText_ok h).2

theorem State.recordSite_ok_site {record : ToolEventRecord} (st : State lib)
    (hnamed : SitesNamed st.model) (h : (st.recordSite record).2.err.error = false) :
    SitesGrow st.model (st.recordSite record).2.model ∧
      (st.recordSite record).2.model.sites.items[(st.recordSite record).1]? = some record.site :=
  internSite_ok hnamed h

/-! ## Records as events -/

/-- The event of a record: its metadata, the fields of its kind, a copy of each text, and the index
of its site. -/
def ResourceEvent.ofRecord (record : ToolEventRecord) (sequence site : Nat) : ResourceEvent :=
  let copy (text : Option Text) : Option Text := some (text.getD (lit ""))
  let event : ResourceEvent := { copyResourceMetadata record sequence with site }
  match record.recordKind with
  | .fd =>
    { event with
      kind := if record.fdKind = .opened then .fdOpen else .fdClose, fd := record.fd }
  | .alloc =>
    { event with
      kind := match record.allocKind with
        | .alloc => .alloc
        | .free => .free
        | .realloc => .realloc
      ptr := copy record.ptr
      newPtr := some (record.newPtr.getD dash)
      size := record.size }
  | .fork => { event with kind := .fork, childPid := record.childPid }
  | .spawn =>
    { event with kind := .spawn, childPid := record.childPid, target := copy record.target }
  | .exec =>
    { event with
      kind := .exec, fd := record.fd, cloexec := record.cloexec, target := copy record.target }
  | .execFail => { event with kind := .execFail, target := copy record.target }
  | .resource =>
    { event with
      kind := .generic
      genericKind := record.resourceKind
      resourceClass := copy record.resourceClass
      resourceId := copy record.resourceId
      relatedId := record.relatedId
      metadata := copy record.metadata
      size := record.size }
  | .call | .complete => event

@[simp] theorem ResourceEvent.ofRecord_sequence (record : ToolEventRecord) (sequence site : Nat) :
    (ResourceEvent.ofRecord record sequence site).sequence = sequence := by
  rw [ofRecord]
  cases record.recordKind <;> rfl

@[simp] theorem ResourceEvent.ofRecord_site (record : ToolEventRecord) (sequence site : Nat) :
    (ResourceEvent.ofRecord record sequence site).site = site := by
  rw [ofRecord]
  cases record.recordKind <;> rfl

@[simp] theorem ResourceEvent.ofRecord_eventSequence (record : ToolEventRecord)
    (sequence site : Nat) :
    (ResourceEvent.ofRecord record sequence site).eventSequence = record.sequence := by
  rw [ofRecord]
  cases record.recordKind <;> rfl

/-- Copying a record interns its site and copies its texts; the event is that of the record. -/
theorem copyRecord_ok {record : ToolEventRecord} {sequence : Nat} {st : State lib}
    (hkind : record.recordKind ≠ .call ∧ record.recordKind ≠ .complete)
    (hnamed : SitesNamed st.model)
    (h : (copyRecord record (copyResourceMetadata record sequence) st).2.err.error = false) :
    let copied := copyRecord record (copyResourceMetadata record sequence) st
    SitesGrow st.model copied.2.model ∧ ∃ site, copied.1 = .ofRecord record sequence site ∧
      copied.2.model.sites.items[site]? = some record.site := by
  dsimp only
  rw [copyRecord] at h ⊢
  cases hrecord : record.recordKind with
  | fd =>
    simp only [hrecord] at h ⊢
    obtain ⟨hgrow, hsite⟩ := State.recordSite_ok_site st hnamed h
    exact ⟨hgrow, _, by simp [ResourceEvent.ofRecord, hrecord], hsite⟩
  | alloc =>
    simp only [hrecord] at h ⊢
    have hnew := State.recordSite_ok h
    obtain ⟨hptr, -⟩ := State.dup_ok hnew
    obtain ⟨hgrow, hsite⟩ := State.recordSite_ok_site
      ((st.dup record.ptr).2.dup (some (record.newPtr.getD dash))).2 hnamed h
    refine ⟨hgrow, _, ?_, hsite⟩
    rw [State.dup_value hnew, State.dup_value hptr]
    cases halloc : record.allocKind <;>
      simp only [ResourceEvent.ofRecord, hrecord, halloc, Option.getD_some]
  | fork =>
    simp only [hrecord] at h ⊢
    obtain ⟨hgrow, hsite⟩ := State.recordSite_ok_site st hnamed h
    exact ⟨hgrow, _, by simp [ResourceEvent.ofRecord, hrecord], hsite⟩
  | spawn =>
    simp only [hrecord] at h ⊢
    have htarget := State.recordSite_ok h
    obtain ⟨hgrow, hsite⟩ := State.recordSite_ok_site (st.dup record.target).2 hnamed h
    refine ⟨hgrow, _, ?_, hsite⟩
    rw [State.dup_value htarget]
    simp [ResourceEvent.ofRecord, hrecord]
  | exec =>
    simp only [hrecord] at h ⊢
    have htarget := State.recordSite_ok h
    obtain ⟨hgrow, hsite⟩ := State.recordSite_ok_site (st.dup record.target).2 hnamed h
    refine ⟨hgrow, _, ?_, hsite⟩
    rw [State.dup_value htarget]
    simp [ResourceEvent.ofRecord, hrecord]
  | execFail =>
    simp only [hrecord] at h ⊢
    have htarget := State.recordSite_ok h
    obtain ⟨hgrow, hsite⟩ := State.recordSite_ok_site (st.dup record.target).2 hnamed h
    refine ⟨hgrow, _, ?_, hsite⟩
    rw [State.dup_value htarget]
    simp [ResourceEvent.ofRecord, hrecord]
  | resource =>
    simp only [hrecord] at h ⊢
    have hmetadata := State.recordSite_ok h
    obtain ⟨hrelated, -⟩ := State.dup_ok hmetadata
    -- the related identifier is copied only when the record has one
    cases hid : record.relatedId with
    | none =>
      simp only [hid] at h hmetadata hrelated ⊢
      obtain ⟨hclass, -⟩ := State.dup_ok hrelated
      obtain ⟨hgrow, hsite⟩ := State.recordSite_ok_site
        (((st.dup record.resourceClass).2.dup record.resourceId).2.dup record.metadata).2
        hnamed h
      refine ⟨hgrow, _, ?_, hsite⟩
      rw [State.dup_value hmetadata, State.dup_value hrelated, State.dup_value hclass]
      simp [ResourceEvent.ofRecord, hrecord, hid]
    | some id =>
      simp only [hid] at h hmetadata hrelated ⊢
      obtain ⟨hresource, -⟩ := State.dup_ok hrelated
      obtain ⟨hclass, -⟩ := State.dup_ok hresource
      obtain ⟨hgrow, hsite⟩ := State.recordSite_ok_site
        ((((st.dup record.resourceClass).2.dup record.resourceId).2.dup (some id)).2.dup
          record.metadata).2 hnamed h
      refine ⟨hgrow, _, ?_, hsite⟩
      rw [State.dup_value hmetadata, State.dup_value hrelated, State.dup_value hresource,
        State.dup_value hclass]
      simp [ResourceEvent.ofRecord, hrecord, hid]
  | call => exact absurd hrecord hkind.1
  | complete => exact absurd hrecord hkind.2

end P101Report
