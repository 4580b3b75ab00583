import P101Report.Memory.Representation
import P101Report.Replay.Interleaving

/-!
# Sites, findings and lifecycle findings in memory

The functions of `src/model_support.c` and `src/model_generic.c` do on a memory what they do on the
state it represents (`internSite_represents`, `addFindingInternal_represents`,
`finalizeGeneric_represents`). What is copied halfway when an allocation fails is freed, and the
heap only grows while sites and findings are added.
-/

set_option autoImplicit false

namespace P101Report

open Ownership

variable {lib : ToolEventLib} {α : Type}

section

variable {own : Multiset α} {m m' m'' : Memory lib α} {st st' : State lib}

/-- After a function the memory represents the state after it, and what the caller owns has not
changed. -/
structure Follows (own : Multiset α) (m m' : Memory lib α) (st : State lib) : Prop where
  represents : Represents own m' st
  content : ∀ a ∈ own, m'.heap.content a = m.heap.content a

theorem Follows.refl (h : Represents own m st) : Follows own m m st := ⟨h, fun _ _ => rfl⟩

/-- One function after the other. -/
theorem Follows.trans (h : Follows own m m' st) (h' : Follows own m' m'' st') :
    Follows own m m'' st' where
  represents := h'.represents
  content a ha := (h'.content a ha).trans (h.content a ha)

/-- A heap that only grows keeps what the caller owns. -/
theorem Follows.of_extends (h : Represents own m st) (hext : m.heap.Extends m'.heap)
    (hnext : Represents own m' st') : Follows own m m' st' where
  represents := hnext
  content a ha := hext.content a (h.mem_live.2 (Or.inr ha))

/-- What has been copied since is freed again. -/
theorem Follows.freeAll [DecidableEq α] {ps : List (Option α)} (h : Represents own m st)
    (hext : m.heap.Extends m'.heap) (hnext : Represents (blocks ps + own) m' st') :
    Follows own m (m'.freeAll ps) st' where
  represents := hnext.freeAll
  content a ha := by
    rw [← hext.content a (h.mem_live.2 (Or.inr ha))]
    exact congrFun (Heap.freeAll_content ps m'.heap) a

/-- A function of the model that touches no text. -/
theorem Follows.step {f : State lib → State lib} (hf : KeepsTexts f) (h : Represents own m st) :
    Follows own m (m.step f) (f st) := ⟨h.step hf, fun _ _ => rfl⟩

/-- The error flag of the memory decides as that of the state. -/
theorem Represents.error_iff (h : Represents own m st) :
    m.rest.err.error = true ↔ st.err.error = true := by
  rw [h.err]

/-- Both sides take the same branch. -/
theorem Follows.ite {c c' : Prop} [Decidable c] [Decidable c'] (hc : c ↔ c')
    {m₁ m₂ : Memory lib α} {st₁ st₂ : State lib} (hthen : c → Follows own m m₁ st₁)
    (helse : ¬ c → Follows own m m₂ st₂) :
    Follows own m (if c then m₁ else m₂) (if c' then st₁ else st₂) := by
  by_cases h : c
  · rw [if_pos h, if_pos (hc.1 h)]
    exact hthen h
  · rw [if_neg h, if_neg fun h' => h (hc.2 h')]
    exact helse h

end

variable [DecidableEq α] {own : Multiset α} {m m' : Memory lib α} {st : State lib}

/-! ## Sites -/

/-- **Interning.** The new site owns its copies, also when one of them is missing. -/
theorem internSite_represents (h : Represents own m st) {fileName functionName : Option Text}
    {lineNumber : Int} {index : Nat}
    (hintern : m.internSite fileName functionName lineNumber = (index, m')) :
    ∃ st', internSite fileName functionName lineNumber st = (index, st') ∧
      m.heap.Extends m'.heap ∧ Represents own m' st' := by
  have htouch : m.touch (m.sites.items.flatMap SiteCell.pointers) = m :=
    h.touch fun a ha => Or.inl ((siteSlot lib α).mem_owned rfl ha)
  obtain rfl := h.state
  -- both searches compare the same texts
  have hknown : m.state.model.sites.items.findIdx?
        (SourceSite.isAt fileName functionName lineNumber) =
      m.sites.items.findIdx? fun site =>
        site.lineNumber == lineNumber && site.fileName.map m.heap.content == fileName &&
          site.functionName.map m.heap.content == functionName := by
    have hsites : m.state.model.sites.items =
        m.sites.items.map (SiteCell.read m.heap.content) := rfl
    rw [hsites, List.findIdx?_map]
    rfl
  simp only [Memory.internSite, htouch] at hintern
  simp only [internSite, hknown]
  cases hfound : m.sites.items.findIdx? fun site =>
      site.lineNumber == lineNumber && site.fileName.map m.heap.content == fileName &&
        site.functionName.map m.heap.content == functionName with
  | some known =>
    simp only [hfound, Prod.mk.injEq] at hintern
    obtain ⟨rfl, rfl⟩ := hintern
    exact ⟨m.state, rfl, .refl _, h⟩
  | none =>
    simp only [hfound] at hintern
    rcases hgrow : growTable lib lib.sizeofSite m.sites m.rest.err with ⟨grown, sites, err⟩
    obtain ⟨hvalue, hrep⟩ := h.grow (siteSlot lib α) hgrow
    have hvalue' : growTable lib lib.sizeofSite m.state.model.sites m.state.err = _ := hvalue
    cases grown with
    | false =>
      simp only [hgrow, Prod.mk.injEq] at hintern
      obtain ⟨rfl, rfl⟩ := hintern
      refine ⟨_, ?_, .refl _, hrep⟩
      rw [hvalue']
      rfl
    | true =>
      -- a site keeps its copies, also when one of them could not be made
      simp only [hgrow] at hintern
      rcases hfile : ({ m.setErr err with sites } : Memory lib α).dupText (.outside fileName) with
        ⟨fileCopy, m₁⟩
      rcases hfunction : m₁.dupText (.outside functionName) with ⟨functionCopy, m₂⟩
      simp only [hfile, hfunction, Prod.mk.injEq] at hintern
      obtain ⟨rfl, rfl⟩ := hintern
      obtain ⟨c₁, err₁, hc₁, h₁⟩ :=
        (Copied.nil hrep).dupText (CharPtr.reads_outside _ fileName) hfile
      obtain ⟨c₂, err₂, hc₂, h₂⟩ := h₁.dupText (CharPtr.reads_outside _ functionName) hfunction
      have hcopies : [fileCopy.map m₂.heap.content, functionCopy.map m₂.heap.content] = [c₁, c₂] :=
        h₂.values
      simp only [List.cons.injEq, and_true] at hcopies
      refine ⟨_, ?_, h₂.grows, Represents.push (siteSlot lib α) rfl
        ⟨fileCopy, functionCopy, lineNumber⟩ h₂.represents trivial⟩
      rw [hvalue']
      simp only [hc₁, hc₂, ← hcopies.1, ← hcopies.2, growTable_items_eq hgrow,
        Prod.mk.injEq]
      exact ⟨List.length_map .., rfl⟩

/-! ## Findings -/

/-- What the finding of an argument reads, and that it may be read. -/
structure Memory.FindingArgument.Reads (heap : Heap α Text) (finding : Memory.FindingArgument α)
    (value : Finding) : Prop where
  ptr : finding.ptr.Reads heap value.ptr
  resourceClass : finding.resourceClass.Reads heap value.resourceClass
  resourceId : finding.resourceId.Reads heap value.resourceId
  fields : { finding.fields with
    ptr := value.ptr, resourceClass := value.resourceClass, resourceId := value.resourceId } = value

/-- The argument for the finding of an exec has no resource class and no resource id. -/
def Memory.FindingArgument.Valid (finding : Memory.FindingArgument α) : Prop :=
  finding.fields.kind = .execInherit →
    finding.resourceClass.isNull = true ∧ finding.resourceId.isNull = true

/-- No copy is made of `NULL`. -/
theorem Memory.dupField_of_isNull {text : CharPtr α} (hnull : text.isNull = true) {p : Option α}
    (hdup : m.dupField text = (p, m')) : p = none := by
  rw [Memory.dupField, if_pos hnull] at hdup
  exact (Prod.mk.inj hdup).1.symm

/-- **A finding** that is stored owns its copies, and one that is not has them freed. -/
theorem addFindingInternal_represents (h : Represents own m st)
    {finding : Memory.FindingArgument α} {value : Finding} (hreads : finding.Reads m.heap value)
    (hvalid : finding.Valid) :
    Follows own m (m.addFindingInternal finding) (addFindingInternal value st) := by
  rcases hgrow : growTable lib lib.sizeofFinding m.findings m.rest.err with ⟨grown, findings, err⟩
  obtain ⟨hvalue, hrep⟩ := h.grow (findingSlot lib α) hgrow
  have hvalue' : growTable lib lib.sizeofFinding st.model.findings st.err = _ := hvalue
  cases grown with
  | false =>
    simp only [Memory.addFindingInternal, hgrow, addFindingInternal, hvalue']
    exact .of_extends h (.refl _) hrep
  | true =>
    rcases hptr : ({ m.setErr err with findings } : Memory lib α).dupField finding.ptr with ⟨p₁, m₁⟩
    rcases hclass : m₁.dupField finding.resourceClass with ⟨p₂, m₂⟩
    rcases hid : m₂.dupField finding.resourceId with ⟨p₃, m₃⟩
    obtain ⟨c₁, err₁, hc₁, h₁⟩ := (Copied.nil hrep).dupField hreads.ptr hptr
    obtain ⟨c₂, err₂, hc₂, h₂⟩ := h₁.dupField hreads.resourceClass hclass
    obtain ⟨c₃, err₃, hc₃, h₃⟩ := h₂.dupField hreads.resourceId hid
    have hcopies : [p₁.map m₃.heap.content, p₂.map m₃.heap.content, p₃.map m₃.heap.content] =
        [c₁, c₂, c₃] := h₃.values
    simp only [List.cons.injEq, and_true] at hcopies
    have herr : m₃.rest.err = err₃ := h₃.represents.err
    simp only [Memory.addFindingInternal, hgrow, hptr, hclass, hid, herr, addFindingInternal,
      hvalue', hc₁, hc₂, hc₃]
    split
    · exact .freeAll h h₃.grows h₃.represents
    · -- the table takes the copies over
      have hcell : ({ fields := finding.fields, ptr := p₁, resourceClass := p₂, resourceId := p₃ } :
          FindingCell α).Valid := by
        intro hkind
        obtain ⟨hnoClass, hnoId⟩ := hvalid hkind
        exact ⟨Memory.dupField_of_isNull hnoClass hclass, Memory.dupField_of_isNull hnoId hid⟩
      have hread : (findingSlot lib α).layout.value m₃.heap.content
            { fields := finding.fields, ptr := p₁, resourceClass := p₂, resourceId := p₃ } =
          { value with ptr := c₁, resourceClass := c₂, resourceId := c₃ } := by
        rw [← hreads.fields, ← hcopies.1, ← hcopies.2.1, ← hcopies.2.2]
        rfl
      have hpush := Represents.push (findingSlot lib α) rfl _ h₃.represents hcell
      rw [hread] at hpush
      exact .of_extends h h₃.grows hpush

/-! ## Calls -/

omit [DecidableEq α] in
/-- **A stored call takes its texts over**, and a call that finds no room leaves them with the
caller. -/
theorem addCall_represents {event : CallCell α} {value : CallEvent}
    (h : Represents (blocks event.pointers + own) m st)
    (hread : event.read m.heap.content = value) :
    let stored := addCall value st
    (stored.model.calls.items.length = st.model.calls.items.length + 1 ∧
        Represents own (m.addCall event) stored) ∨
      (stored.model.calls.items.length = st.model.calls.items.length ∧ stored.err.error = true ∧
        Represents (blocks event.pointers + own) (m.addCall event) stored) := by
  subst hread
  intro stored
  rcases hgrow : growTable lib lib.sizeofCallEvent m.calls m.rest.err with ⟨grown, calls, err⟩
  obtain ⟨hvalue, hrep⟩ := h.grow (callSlot lib α) hgrow
  have hvalue' : growTable lib lib.sizeofCallEvent st.model.calls st.err = _ := hvalue
  cases grown with
  | false =>
    obtain ⟨err', hfailed, herror⟩ := growTable_failed (congrArg Prod.fst hvalue')
    obtain ⟨htable, rfl⟩ := Prod.mk.inj (Prod.mk.inj (hvalue'.symm.trans hfailed)).2
    have hstored : stored = ⟨{ st.model with calls := st.model.calls }, err⟩ := by
      simp only [stored, addCall, hfailed]
    rw [hstored]
    refine Or.inr ⟨rfl, herror, ?_⟩
    simp only [Memory.addCall, hgrow]
    rw [htable] at hrep
    exact hrep
  | true =>
    have hpush := Represents.push (callSlot lib α) rfl event hrep trivial
    simp only [stored, addCall, hvalue', Memory.addCall, hgrow]
    refine Or.inl ⟨?_, hpush⟩
    rw [Table.push_items, List.length_append, growTable_items_eq hvalue']
    rfl

/-! ## The lifecycle library -/

/-- The running function owns the texts of an event, which stands for the value. -/
structure EventCell.HeldBy (own : Multiset α) (m : Memory lib α) (event : EventCell α)
    (value : ResourceEvent) : Prop where
  owned : ∀ a ∈ blocks event.pointers, a ∈ own
  read : event.read m.heap.content = value

omit [DecidableEq α] in
/-- The texts of an event outlast what the running function calls. -/
theorem EventCell.HeldBy.follows {event : EventCell α} {value : ResourceEvent}
    (h : event.HeldBy own m value) (hnext : Follows own m m' st) : event.HeldBy own m' value where
  owned := h.owned
  read := by
    rw [← h.read]
    exact eventLayout.value_congr fun a ha => hnext.content a (h.owned a ha)

theorem keepsTexts_ingestGeneric (event : ResourceEvent) :
    KeepsTexts (ingestGeneric event : State lib → State lib) := by
  intro st
  rw [ingestGeneric]
  dsimp only
  split <;> rfl

/-- Forwarding reads texts of the event and of its site, which are all live. -/
theorem ingestGeneric_represents (h : Represents own m st) {event : EventCell α}
    {value : ResourceEvent} (hevent : event.HeldBy own m value) :
    Follows own m (m.ingestGeneric event) (ingestGeneric value st) := by
  have htouch : m.touch (event.pointers ++
      (m.sites.items[event.fields.site]?.map SiteCell.pointers).getD []) = m := by
    apply h.touch
    intro a ha
    rw [blocks_append, Multiset.mem_add] at ha
    rcases ha with hmine | hsite
    · exact Or.inr (hevent.owned a hmine)
    · cases hget : m.sites.items[event.fields.site]? with
      | none =>
        rw [hget] at hsite
        exact absurd hsite (Multiset.notMem_zero _)
      | some site =>
        rw [hget] at hsite
        exact Or.inl ((siteSlot lib α).mem_owned rfl
          (siteLayout.mem_owned (List.mem_of_getElem? hget) hsite))
  simp only [Memory.ingestGeneric, htouch, hevent.read]
  exact .step (keepsTexts_ingestGeneric value) h

/-- The search compares the classes of stored events, which are live. -/
theorem findGenericSequence_represents (h : Represents own m st) {source : LifecycleFinding}
    {previous : Bool} {sequence : Nat}
    (hfind : m.findGenericSequence source previous = (sequence, m')) :
    m' = m ∧ sequence = findGenericSequence st.model.resources.items source previous := by
  have htouch : m.touch (m.resources.items.map EventCell.resourceClass) = m := by
    apply h.touch
    intro a ha
    refine Or.inl ((resourceSlot lib α).mem_owned_column rfl (fun event => ?_) ha)
    simp [resourceSlot, eventLayout, EventCell.pointers]
  simp only [Memory.findGenericSequence, htouch, Prod.mk.injEq] at hfind
  obtain ⟨rfl, rfl⟩ := hfind
  rw [← h.state]
  exact ⟨rfl, rfl⟩

omit [DecidableEq α] in
/-- The event of a lifecycle finding is a stored one. -/
theorem findLifecycleEvent_represents (h : Represents own m st) (source : LifecycleFinding) :
    findLifecycleEvent st.model.resources.items source =
      (m.findLifecycleEvent source).map (EventCell.read m.heap.content) := by
  have hresources : st.model.resources.items =
      m.resources.items.map (EventCell.read m.heap.content) := by
    rw [← h.state]
    rfl
  rw [findLifecycleEvent, hresources, List.find?_map]
  rfl

omit [DecidableEq α] in
/-- What the argument for a lifecycle finding reads, also from a heap that has grown since the
event was found. -/
theorem genericArgument_reads (h : Represents own m st) (source : LifecycleFinding)
    {heap : Heap α Text} (hext : m.heap.Extends heap) (fields : Finding) :
    (Memory.genericArgument source (m.findLifecycleEvent source) fields).Reads heap
      { fields with
        ptr := ((m.findLifecycleEvent source).bind EventCell.ptr).map m.heap.content
        resourceClass := source.resourceClass, resourceId := source.resourceId } := by
  refine ⟨?_, CharPtr.reads_outside _ _, CharPtr.reads_outside _ _, rfl⟩
  apply CharPtr.Reads.extends _ hext
  refine ⟨fun a ha => ?_, rfl⟩
  rw [Memory.genericArgument, CharPtr.pointers, mem_blocks, List.mem_singleton] at ha
  obtain ⟨event, hget, hptr⟩ := Option.bind_eq_some_iff.1 ha.symm
  apply h.mem_live.2
  refine Or.inl ((resourceSlot lib α).mem_owned rfl
    (eventLayout.mem_owned (List.mem_of_find?_eq_some hget) (mem_blocks.2 ?_)))
  simp [eventLayout, EventCell.pointers, hptr]

/-- **A lifecycle finding.** Between its two sites the pointer text of the event stays live. -/
theorem finalizeFinding_represents (h : Represents own m st) (source : LifecycleFinding) :
    Follows own m (m.finalizeFinding source) (finalizeFinding source st) := by
  rcases hsite : m.internSite source.fileName source.functionName source.lineNumber with
    ⟨site, m₁⟩
  obtain ⟨st₁, hsite', hext₁, h₁⟩ := internSite_represents h hsite
  rcases hsequence : m₁.findGenericSequence source false with ⟨sequence, m₁'⟩
  obtain ⟨rfl, rfl⟩ := findGenericSequence_represents h₁ hsequence
  have hfound := findLifecycleEvent_represents h₁ source
  have hstart : Follows own m m₁' st₁ := .of_extends h hext₁ h₁
  have hvalid : ∀ fields : Finding, fields.kind = genericFindingKind source →
      (Memory.genericArgument source (m₁'.findLifecycleEvent source) fields).Valid :=
    fun fields hfields hexec =>
      absurd (hfields.symm.trans hexec) (genericFindingKind_ne_execInherit source)
  simp only [Memory.finalizeFinding, hsite, hsequence, finalizeFinding, hsite', hfound]
  -- the pointer of the event was read before the second site is interned: the heap only grows
  by_cases hprevious : source.previousSequence ≠ 0
  · rcases hagain : m₁'.internSite source.previousFileName source.previousFunctionName
      source.previousLineNumber with ⟨previousSite, m₂⟩
    obtain ⟨st₂, hagain', hext₂, h₂⟩ := internSite_represents h₁ hagain
    rcases hsequence₂ : m₂.findGenericSequence source true with ⟨previousSequence, m₂'⟩
    obtain ⟨rfl, rfl⟩ := findGenericSequence_represents h₂ hsequence₂
    have hmiddle : Follows own m₁' m₂' st₂ := .of_extends h₁ hext₂ h₂
    simp only [if_pos hprevious, hagain']
    have hadd := fun fields hfields => addFindingInternal_represents h₂
      (genericArgument_reads h₁ source hext₂ fields) (hvalid fields hfields)
    apply (hstart.trans hmiddle).trans
    cases hcell : m₁'.findLifecycleEvent source with
    | none =>
      rw [hcell] at hadd
      exact hadd _ rfl
    | some event =>
      rw [hcell] at hadd
      exact hadd _ rfl
  · simp only [if_neg hprevious]
    have hadd := fun fields hfields => addFindingInternal_represents h₁
      (genericArgument_reads h₁ source (.refl _) fields) (hvalid fields hfields)
    apply hstart.trans
    cases hcell : m₁'.findLifecycleEvent source with
    | none =>
      rw [hcell] at hadd
      exact hadd _ rfl
    | some event =>
      rw [hcell] at hadd
      exact hadd _ rfl

/-- The loop, up to its first error. -/
theorem finalizeFindings_represents (h : Represents own m st)
    (sources : List (Option LifecycleFinding)) :
    Follows own m (m.finalizeFindings sources) (finalizeFindings sources st) := by
  induction sources generalizing m st with
  | nil => exact .refl h
  | cons source rest ih =>
    cases source with
    | none =>
      simp only [Memory.finalizeFindings, finalizeFindings, h.err]
      split
      · exact .refl h
      · exact .step (fun _ => rfl) h
    | some source =>
      simp only [Memory.finalizeFindings, finalizeFindings, h.err]
      split
      · exact .refl h
      · have hone := finalizeFinding_represents h source
        exact hone.trans (ih hone.represents)

theorem finalizeGeneric_represents (h : Represents own m st) :
    Follows own m m.finalizeGeneric (finalizeGeneric st) := by
  -- the library object is outside the heap, and the same on both sides
  obtain rfl := h.state
  have hsame : m.state.model.genericLifecycle = m.rest.model.genericLifecycle := rfl
  have hdone : m.state.model.genericFinalized = m.rest.model.genericFinalized := rfl
  have herr : m.state.err = m.rest.err := rfl
  simp only [Memory.finalizeGeneric, finalizeGeneric, hsame, hdone, herr]
  cases m.rest.model.genericLifecycle with
  | none => exact .refl h
  | some lifecycle =>
    dsimp only
    split
    · exact .refl h
    · rcases hfinish : (lib.lifecycleFinish lifecycle m.rest.err.allocations).value with
        ⟨finished, failed⟩
      have hstep := Follows.step (f := fun st : State lib =>
        { model := { st.model with genericLifecycle := some finished }
          err := st.err.after (lib.lifecycleFinish lifecycle m.rest.err.allocations) })
        (fun _ => rfl) h
      have hadd := finalizeFindings_represents hstep.represents (lib.lifecycleFindingAt finished)
      have hnext := hstep.trans hadd
      simp only [hfinish]
      refine .ite Iff.rfl (fun _ => hstep) fun _ => .ite hnext.represents.error_iff
        (fun _ => hnext) fun _ => ?_
      exact hnext.trans (.step (fun _ => rfl) hnext.represents)

end P101Report
