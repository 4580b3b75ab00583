import P101Report.Model.MemoryRun

/-!
# What a memory represents

A memory represents a state when it stands for it, and every live block of the heap has one owner: a
cell of one of its tables, or the function that is running (`Represents`). The rules of this module
say how this is kept: by a step that keeps no text (`Represents.step`), a copy of a text
(`Represents.dupText`), a free (`Represents.free`), the growth of a table (`Represents.grow`), and a
cell that enters or leaves a table (`Represents.push`, `Represents.replace`).
-/

set_option autoImplicit false

namespace P101Report

open Ownership

variable {lib : ToolEventLib} {α : Type}

/-! ## The cells of the tables -/

/-- What pointers read depends on their blocks only. -/
theorem map_congr_blocks {f g : α → Text} {ps : List (Option α)}
    (h : ∀ a ∈ blocks ps, f a = g a) : ∀ p ∈ ps, p.map f = p.map g := by
  intro p hp
  apply map_congr_block
  intro a ha
  rw [mem_block] at ha
  exact h a (mem_blocks.2 (ha ▸ hp))

def siteLayout : Layout α Text (SiteCell α) SourceSite where
  pointers := SiteCell.pointers
  value := SiteCell.read
  value_congr h := by
    have hall := map_congr_blocks h
    simp only [SiteCell.pointers, List.forall_mem_cons] at hall
    obtain ⟨hfile, hfunction, -⟩ := hall
    simp only [SiteCell.read, hfile, hfunction]

def eventLayout : Layout α Text (EventCell α) ResourceEvent where
  pointers := EventCell.pointers
  value := EventCell.read
  value_congr h := by
    have hall := map_congr_blocks h
    simp only [EventCell.pointers, List.forall_mem_cons] at hall
    obtain ⟨hptr, hnew, htarget, hclass, hid, hrelated, hmetadata, -⟩ := hall
    simp only [EventCell.read, hptr, hnew, htarget, hclass, hid, hrelated, hmetadata]

def callLayout : Layout α Text (CallCell α) CallEvent where
  pointers := CallCell.pointers
  value := CallCell.read
  value_congr h := by
    have hall := map_congr_blocks h
    simp only [CallCell.pointers, List.forall_mem_cons] at hall
    obtain ⟨hfunction, hcall, harguments, hresult, hfile, -⟩ := hall
    simp only [CallCell.read, hfunction, hcall, harguments, hresult, hfile]

def allocLayout : Layout α Text (AllocCell α) LiveAlloc where
  pointers alloc := [alloc.ptr]
  value := AllocCell.read
  value_congr {f g alloc} h := by
    have hptr := map_congr_blocks h alloc.ptr List.mem_cons_self
    simp only [AllocCell.read, hptr]

def freedLayout : Layout α Text (FreedCell α) FreedAlloc where
  pointers freed := [freed.ptr]
  value := FreedCell.read
  value_congr {f g freed} h := by
    have hptr := map_congr_blocks h freed.ptr List.mem_cons_self
    simp only [FreedCell.read, hptr]

def findingLayout : Layout α Text (FindingCell α) Finding where
  pointers := FindingCell.pointers
  value := FindingCell.read
  value_congr h := by
    have hall := map_congr_blocks h
    simp only [FindingCell.pointers, List.forall_mem_cons] at hall
    obtain ⟨hptr, hclass, hid, -⟩ := hall
    simp only [FindingCell.read, hptr, hclass, hid]

/-- A finding of an exec has no resource class and no resource id, so its pointer is all that it
owns. -/
def FindingCell.Valid (finding : FindingCell α) : Prop :=
  finding.fields.kind = .execInherit → finding.resourceClass = none ∧ finding.resourceId = none

/-! ## Representation -/

/-- What the tables of a memory own. -/
def Memory.owned (m : Memory lib α) : Multiset α :=
  siteLayout.owned m.sites.items + eventLayout.owned m.resources.items +
    callLayout.owned m.calls.items + allocLayout.owned m.allocs.items +
    freedLayout.owned m.freedAllocs.items + findingLayout.owned m.findings.items

/-- The memory stands for the state, and every live block is owned by a table or is one of the
blocks `own` of the function that is running. -/
structure Represents (own : Multiset α) (m : Memory lib α) (st : State lib) : Prop where
  owns : m.heap.Owns (m.owned + own)
  state : m.state = st
  valid : ∀ finding ∈ m.findings.items, finding.Valid

/-- What a memory stands for depends on the blocks of its tables only. -/
theorem Memory.state_congr {m : Memory lib α} {heap : Heap α Text}
    (h : ∀ a ∈ m.owned, heap.content a = m.heap.content a) :
    ({ m with heap } : Memory lib α).state = m.state := by
  have hsites : m.sites.items.map (SiteCell.read heap.content) =
      m.sites.items.map (SiteCell.read m.heap.content) :=
    siteLayout.values_congr fun a ha => h a (by simp [Memory.owned, ha])
  have hresources : m.resources.items.map (EventCell.read heap.content) =
      m.resources.items.map (EventCell.read m.heap.content) :=
    eventLayout.values_congr fun a ha => h a (by simp [Memory.owned, ha])
  have hcalls : m.calls.items.map (CallCell.read heap.content) =
      m.calls.items.map (CallCell.read m.heap.content) :=
    callLayout.values_congr fun a ha => h a (by simp [Memory.owned, ha])
  have hallocs : m.allocs.items.map (AllocCell.read heap.content) =
      m.allocs.items.map (AllocCell.read m.heap.content) :=
    allocLayout.values_congr fun a ha => h a (by simp [Memory.owned, ha])
  have hfreed : m.freedAllocs.items.map (FreedCell.read heap.content) =
      m.freedAllocs.items.map (FreedCell.read m.heap.content) :=
    freedLayout.values_congr fun a ha => h a (by simp [Memory.owned, ha])
  have hfindings : m.findings.items.map (FindingCell.read heap.content) =
      m.findings.items.map (FindingCell.read m.heap.content) :=
    findingLayout.values_congr fun a ha => h a (by simp [Memory.owned, ha])
  simp only [Memory.state, Table.mapItems, hsites, hresources, hcalls, hallocs, hfreed, hfindings]

section Rules

variable {own : Multiset α} {m m' : Memory lib α} {st : State lib}

/-- The error object of a memory is that of the state. -/
theorem Represents.err (h : Represents own m st) : m.rest.err = st.err := by
  rw [← h.state]
  rfl

/-- The live blocks of a heap are those of the tables and of the function that is running. -/
theorem Represents.mem_live (h : Represents own m st) {a : α} :
    a ∈ m.heap.live ↔ a ∈ m.owned ∨ a ∈ own := by
  rw [h.owns.mem_live, Multiset.mem_add]

/-- The heap has grown, and its new blocks belong to the function that is running. -/
theorem Represents.extend {own' : Multiset α} (h : Represents own m st) {heap : Heap α Text}
    (hext : m.heap.Extends heap) (howns : heap.Owns (m.owned + own')) :
    Represents own' { m with heap } st where
  owns := howns
  state := by
    rw [← h.state]
    exact Memory.state_congr fun a ha => hext.content a (h.mem_live.2 (Or.inl ha))
  valid := h.valid

/-- Another error object. -/
theorem Represents.setErr (h : Represents own m st) (err : ErrState) :
    Represents own (m.setErr err) { st with err } where
  owns := h.owns
  state := by
    rw [← h.state]
    rfl
  valid := h.valid

/-! ## Steps that keep no text -/

/-- The tables that hold texts. -/
def ReportModel.texts (model : ReportModel lib) :
    Table SourceSite × Table ResourceEvent × Table CallEvent × Table LiveAlloc × Table FreedAlloc ×
      Table Finding :=
  (model.sites, model.resources, model.calls, model.allocs, model.freedAllocs, model.findings)

/-- A step leaves the tables that hold texts as they are. -/
def KeepsTexts (f : State lib → State lib) : Prop := ∀ st, (f st).model.texts = st.model.texts

theorem Represents.step {f : State lib → State lib} (hf : KeepsTexts f)
    (h : Represents own m st) : Represents own (m.step f) (f st) where
  owns := h.owns
  state := by
    have htexts := hf m.state
    rw [← h.state]
    -- the tables with texts come from the cells, and those of the next state are the same
    generalize hnext : f m.state = next at htexts
    simp only [ReportModel.texts, Prod.mk.injEq] at htexts
    obtain ⟨hsites, hresources, hcalls, hallocs, hfreed, hfindings⟩ := htexts
    have hstate : (m.step f).state = { next with
        model := { next.model with
          sites := m.state.model.sites, resources := m.state.model.resources
          calls := m.state.model.calls, allocs := m.state.model.allocs
          freedAllocs := m.state.model.freedAllocs, findings := m.state.model.findings } } := by
      rw [← hnext]
      rfl
    rw [hstate, ← hsites, ← hresources, ← hcalls, ← hallocs, ← hfreed, ← hfindings]
  valid := h.valid

/-! ## Tables -/

/-- One of the tables that hold texts: in a memory and in a state, with the cells that may enter
it. -/
structure Slot (lib : ToolEventLib) (α κ ν : Type) where
  layout : Layout α Text κ ν
  valid : κ → Prop
  get : Memory lib α → Table κ
  set : Table κ → Memory lib α → Memory lib α
  view : ReportModel lib → Table ν
  put : Table ν → ReportModel lib → ReportModel lib
  set_heap : ∀ t m, (set t m).heap = m.heap
  set_state : ∀ t m, (set t m).state =
    { m.state with model := put (t.mapItems (layout.value m.heap.content)) m.state.model }
  view_state : ∀ m, view m.state.model = (get m).mapItems (layout.value m.heap.content)
  set_owned : ∀ t m, layout.owned (get m).items + (set t m).owned =
    layout.owned t.items + m.owned
  get_valid : ∀ {m : Memory lib α}, (∀ finding ∈ m.findings.items, finding.Valid) →
    ∀ cell ∈ (get m).items, valid cell
  set_valid : ∀ {t : Table κ} {m : Memory lib α}, (∀ finding ∈ m.findings.items, finding.Valid) →
    (∀ cell ∈ t.items, valid cell) → ∀ finding ∈ (set t m).findings.items, finding.Valid

def siteSlot (lib : ToolEventLib) (α : Type) : Slot lib α (SiteCell α) SourceSite where
  layout := siteLayout
  valid _ := True
  get m := m.sites
  set t m := { m with sites := t }
  view model := model.sites
  put t model := { model with sites := t }
  set_heap _ _ := rfl
  set_state _ _ := rfl
  view_state _ := rfl
  set_owned t m := by
    simp only [Memory.owned]
    abel
  get_valid _ _ _ := trivial
  set_valid h _ := h

def resourceSlot (lib : ToolEventLib) (α : Type) : Slot lib α (EventCell α) ResourceEvent where
  layout := eventLayout
  valid _ := True
  get m := m.resources
  set t m := { m with resources := t }
  view model := model.resources
  put t model := { model with resources := t }
  set_heap _ _ := rfl
  set_state _ _ := rfl
  view_state _ := rfl
  set_owned t m := by
    simp only [Memory.owned]
    abel
  get_valid _ _ _ := trivial
  set_valid h _ := h

def callSlot (lib : ToolEventLib) (α : Type) : Slot lib α (CallCell α) CallEvent where
  layout := callLayout
  valid _ := True
  get m := m.calls
  set t m := { m with calls := t }
  view model := model.calls
  put t model := { model with calls := t }
  set_heap _ _ := rfl
  set_state _ _ := rfl
  view_state _ := rfl
  set_owned t m := by
    simp only [Memory.owned]
    abel
  get_valid _ _ _ := trivial
  set_valid h _ := h

def allocSlot (lib : ToolEventLib) (α : Type) : Slot lib α (AllocCell α) LiveAlloc where
  layout := allocLayout
  valid _ := True
  get m := m.allocs
  set t m := { m with allocs := t }
  view model := model.allocs
  put t model := { model with allocs := t }
  set_heap _ _ := rfl
  set_state _ _ := rfl
  view_state _ := rfl
  set_owned t m := by
    simp only [Memory.owned]
    abel
  get_valid _ _ _ := trivial
  set_valid h _ := h

def freedSlot (lib : ToolEventLib) (α : Type) : Slot lib α (FreedCell α) FreedAlloc where
  layout := freedLayout
  valid _ := True
  get m := m.freedAllocs
  set t m := { m with freedAllocs := t }
  view model := model.freedAllocs
  put t model := { model with freedAllocs := t }
  set_heap _ _ := rfl
  set_state _ _ := rfl
  view_state _ := rfl
  set_owned t m := by
    simp only [Memory.owned]
    abel
  get_valid _ _ _ := trivial
  set_valid h _ := h

def findingSlot (lib : ToolEventLib) (α : Type) : Slot lib α (FindingCell α) Finding where
  layout := findingLayout
  valid := FindingCell.Valid
  get m := m.findings
  set t m := { m with findings := t }
  view model := model.findings
  put t model := { model with findings := t }
  set_heap _ _ := rfl
  set_state _ _ := rfl
  view_state _ := rfl
  set_owned t m := by
    simp only [Memory.owned]
    abel
  get_valid h := h
  set_valid _ ht := ht

section Slots

variable {κ ν : Type} (S : Slot lib α κ ν)

theorem Slot.mem_owned {t : Table κ} {a : α} (ht : S.get m = t)
    (ha : a ∈ S.layout.owned t.items) : a ∈ m.owned := by
  have howned := S.set_owned {} m
  have hnil : S.layout.owned ({} : Table κ).items = 0 := rfl
  rw [hnil, zero_add, ht] at howned
  rw [← howned]
  exact Multiset.mem_add.2 (Or.inl ha)

/-- A column of a table: one pointer of each of its cells. -/
theorem Slot.mem_owned_column {t : Table κ} {a : α} (ht : S.get m = t) {column : κ → Option α}
    (hcolumn : ∀ cell, column cell ∈ S.layout.pointers cell)
    (ha : a ∈ blocks (t.items.map column)) : a ∈ m.owned := by
  obtain ⟨cell, hmem, hcell⟩ := List.mem_map.1 (mem_blocks.1 ha)
  apply S.mem_owned ht
  exact S.layout.mem_owned hmem (mem_blocks.2 (hcell ▸ hcolumn cell))

/-- **A table is replaced**: what its cells no longer own belongs to the function that is running,
and what they own anew has belonged to it. -/
theorem Represents.replace {left taken : Multiset α} {t : Table κ}
    (h : Represents (taken + own) m st)
    (howned : left + S.layout.owned t.items = taken + S.layout.owned (S.get m).items)
    (hvalid : ∀ cell ∈ t.items, S.valid cell) :
    Represents (left + own) (S.set t m)
      { st with model := S.put (t.mapItems (S.layout.value m.heap.content)) st.model } where
  owns := by
    have hset := S.set_owned t m
    -- what the cells of the old table own is on both sides
    have heq : (S.set t m).owned + (left + own) = m.owned + (taken + own) := by
      apply add_left_cancel (a := S.layout.owned (S.get m).items)
      calc S.layout.owned (S.get m).items + ((S.set t m).owned + (left + own))
          = (left + S.layout.owned t.items) + (m.owned + own) := by
            rw [← add_assoc, hset]
            abel
        _ = _ := by
            rw [howned]
            abel
    rw [S.set_heap, heq]
    exact h.owns
  state := by
    rw [S.set_state, h.state]
  valid := S.set_valid h.valid hvalid

/-- What the table grows to, and what the table of the state grows to. -/
theorem growTable_mapItems (f : κ → ν) (itemSize : Nat) (t : Table κ) (err : ErrState) :
    growTable lib itemSize (t.mapItems f) err =
      ((growTable lib itemSize t err).1, (growTable lib itemSize t err).2.1.mapItems f,
        (growTable lib itemSize t err).2.2) := by
  simp only [growTable, Table.mapItems, List.length_map]

theorem growTable_items_eq {itemSize : Nat} {t t' : Table κ} {err err' : ErrState} {ok : Bool}
    (hgrow : growTable lib itemSize t err = (ok, t', err')) : t'.items = t.items := by
  simp only [growTable] at hgrow
  obtain ⟨-, rfl, -⟩ := hgrow
  rfl

/-- **A table grows**, and the table of the state with it. -/
theorem Represents.grow (h : Represents own m st) {itemSize : Nat} {t : Table κ} {err : ErrState}
    {ok : Bool} (hgrow : growTable lib itemSize (S.get m) m.rest.err = (ok, t, err)) :
    growTable lib itemSize (S.view st.model) st.err =
        (ok, t.mapItems (S.layout.value m.heap.content), err) ∧
      Represents own ((S.set t m).setErr err)
        ⟨S.put (t.mapItems (S.layout.value m.heap.content)) st.model, err⟩ := by
  have hitems := growTable_items_eq hgrow
  refine ⟨?_, ?_⟩
  · rw [← h.state, S.view_state, growTable_mapItems]
    have herr : m.state.err = m.rest.err := rfl
    rw [herr, hgrow]
  · have hown : Represents (0 + own) m st := (zero_add own).symm ▸ h
    have hset := hown.replace S (congrArg (fun items => 0 + S.layout.owned items) hitems)
      (hitems ▸ S.get_valid h.valid)
    rw [zero_add] at hset
    exact hset.setErr err

/-- **A cell enters a table**, with what the function that is running has owned. -/
theorem Represents.push {t : Table κ} (ht : S.get m = t) (cell : κ)
    (h : Represents (blocks (S.layout.pointers cell) + own) m st) (hvalid : S.valid cell) :
    Represents own (S.set (t.push cell) m)
      ⟨S.put ((S.view st.model).push (S.layout.value m.heap.content cell)) st.model, st.err⟩ := by
  have hview : (t.push cell).mapItems (S.layout.value m.heap.content) =
      (S.view st.model).push (S.layout.value m.heap.content cell) := by
    rw [← h.state, S.view_state, ht]
    simp [Table.mapItems, Table.push]
  have howned : 0 + S.layout.owned (t.push cell).items =
      blocks (S.layout.pointers cell) + S.layout.owned (S.get m).items := by
    rw [Table.push_items, Layout.owned_append, Layout.owned_cons, Layout.owned_nil, ht]
    abel
  have hcells : ∀ c ∈ (t.push cell).items, S.valid c := by
    intro c hc
    rcases List.mem_append.1 hc with hold | hnew
    · exact S.get_valid h.valid c (ht ▸ hold)
    · rwa [List.mem_singleton.1 hnew]
  have hset := h.replace S howned hcells
  rwa [zero_add, hview] at hset

end Slots

/-! ## Memory operations -/

variable [DecidableEq α]

/-- Pointers to owned blocks may be read. -/
theorem Represents.touch (h : Represents own m st) {ps : List (Option α)}
    (hps : ∀ a ∈ blocks ps, a ∈ m.owned ∨ a ∈ own) : m.touch ps = m := by
  have hheap : m.heap.touch ps = m.heap :=
    h.owns.touch fun a ha => Multiset.mem_add.2 (hps a ha)
  rw [Memory.touch, hheap]

theorem Memory.free_state (p : Option α) (m : Memory lib α) : (m.free p).state = m.state := by
  simp only [Memory.state, Memory.free, Heap.free_content]

/-- A block of the function that is running is freed. -/
theorem Represents.free {p : Option α} (h : Represents (block p + own) m st) :
    Represents own (m.free p) st where
  owns := by
    have howns := h.owns
    rw [add_left_comm] at howns
    exact howns.free
  state := (Memory.free_state p m).trans h.state
  valid := h.valid

theorem Represents.freeAll {ps : List (Option α)} (h : Represents (blocks ps + own) m st) :
    Represents own (m.freeAll ps) st where
  owns := by
    have howns := h.owns
    rw [add_left_comm] at howns
    exact howns.freeAll
  state := by
    rw [← h.state]
    simp only [Memory.state, Memory.freeAll, Heap.freeAll_content]
  valid := h.valid

/-- What a pointer argument reads, and that it may be read. -/
structure CharPtr.Reads (heap : Heap α Text) (text : CharPtr α) (value : Option Text) : Prop where
  live : ∀ a ∈ blocks text.pointers, a ∈ heap.live
  value : text.read heap.content = value

omit [DecidableEq α] in
theorem CharPtr.reads_outside (heap : Heap α Text) (text : Option Text) :
    (CharPtr.outside text : CharPtr α).Reads heap text where
  live _ ha := absurd ha (Multiset.notMem_zero _)
  value := rfl

omit [DecidableEq α] in
/-- A pointer argument reads the same from a heap that has grown. -/
theorem CharPtr.Reads.extends {heap heap' : Heap α Text} {text : CharPtr α} {value : Option Text}
    (h : text.Reads heap value) (hext : heap.Extends heap') : text.Reads heap' value where
  live a ha := hext.live a (h.live a ha)
  value := by
    rw [← h.value]
    cases text with
    | outside text => rfl
    | inside p =>
      apply map_congr_block
      intro a ha
      apply hext.content a
      apply h.live a
      simpa [CharPtr.pointers] using ha

/-- **A text is copied**: the copy belongs to the function that is running. -/
theorem Represents.dupText (h : Represents own m st) {text : CharPtr α} {value : Option Text}
    (htext : text.Reads m.heap value) {p : Option α} (hdup : m.dupText text = (p, m')) :
    ∃ copy err, P101Report.dupText value st.err = (copy, err) ∧ p.map m'.heap.content = copy ∧
      m.heap.Extends m'.heap ∧ Represents (block p + own) m' { st with err } := by
  have htouch : m.touch text.pointers = m := h.touch fun a ha => h.mem_live.1 (htext.live a ha)
  simp only [Memory.dupText, htouch, htext.value] at hdup
  rw [P101Report.dupText, ← h.err]
  rcases hget : m.rest.err.allocate with ⟨_ | _, err⟩ <;> simp only [hget, Prod.mk.injEq] at hdup ⊢
  · -- the allocation has failed
    obtain ⟨rfl, rfl⟩ := hdup
    exact ⟨none, err, ⟨rfl, rfl⟩, rfl, .refl _, by simpa using h.setErr err⟩
  · obtain ⟨rfl, rfl⟩ := hdup
    refine ⟨_, err, ⟨rfl, rfl⟩, ?_, Heap.extends_alloc _ _, ?_⟩
    · exact congrArg some (Heap.alloc_content_self _ _)
    · have howns := h.owns.alloc (value.getD (lit ""))
      rw [add_left_comm] at howns
      exact (h.setErr err).extend (Heap.extends_alloc _ _) howns

omit [DecidableEq α] in
theorem CharPtr.isNull_eq (content : α → Text) (text : CharPtr α) :
    text.isNull = (text.read content).isNone := by
  cases text with
  | outside text => rfl
  | inside p => cases p <;> rfl

theorem Represents.dupField (h : Represents own m st) {text : CharPtr α} {value : Option Text}
    (htext : text.Reads m.heap value) {p : Option α} (hdup : m.dupField text = (p, m')) :
    ∃ copy err, P101Report.dupField value st.err = (copy, err) ∧ p.map m'.heap.content = copy ∧
      m.heap.Extends m'.heap ∧ Represents (block p + own) m' { st with err } := by
  rw [Memory.dupField, CharPtr.isNull_eq m.heap.content, htext.value] at hdup
  cases value with
  | none =>
    obtain ⟨rfl, rfl⟩ := Prod.mk.inj hdup
    exact ⟨none, st.err, rfl, rfl, .refl _, by simpa using h⟩
  | some value => exact h.dupText htext hdup

/-- Since the memory `start` texts have been copied: the copies read what the model has copied, and
belong to the function that is running. -/
structure Copied (own : Multiset α) (start m : Memory lib α) (model : ReportModel lib)
    (err : ErrState) (ps : List (Option α)) (copies : List (Option Text)) : Prop where
  represents : Represents (blocks ps + own) m ⟨model, err⟩
  grows : start.heap.Extends m.heap
  values : ps.map (Option.map m.heap.content) = copies

section Copies

variable {start : Memory lib α} {model : ReportModel lib} {err err' : ErrState}
  {ps : List (Option α)} {copies : List (Option Text)} {p : Option α} {copy : Option Text}

omit [DecidableEq α] in
theorem Copied.nil (h : Represents own m ⟨model, err⟩) : Copied own m m model err [] [] where
  represents := by
    rw [blocks_nil, zero_add]
    exact h
  grows := .refl _
  values := rfl

omit [DecidableEq α] in
/-- The earlier copies read the same when another one has been made. -/
theorem Copied.snoc (h : Copied own start m model err ps copies)
    (hvalue : p.map m'.heap.content = copy) (hext : m.heap.Extends m'.heap)
    (hnext : Represents (block p + (blocks ps + own)) m' ⟨model, err'⟩) :
    Copied own start m' model err' (ps ++ [p]) (copies ++ [copy]) where
  represents := by
    have heq : blocks (ps ++ [p]) + own = block p + (blocks ps + own) := by
      rw [blocks_append, blocks_cons, blocks_nil]
      abel
    exact heq ▸ hnext
  grows := h.grows.trans hext
  values := by
    have hold : ps.map (Option.map m'.heap.content) = ps.map (Option.map m.heap.content) := by
      apply List.map_congr_left
      apply map_congr_blocks
      intro a ha
      apply hext.content a
      exact h.represents.mem_live.2 (Or.inr (Multiset.mem_add.2 (Or.inl ha)))
    rw [List.map_append, hold, h.values, List.map_singleton, hvalue]

theorem Copied.dupText (h : Copied own start m model err ps copies) {text : CharPtr α}
    {value : Option Text} (htext : text.Reads start.heap value) (hdup : m.dupText text = (p, m')) :
    ∃ copy err', P101Report.dupText value err = (copy, err') ∧
      Copied own start m' model err' (ps ++ [p]) (copies ++ [copy]) := by
  obtain ⟨copy, err', hcopy, hvalue, hext, hnext⟩ :=
    h.represents.dupText (htext.extends h.grows) hdup
  exact ⟨copy, err', hcopy, h.snoc hvalue hext hnext⟩

theorem Copied.dupField (h : Copied own start m model err ps copies) {text : CharPtr α}
    {value : Option Text} (htext : text.Reads start.heap value)
    (hdup : m.dupField text = (p, m')) :
    ∃ copy err', P101Report.dupField value err = (copy, err') ∧
      Copied own start m' model err' (ps ++ [p]) (copies ++ [copy]) := by
  obtain ⟨copy, err', hcopy, hvalue, hext, hnext⟩ :=
    h.represents.dupField (htext.extends h.grows) hdup
  exact ⟨copy, err', hcopy, h.snoc hvalue hext hnext⟩

end Copies

end Rules

end P101Report
