import P101Report.Memory.Support

/-!
# The replay in memory

The functions of `src/model.c` do on a memory what they do on the state it represents: the stored
copy of an event (`addResourceEvent_represents`), one record (`ingestResource_represents`) and the
end of the log (`finalizeLeaks_represents`). An allocation that leaves its table takes its text
along, and so does a finding that the rollback of a failed exec compacts away.
-/

set_option autoImplicit false

namespace P101Report

open Ownership SwapTable

variable {lib : ToolEventLib} {α : Type}

/-! ## Steps that keep no text -/

/-- Steps without texts compose, and fold over a list. -/
theorem KeepsTexts.comp {f g : State lib → State lib} (hf : KeepsTexts f) (hg : KeepsTexts g) :
    KeepsTexts fun st => g (f st) := fun st => (hg (f st)).trans (hf st)

theorem KeepsTexts.foldl {β : Type} {f : State lib → β → State lib}
    (hf : ∀ b, KeepsTexts fun st => f st b) (l : List β) : KeepsTexts fun st => l.foldl f st := by
  induction l with
  | nil => exact fun _ => rfl
  | cons b rest ih => exact (hf b).comp ih

/-- Entries of descriptors hold no text. -/
theorem keepsTexts_pushLiveFd (entry : LiveFd) :
    KeepsTexts (pushLiveFd entry : State lib → State lib) := by
  intro st
  rcases hgrow : growTable lib lib.sizeofLiveFd st.model.fds st.err with ⟨_ | _, fds, err⟩
  all_goals
    simp only [pushLiveFd, hgrow]
    rfl

theorem keepsTexts_pushClosedFd (entry : ClosedFd) :
    KeepsTexts (pushClosedFd entry : State lib → State lib) := by
  intro st
  rcases hgrow : growTable lib lib.sizeofClosedFd st.model.closedFds st.err with
    ⟨_ | _, closedFds, err⟩
  all_goals
    simp only [pushClosedFd, hgrow]
    rfl

/-- A commit moves descriptors only. -/
theorem keepsTexts_finishExecLoop (pid : Int) (endOfInput : Bool) (remaining : Nat) :
    KeepsTexts (finishExecLoop pid endOfInput remaining : State lib → State lib) := by
  induction remaining with
  | zero => exact fun _ => rfl
  | succ remaining ih =>
    intro st
    rw [finishExecLoop]
    split
    · rfl
    · dsimp only
      split
      · rfl
      · rename_i fd _
        split
        · exact ih st
        · split
          · exact (ih _).trans (keepsTexts_pushClosedFd (ClosedFd.ofExec fd) st)
          · split
            · exact ih _
            · exact ih _

theorem keepsTexts_finishExec (pid : Int) (endOfInput : Bool) :
    KeepsTexts (finishExec pid endOfInput : State lib → State lib) :=
  fun st => keepsTexts_finishExecLoop pid endOfInput st.model.fds.items.length st

theorem keepsTexts_ingestFdClose (event : ResourceEvent) :
    KeepsTexts (ingestFdClose event : State lib → State lib) := by
  intro st
  rw [ingestFdClose]
  split
  · rfl
  · exact keepsTexts_pushClosedFd (ClosedFd.ofClose event) st

/-- `FORK` copies descriptors only. -/
theorem keepsTexts_forkStep (event : ResourceEvent) (index : Nat) :
    KeepsTexts fun st : State lib => forkStep event st index := by
  intro st
  dsimp only
  rw [forkStep]
  split
  · rfl
  · split
    · rfl
    · split
      · rfl
      · dsimp only
        split
        · exact keepsTexts_pushLiveFd _ st
        · rfl

theorem keepsTexts_ingestFork (event : ResourceEvent) :
    KeepsTexts (ingestFork event : State lib → State lib) := fun st =>
  KeepsTexts.foldl (keepsTexts_forkStep event) (List.range st.model.fds.items.length) st

/-- The end of the log settles descriptors before the library finishes. -/
theorem keepsTexts_finishPending (fuel : Nat) :
    KeepsTexts (finishPending fuel : State lib → State lib) := by
  induction fuel with
  | zero => exact fun _ => rfl
  | succ fuel ih =>
    intro st
    rw [finishPending]
    split
    · rfl
    · split
      · rfl
      · exact (keepsTexts_finishExec _ true).comp ih st

/-! ## The stored copy -/

variable [DecidableEq α] {own : Multiset α} {m m' : Memory lib α} {st : State lib}
  {event : EventCell α} {value : ResourceEvent}

omit [DecidableEq α] in
/-- A pointer of an event that the running function owns may be read. -/
theorem EventCell.HeldBy.reads (hevent : event.HeldBy own m value) (h : Represents own m st)
    {p : Option α} (hp : p ∈ event.pointers) :
    (CharPtr.inside p).Reads m.heap (p.map m.heap.content) := by
  refine ⟨fun a ha => ?_, rfl⟩
  apply h.mem_live.2
  refine Or.inr (hevent.owned a (mem_blocks.2 ?_))
  rw [CharPtr.pointers, mem_blocks, List.mem_singleton] at ha
  exact ha ▸ hp

/-- A stored record owns its copies; one that is not stored has freed them. -/
theorem addResourceEvent_represents (h : Represents own m st)
    (hevent : event.HeldBy own m value) :
    Follows own m (m.addResourceEvent event) (addResourceEvent value st) := by
  obtain rfl := hevent.read
  rcases hgrow : growTable lib lib.sizeofResourceEvent m.resources m.rest.err with
    ⟨grown, resources, err⟩
  obtain ⟨hvalue, hrep⟩ := h.grow (resourceSlot lib α) hgrow
  have hvalue' : growTable lib lib.sizeofResourceEvent st.model.resources st.err = _ := hvalue
  cases grown with
  | false =>
    simp only [Memory.addResourceEvent, hgrow, addResourceEvent, hvalue']
    exact .of_extends h (.refl _) hrep
  | true =>
    -- seven texts are copied, each of them one of the caller's
    have hreads : ∀ p ∈ event.pointers, (CharPtr.inside p).Reads m.heap (p.map m.heap.content) :=
      fun p hp => hevent.reads h hp
    simp only [EventCell.pointers, List.forall_mem_cons] at hreads
    obtain ⟨hptr, hnew, htarget, hclass, hid, hrelated, hmetadata, -⟩ := hreads
    rcases hdup₁ : ({ m.setErr err with resources } : Memory lib α).dupField (.inside event.ptr)
      with ⟨p₁, m₁⟩
    rcases hdup₂ : m₁.dupField (.inside event.newPtr) with ⟨p₂, m₂⟩
    rcases hdup₃ : m₂.dupField (.inside event.target) with ⟨p₃, m₃⟩
    rcases hdup₄ : m₃.dupField (.inside event.resourceClass) with ⟨p₄, m₄⟩
    rcases hdup₅ : m₄.dupField (.inside event.resourceId) with ⟨p₅, m₅⟩
    rcases hdup₆ : m₅.dupField (.inside event.relatedId) with ⟨p₆, m₆⟩
    rcases hdup₇ : m₆.dupField (.inside event.metadata) with ⟨p₇, m₇⟩
    obtain ⟨c₁, err₁, hc₁, h₁⟩ := (Copied.nil hrep).dupField hptr hdup₁
    obtain ⟨c₂, err₂, hc₂, h₂⟩ := h₁.dupField hnew hdup₂
    obtain ⟨c₃, err₃, hc₃, h₃⟩ := h₂.dupField htarget hdup₃
    obtain ⟨c₄, err₄, hc₄, h₄⟩ := h₃.dupField hclass hdup₄
    obtain ⟨c₅, err₅, hc₅, h₅⟩ := h₄.dupField hid hdup₅
    obtain ⟨c₆, err₆, hc₆, h₆⟩ := h₅.dupField hrelated hdup₆
    obtain ⟨c₇, err₇, hc₇, h₇⟩ := h₆.dupField hmetadata hdup₇
    have herr : m₇.rest.err = err₇ := h₇.represents.err
    have hvalues : ∀ content : α → Text, (event.read content).ptr = event.ptr.map content ∧
        (event.read content).newPtr = event.newPtr.map content ∧
        (event.read content).target = event.target.map content ∧
        (event.read content).resourceClass = event.resourceClass.map content ∧
        (event.read content).resourceId = event.resourceId.map content ∧
        (event.read content).relatedId = event.relatedId.map content ∧
        (event.read content).metadata = event.metadata.map content :=
      fun _ => ⟨rfl, rfl, rfl, rfl, rfl, rfl, rfl⟩
    simp only [Memory.addResourceEvent, hgrow, hdup₁, hdup₂, hdup₃, hdup₄, hdup₅, hdup₆, hdup₇,
      herr, addResourceEvent, hvalue', hvalues, hc₁, hc₂, hc₃, hc₄, hc₅, hc₆, hc₇]
    split
    · exact .freeAll h h₇.grows h₇.represents
    · -- the table takes the copies over
      have hpush := Represents.push (resourceSlot lib α) rfl
        { fields := event.fields, ptr := p₁, newPtr := p₂, target := p₃, resourceClass := p₄
          resourceId := p₅, relatedId := p₆, metadata := p₇ } h₇.represents trivial
      have hread : (resourceSlot lib α).layout.value m₇.heap.content
            { fields := event.fields, ptr := p₁, newPtr := p₂, target := p₃, resourceClass := p₄
              resourceId := p₅, relatedId := p₆, metadata := p₇ } =
          { event.read m.heap.content with
            ptr := c₁, newPtr := c₂, target := c₃, resourceClass := c₄, resourceId := c₅
            relatedId := c₆, metadata := c₇ } := by
        have hcopies : [p₁.map m₇.heap.content, p₂.map m₇.heap.content, p₃.map m₇.heap.content,
            p₄.map m₇.heap.content, p₅.map m₇.heap.content, p₆.map m₇.heap.content,
            p₇.map m₇.heap.content] = [c₁, c₂, c₃, c₄, c₅, c₆, c₇] := h₇.values
        simp only [List.cons.injEq, and_true] at hcopies
        obtain ⟨rfl, rfl, rfl, rfl, rfl, rfl, rfl⟩ := hcopies
        rfl
      rw [hread] at hpush
      exact .of_extends h h₇.grows hpush

/-! ## Allocations -/

/-- A live allocation owns a copy of its pointer text. -/
theorem pushLiveAlloc_represents (h : Represents own m st) (hevent : event.HeldBy own m value)
    (pid : Int) {ptr : Option α} (hptr : ptr ∈ event.pointers) :
    Follows own m (m.pushLiveAlloc pid ptr event)
      (pushLiveAlloc pid (ptr.map m.heap.content) value st) := by
  obtain rfl := hevent.read
  rcases hgrow : growTable lib lib.sizeofLiveAlloc m.allocs m.rest.err with ⟨grown, allocs, err⟩
  obtain ⟨hvalue, hrep⟩ := h.grow (allocSlot lib α) hgrow
  have hvalue' : growTable lib lib.sizeofLiveAlloc st.model.allocs st.err = _ := hvalue
  cases grown with
  | false =>
    simp only [Memory.pushLiveAlloc, hgrow, pushLiveAlloc, hvalue']
    exact .of_extends h (.refl _) hrep
  | true =>
    rcases hdup : ({ m.setErr err with allocs } : Memory lib α).dupText (.inside ptr) with ⟨p, m₁⟩
    obtain ⟨copy, err₁, hcopy, h₁⟩ := (Copied.nil hrep).dupText (hevent.reads h hptr) hdup
    have hcopies : [p.map m₁.heap.content] = [copy] := h₁.values
    obtain ⟨rfl, -⟩ := List.cons.inj hcopies
    simp only [Memory.pushLiveAlloc, hgrow, hdup, pushLiveAlloc, hvalue', hcopy]
    have hpush := Represents.push (allocSlot lib α) rfl
      ⟨pid, p, event.fields.size, event.fields.site, event.fields.sequence⟩ h₁.represents trivial
    exact .of_extends h h₁.grows hpush

theorem pushFreedAlloc_represents (h : Represents own m st) (hevent : event.HeldBy own m value) :
    Follows own m (m.pushFreedAlloc event) (pushFreedAlloc value st) := by
  obtain rfl := hevent.read
  rcases hgrow : growTable lib lib.sizeofFreedAlloc m.freedAllocs m.rest.err with
    ⟨grown, freedAllocs, err⟩
  obtain ⟨hvalue, hrep⟩ := h.grow (freedSlot lib α) hgrow
  have hvalue' : growTable lib lib.sizeofFreedAlloc st.model.freedAllocs st.err = _ := hvalue
  cases grown with
  | false =>
    simp only [Memory.pushFreedAlloc, hgrow, pushFreedAlloc, hvalue']
    exact .of_extends h (.refl _) hrep
  | true =>
    rcases hdup : ({ m.setErr err with freedAllocs } : Memory lib α).dupText (.inside event.ptr)
      with ⟨p, m₁⟩
    have hreads := hevent.reads h (p := event.ptr) (by simp [EventCell.pointers])
    obtain ⟨copy, err₁, hcopy, h₁⟩ := (Copied.nil hrep).dupText hreads hdup
    have hcopies : [p.map m₁.heap.content] = [copy] := h₁.values
    obtain ⟨rfl, -⟩ := List.cons.inj hcopies
    have hptr : (event.read m.heap.content).ptr = event.ptr.map m.heap.content := rfl
    simp only [Memory.pushFreedAlloc, hgrow, hdup, pushFreedAlloc, hvalue', hptr, hcopy]
    have hpush := Represents.push (freedSlot lib α) rfl
      ⟨event.fields.pid, p, event.fields.site, event.fields.sequence⟩ h₁.represents trivial
    exact .of_extends h h₁.grows hpush

/-- The search in memory finds what the search in the state finds. -/
theorem findAlloc_represents (h : Represents own m st) (hevent : event.HeldBy own m value)
    {pid : Int} {ptr : Option α} (hptr : ptr ∈ event.pointers) {index : Option Nat}
    (hfind : m.findAlloc pid ptr = (index, m')) :
    m' = m ∧ index =
      st.model.allocs.items.findIdx? (LiveAlloc.isFor pid (ptr.map m.heap.content)) := by
  have htouch : m.touch (ptr :: m.allocs.items.map AllocCell.ptr) = m := by
    apply h.touch
    intro a ha
    rw [blocks_cons, Multiset.mem_add] at ha
    rcases ha with hmine | htable
    · exact Or.inr (hevent.owned a (mem_blocks.2 (mem_block.1 hmine ▸ hptr)))
    · apply Or.inl
      exact (allocSlot lib α).mem_owned_column rfl (fun alloc => List.mem_cons_self) htable
  simp only [Memory.findAlloc, htouch, Prod.mk.injEq] at hfind
  obtain ⟨rfl, rfl⟩ := hfind
  have hallocs : st.model.allocs.items = m.allocs.items.map (AllocCell.read m.heap.content) := by
    rw [← h.state]
    rfl
  refine ⟨rfl, ?_⟩
  rw [hallocs, List.findIdx?_map]
  rfl

omit [DecidableEq α] in
/-- Taking out an entry commutes with reading the cells. -/
theorem map_swapRemove {κ ν : Type} (f : κ → ν) (cells : List κ) (index : Nat) :
    (swapRemove cells index).map f = swapRemove (cells.map f) index := by
  rw [swapRemove, swapRemove, List.getLast?_map]
  cases cells.getLast? with
  | none => rfl
  | some last =>
    simp only [Option.map_some]
    rw [List.map_dropLast, List.map_set]

omit [DecidableEq α] in
/-- A cell leaves a table, and the last one takes its place: the others own what is left. -/
theorem owned_swapRemove {κ ν : Type} (L : Layout α Text κ ν) {cells : List κ} {index : Nat}
    (hindex : index < cells.length) :
    blocks (L.pointers cells[index]) + L.owned (swapRemove cells index) = L.owned cells := by
  have hsplit : cells = cells.take index ++ cells[index] :: cells.drop (index + 1) := by simp
  have hlength : (cells.take index).length = index := by
    rw [List.length_take]
    omega
  have hperm := swapRemove_perm (cells.take index) cells[index] (cells.drop (index + 1))
  rw [← hsplit, hlength] at hperm
  rw [L.owned_perm hperm]
  conv_rhs => rw [hsplit]
  simp only [Layout.owned_append, Layout.owned_cons]
  abel

/-- **An allocation leaves its table with its text.** -/
theorem dropAlloc_represents (h : Represents own m st) {index : Nat}
    (hindex : index < st.model.allocs.items.length) :
    Follows own m (m.dropAlloc index)
      (st.setAllocs (swapRemove st.model.allocs.items index)) := by
  have hallocs : st.model.allocs.items = m.allocs.items.map (AllocCell.read m.heap.content) := by
    rw [← h.state]
    rfl
  rw [hallocs, List.length_map] at hindex
  let rest : Table (AllocCell α) := { m.allocs with items := swapRemove m.allocs.items index }
  have hget : m.allocs.items[index]? = some m.allocs.items[index] := List.getElem?_eq_getElem hindex
  have howned : block m.allocs.items[index].ptr + allocLayout.owned rest.items =
      0 + allocLayout.owned m.allocs.items := by
    rw [zero_add, ← owned_swapRemove allocLayout hindex]
    simp [rest, allocLayout]
  have hown : Represents (0 + own) m st := (zero_add own).symm ▸ h
  have hset := hown.replace (allocSlot lib α) howned fun _ _ => trivial
  have hmapped : rest.mapItems (AllocCell.read m.heap.content) =
      { st.model.allocs with items := swapRemove st.model.allocs.items index } := by
    rw [← h.state]
    exact congrArg (fun items => (⟨items, m.allocs.capacity⟩ : Table LiveAlloc))
      (map_swapRemove _ _ _)
  have hdrop : m.dropAlloc index =
      ((allocSlot lib α).set rest m).free m.allocs.items[index].ptr := by
    rw [Memory.dropAlloc, hget]
    rfl
  rw [hdrop]
  refine ⟨?_, fun a _ => congrFun (Heap.free_content _ m.heap) a⟩
  have hfree := hset.free
  rw [show (allocSlot lib α).layout.value = AllocCell.read from rfl, hmapped] at hfree
  exact hfree

/-- The pointers of an event that the running function owns may be read. -/
theorem EventCell.HeldBy.touch (hevent : event.HeldBy own m value) (h : Represents own m st)
    {ps : List (Option α)} (hps : ∀ p ∈ ps, p ∈ event.pointers) : m.touch ps = m := by
  apply h.touch
  intro a ha
  exact Or.inr (hevent.owned a (mem_blocks.2 (hps _ (mem_blocks.1 ha))))

omit [DecidableEq α] in
/-- A pointer names an allocation when its text does. -/
theorem isPointer_iff {content : α → Text} {p : Option α} :
    (p.isSome = true ∧ p.map content ≠ some dash) ↔
      ((p.map content).isSome = true ∧ p.map content ≠ some dash) := by
  rw [Option.isSome_map]

/-- `ALLOC` stores a copy of the pointer text of its record. -/
theorem ingestAlloc_represents (h : Represents own m st) (hevent : event.HeldBy own m value) :
    Follows own m (m.ingestAlloc event) (ingestAlloc value st) := by
  have hptr : event.ptr ∈ event.pointers := by simp [EventCell.pointers]
  have htouch : m.touch [event.ptr] = m := hevent.touch h (by simpa using hptr)
  have hpush := pushLiveAlloc_represents h hevent event.fields.pid hptr
  obtain rfl := hevent.read
  simp only [Memory.ingestAlloc, htouch]
  exact .ite isPointer_iff (fun _ => hpush) fun _ => .refl h

theorem pushFreedAlloc_allocs (value : ResourceEvent) (st : State lib) :
    (pushFreedAlloc value st).model.allocs = st.model.allocs := by
  rcases hgrow : growTable lib lib.sizeofFreedAlloc st.model.freedAllocs st.err with
    ⟨_ | _, freedAllocs, err⟩
  · simp only [pushFreedAlloc, hgrow]
  · rcases hdup : dupText value.ptr err with ⟨copy, err'⟩
    simp only [pushFreedAlloc, hgrow, hdup]

/-- `FREE` releases the text of the live entry after it has copied that of the record. -/
theorem ingestFree_represents (h : Represents own m st) (hevent : event.HeldBy own m value) :
    Follows own m (m.ingestFree event) (ingestFree value st) := by
  have hptr : event.ptr ∈ event.pointers := by simp [EventCell.pointers]
  have hpush := pushFreedAlloc_represents h hevent
  rcases hfind : m.findAlloc event.fields.pid event.ptr with ⟨index, m'⟩
  obtain ⟨rfl, hindex⟩ := findAlloc_represents h hevent hptr hfind
  obtain rfl := hevent.read
  have hsearch : st.model.allocs.items.findIdx? (LiveAlloc.isFor (event.read m'.heap.content).pid
      (event.read m'.heap.content).ptr) = index := hindex.symm
  simp only [Memory.ingestFree, hfind, ingestFree, hsearch]
  cases index with
  | none => exact .refl h
  | some index =>
    have hlt : index < st.model.allocs.items.length :=
      (List.findIdx?_eq_some_iff_findIdx_eq.1 hsearch).1
    rw [← pushFreedAlloc_allocs (event.read m'.heap.content) st] at hlt
    exact hpush.trans (dropAlloc_represents hpush.represents hlt)

/-- `REALLOC` first releases the text of its source. -/
theorem dropSource_represents (h : Represents own m st) (hevent : event.HeldBy own m value) :
    Follows own m (m.dropSource event)
      (if value.ptr.isNone ∨ value.ptr = some dash then st
        else st.setAllocs (removeFirst (LiveAlloc.isFor value.pid value.ptr)
          st.model.allocs.items)) := by
  have hptr : event.ptr ∈ event.pointers := by simp [EventCell.pointers]
  have htouch : m.touch [event.ptr] = m := hevent.touch h (by simpa using hptr)
  rcases hfind : m.findAlloc event.fields.pid event.ptr with ⟨index, m'⟩
  obtain ⟨rfl, hindex⟩ := findAlloc_represents h hevent hptr hfind
  obtain rfl := hevent.read
  have hsearch : st.model.allocs.items.findIdx? (LiveAlloc.isFor (event.read m'.heap.content).pid
      (event.read m'.heap.content).ptr) = index := hindex.symm
  have hnull : (event.read m'.heap.content).ptr.isNone = event.ptr.isNone := Option.isNone_map
  simp only [Memory.dropSource, htouch, hfind, removeFirst, hsearch, hnull]
  refine .ite Iff.rfl (fun _ => .refl h) fun _ => ?_
  cases index with
  | none => exact .refl h
  | some index =>
    exact dropAlloc_represents h (List.findIdx?_eq_some_iff_findIdx_eq.1 hsearch).1

/-- Then it stores a copy of the new pointer text. -/
theorem ingestRealloc_represents (h : Represents own m st) (hevent : event.HeldBy own m value) :
    Follows own m (m.ingestRealloc event) (ingestRealloc value st) := by
  have hdrop := dropSource_represents h hevent
  have hevent' := hevent.follows hdrop
  have hnew : event.newPtr ∈ event.pointers := by simp [EventCell.pointers]
  have htouch : (m.dropSource event).touch [event.newPtr] = m.dropSource event :=
    hevent'.touch hdrop.represents (by simpa using hnew)
  have hpush := pushLiveAlloc_represents hdrop.represents hevent' event.fields.pid hnew
  apply hdrop.trans
  obtain rfl := hevent'.read
  simp only [Memory.ingestRealloc, htouch]
  exact .ite isPointer_iff (fun _ => hpush) fun _ => .refl hdrop.represents

/-! ## Execs -/

/-- The finding of an `EXEC` record owns copies of its texts. -/
theorem ingestExec_represents (h : Represents own m st) (hevent : event.HeldBy own m value) :
    Follows own m (m.ingestExec event) (ingestExec value st) := by
  have hread := hevent.reads h (p := event.target) (by simp [EventCell.pointers])
  obtain rfl := hevent.read
  obtain rfl := h.state
  have hfds : m.state.model.fds.items.find?
        (LiveFd.isFor (event.read m.heap.content).pid (event.read m.heap.content).fd) =
      m.rest.model.fds.items.find? (LiveFd.isFor event.fields.pid event.fields.fd) := rfl
  simp only [Memory.ingestExec, ingestExec, hfds]
  cases m.rest.model.fds.items.find? (LiveFd.isFor event.fields.pid event.fields.fd) with
  | none => exact .refl h
  | some fd =>
    have hmark := Follows.step (f := fun st : State lib =>
      st.setFds (modifyFirst (LiveFd.isFor event.fields.pid event.fields.fd)
        (LiveFd.mark event.fields) st.model.fds.items)) (fun _ => rfl) h
    refine .ite Iff.rfl (fun _ => hmark.trans ?_) fun _ => hmark
    apply addFindingInternal_represents hmark.represents
    · exact ⟨hread, CharPtr.reads_outside _ _, CharPtr.reads_outside _ _, rfl⟩
    · exact fun _ => ⟨rfl, rfl⟩

/-- A finding that the rollback keeps. -/
def FindingCell.staysAfter (content : α → Text) (event : EventCell α) (firstSequence : Nat)
    (finding : FindingCell α) : Bool :=
  !execFindingMatches (finding.read content) (event.read content) firstSequence

omit [DecidableEq α] in
/-- A finding that the rollback drops has no text but its pointer. -/
theorem FindingCell.pointers_of_dropped {content : α → Text} {firstSequence : Nat}
    {finding : FindingCell α}
    (hmatch : execFindingMatches (finding.read content) (event.read content) firstSequence = true)
    (hvalid : finding.Valid) : blocks (findingLayout.pointers finding) = block finding.ptr := by
  have hkind : finding.fields.kind = .execInherit := by
    rw [execFindingMatches] at hmatch
    simp only [Bool.and_eq_true, beq_iff_eq] at hmatch
    exact hmatch.1.1.1.1.1
  obtain ⟨hclass, hid⟩ := hvalid hkind
  simp [findingLayout, FindingCell.pointers, hclass, hid]

/-- **The findings of a failed attempt are compacted away with their texts.** The loop owns the
findings it has still to look at. -/
theorem compactFindings_owns (firstSequence : Nat) (findings : List (FindingCell α)) :
    ∀ (others : Multiset α) (m : Memory lib α),
      m.heap.Owns (findingLayout.owned findings + others) →
      (∀ a ∈ block event.target, a ∈ others) → (∀ finding ∈ findings, finding.Valid) →
      let kept := findings.filter (FindingCell.staysAfter m.heap.content event firstSequence)
      ∃ heap, Memory.compactFindings event firstSequence findings m = (kept, { m with heap }) ∧
        heap.content = m.heap.content ∧ heap.Owns (findingLayout.owned kept + others) := by
  induction findings with
  | nil =>
    intro others m howns _ _
    exact ⟨m.heap, rfl, rfl, howns⟩
  | cons finding rest ih =>
    intro others m howns htarget hvalid
    rw [Layout.owned_cons, add_assoc] at howns
    have hheap : m.heap.touch [finding.ptr, event.target] = m.heap := by
      apply howns.touch
      intro a ha
      rw [blocks_cons, blocks_cons, blocks_nil, add_zero, Multiset.mem_add] at ha
      simp only [Multiset.mem_add]
      rcases ha with hptr | hevent
      · refine Or.inl (mem_blocks.2 (mem_block.1 hptr ▸ ?_))
        simp [findingLayout, FindingCell.pointers]
      · exact Or.inr (Or.inr (htarget a hevent))
    have htouch : m.touch [finding.ptr, event.target] = m := by
      rw [Memory.touch, hheap]
    have hrest : ∀ other ∈ rest, other.Valid := fun other hmem =>
      hvalid other (List.mem_cons_of_mem finding hmem)
    simp only [Memory.compactFindings, htouch]
    by_cases hmatch : execFindingMatches (finding.read m.heap.content) (event.read m.heap.content)
        firstSequence = true
    · -- its pointer is freed, and it has owned nothing else
      rw [FindingCell.pointers_of_dropped hmatch (hvalid finding List.mem_cons_self)] at howns
      obtain ⟨heap, hcompact, hcontent, hnext⟩ :=
        ih others (m.free finding.ptr) howns.free htarget hrest
      have hfree : (m.free finding.ptr).heap.content = m.heap.content := Heap.free_content _ _
      rw [hfree] at hcompact hcontent hnext
      rw [if_pos hmatch, List.filter_cons_of_neg (by simp [FindingCell.staysAfter, hmatch])]
      exact ⟨heap, hcompact, hcontent, hnext⟩
    · -- the finding stays with what it owns
      rw [add_left_comm] at howns
      obtain ⟨heap, hcompact, hcontent, hnext⟩ := ih _ m howns
        (fun a ha => Multiset.mem_add.2 (Or.inr (htarget a ha))) hrest
      rw [if_neg hmatch, List.filter_cons_of_pos (by simp [FindingCell.staysAfter, hmatch])]
      refine ⟨heap, ?_, hcontent, ?_⟩
      · rw [hcompact]
      · rw [Layout.owned_cons, add_assoc, add_left_comm]
        exact hnext

/-- The rollback frees the texts of the findings it drops and moves the others. -/
theorem compactFindings_represents (h : Represents own m st) (hevent : event.HeldBy own m value)
    {firstSequence : Nat} {items : List (FindingCell α)}
    (hcompact : Memory.compactFindings event firstSequence m.findings.items m = (items, m')) :
    Follows own m { m' with findings := { m'.findings with items } }
      { st with model := { st.model with findings := { st.model.findings with
        items := dropAttemptFindings value firstSequence st.model.findings.items } } } := by
  have hall := (findingSlot lib α).set_owned {} m
  have howns := h.owns
  have htarget : ∀ a ∈ block event.target, a ∈ ((findingSlot lib α).set {} m).owned + own := by
    intro a ha
    refine Multiset.mem_add.2 (Or.inr (hevent.owned a (mem_blocks.2 ?_)))
    simp [EventCell.pointers, mem_block.1 ha]
  have hsplit : m.owned = findingLayout.owned m.findings.items +
      ((findingSlot lib α).set {} m).owned := by
    rw [← zero_add m.owned]
    exact hall.symm
  rw [hsplit, add_assoc] at howns
  obtain ⟨heap, hresult, hcontent, hnext⟩ :=
    compactFindings_owns firstSequence m.findings.items _ m howns htarget h.valid
  obtain ⟨rfl, rfl⟩ := Prod.mk.inj (hcompact.symm.trans hresult)
  refine ⟨⟨?_, ?_, fun finding hmem => h.valid finding (List.mem_of_mem_filter hmem)⟩,
    fun a _ => congrFun hcontent a⟩
  · -- the other tables own what they have owned
    rw [← add_assoc] at hnext
    have hkept : findingLayout.owned (m.findings.items.filter
          (FindingCell.staysAfter m.heap.content event firstSequence)) +
          ((findingSlot lib α).set {} m).owned =
        ({ m with
            heap
            findings := { m.findings with
              items := m.findings.items.filter
                (FindingCell.staysAfter m.heap.content event firstSequence) } } :
          Memory lib α).owned := by
      simp only [Memory.owned, findingSlot, Layout.owned_nil]
      abel
    rw [hkept] at hnext
    exact hnext
  · -- a free changes no content, so the findings that stay read the same
    obtain rfl := hevent.read
    rw [← h.state]
    have hfindings : m.state.model.findings.items =
        m.findings.items.map (FindingCell.read m.heap.content) := rfl
    simp only [dropAttemptFindings, hfindings, List.filter_map]
    simp only [Memory.state, hcontent]
    rfl

/-- `EXECFAIL` compares its target with those of stored records and findings. -/
theorem rollbackFailedExec_represents (h : Represents own m st)
    (hevent : event.HeldBy own m value) :
    Follows own m (m.rollbackFailedExec event) (rollbackFailedExec value st) := by
  obtain rfl := hevent.read
  have hempty : st.model.resources.items.isEmpty = m.resources.items.isEmpty := by
    rw [← h.state]
    exact List.isEmpty_map
  rw [Memory.rollbackFailedExec, rollbackFailedExec, hempty]
  refine .ite Iff.rfl (fun _ => .refl h) fun _ => ?_
  have hclear := Follows.step (f := fun st : State lib =>
    st.setFds (clearPending event.fields.pid st.model.fds.items)) (fun _ => rfl) h
  apply hclear.trans
  generalize hm₁ : (m.step fun st : State lib =>
    st.setFds (clearPending event.fields.pid st.model.fds.items)) = m₁ at hclear ⊢
  have hcontent : m₁.heap.content = m.heap.content := by
    rw [← hm₁]
    rfl
  have hevent₁ : event.HeldBy own m₁ (event.read m.heap.content) :=
    EventCell.HeldBy.follows ⟨hevent.owned, rfl⟩ hclear
  have htouch : m₁.touch (event.target :: m₁.resources.items.map EventCell.target) = m₁ := by
    apply hclear.represents.touch
    intro a ha
    rw [blocks_cons, Multiset.mem_add] at ha
    rcases ha with hmine | htable
    · refine Or.inr (hevent.owned a (mem_blocks.2 ?_))
      simp [EventCell.pointers, mem_block.1 hmine]
    · refine Or.inl ((resourceSlot lib α).mem_owned_column rfl (fun stored => ?_) htable)
      simp [resourceSlot, eventLayout, EventCell.pointers]
  have hresources : m₁.resources.items.map (EventCell.read m.heap.content) =
      st.model.resources.items := by
    rw [← hm₁, ← h.state]
    rfl
  simp only [htouch, hcontent, hresources]
  exact compactFindings_represents hclear.represents hevent₁ rfl

/-! ## One record, and the end of the log -/

/-- The `switch` on the kind of a record. -/
theorem ingestKind_represents (h : Represents own m st) (hevent : event.HeldBy own m value) :
    Follows own m (m.ingestKind event) (ingestKind value st) := by
  have halloc := ingestAlloc_represents h hevent
  have hfree := ingestFree_represents h hevent
  have hrealloc := ingestRealloc_represents h hevent
  have hexec := ingestExec_represents h hevent
  have hfail := rollbackFailedExec_represents h hevent
  obtain rfl := hevent.read
  have hkind : (event.read m.heap.content).kind = event.fields.kind := rfl
  rw [Memory.ingestKind, ingestKind, hkind]
  cases event.fields.kind with
  | fdOpen => exact .step (keepsTexts_pushLiveFd _) h
  | fdClose => exact .step (keepsTexts_ingestFdClose event.fields) h
  | alloc => exact halloc
  | free => exact hfree
  | realloc => exact hrealloc
  | fork => exact .step (keepsTexts_ingestFork event.fields) h
  | spawn => exact .refl h
  | exec => exact hexec
  | execFail => exact hfail
  | generic => exact .refl h

/-- **One record** does on a memory what it does on the state. -/
theorem ingestResource_represents (h : Represents own m st) (hevent : event.HeldBy own m value) :
    Follows own m (m.ingestResource event) (ingestResource st value) := by
  have hkind : value.kind = event.fields.kind := by
    rw [← hevent.read]
    rfl
  have hpid : value.pid = event.fields.pid := by
    rw [← hevent.read]
    rfl
  -- the pending exec is settled, the event stored, and handed to the library
  have hfinish : Follows own m
      (if event.fields.kind ≠ .exec ∧ event.fields.kind ≠ .execFail then
        m.step (finishExec event.fields.pid false) else m)
      (if value.kind ≠ .exec ∧ value.kind ≠ .execFail then finishExec value.pid false st
        else st) := by
    rw [hkind, hpid]
    exact .ite Iff.rfl (fun _ => .step (keepsTexts_finishExec _ _) h) fun _ => .refl h
  rw [Memory.ingestResource, ingestResource]
  have hadd := addResourceEvent_represents hfinish.represents (hevent.follows hfinish)
  have hstored := hfinish.trans hadd
  refine .ite hstored.represents.error_iff (fun _ => hstored) fun _ => ?_
  have hevent₂ := hevent.follows hstored
  have hsame : forwarded event.fields.kind = true ↔ forwarded value.kind = true := by rw [hkind]
  have hforward := Follows.ite hsame
    (fun _ => ingestGeneric_represents hstored.represents hevent₂)
    fun _ => .refl hstored.represents
  have hall := hstored.trans hforward
  exact hall.trans (ingestKind_represents hall.represents (hevent.follows hall))

/-- **The end of the log.** -/
theorem finalizeLeaks_represents (h : Represents own m st) :
    Follows own m m.finalizeLeaks (finalizeLeaks st) := by
  have hpending := Follows.step (f := fun st : State lib =>
    finishPending st.model.fds.items.length st)
    (fun st => keepsTexts_finishPending st.model.fds.items.length st) h
  exact hpending.trans (finalizeGeneric_represents hpending.represents)

end P101Report
