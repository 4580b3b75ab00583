import Mathlib

/-!
# Blocks and their owners

A heap hands out blocks at addresses of the allocator's choice: any address that is not live, so an
address comes back as soon as its block has been freed. To free, or to read through, a pointer that
points to no live block is a misuse, and the heap records it (`Heap.misused`).

A heap belongs to the owners of some blocks (`Heap.Owns`) when the live blocks are those that have
an owner, and each has one. From the owners one reads off that a pointer may be freed
(`Heap.Owns.free`) and read (`Heap.Owns.touch`), and that nothing is lost. `Layout` is a kind of
cell with pointers in it; the cells of a table own what they point to.
-/

set_option autoImplicit false

namespace Ownership

universe u v w x

variable {α : Type u} {β : Type v}

/-! ## Pointers -/

/-- The block that a pointer points to; `none` is a null pointer. -/
def block : Option α → Multiset α
  | none => 0
  | some a => {a}

/-- The blocks that pointers point to, each as often as it is pointed to. -/
def blocks (ps : List (Option α)) : Multiset α := (ps.map block).sum

@[simp] theorem block_none : block (none : Option α) = 0 := rfl

@[simp] theorem block_some (a : α) : block (some a) = {a} := rfl

@[simp] theorem mem_block {p : Option α} {a : α} : a ∈ block p ↔ p = some a := by
  cases p with
  | none => simp
  | some b => simp [eq_comm]

@[simp] theorem blocks_nil : blocks ([] : List (Option α)) = 0 := rfl

@[simp] theorem blocks_cons (p : Option α) (ps : List (Option α)) :
    blocks (p :: ps) = block p + blocks ps := by
  rw [blocks, List.map_cons, List.sum_cons]
  rfl

@[simp] theorem blocks_append (ps qs : List (Option α)) :
    blocks (ps ++ qs) = blocks ps + blocks qs := by
  rw [blocks, List.map_append, List.sum_append]
  rfl

theorem blocks_perm {ps qs : List (Option α)} (h : ps.Perm qs) : blocks ps = blocks qs :=
  (h.map block).sum_eq

theorem mem_blocks {ps : List (Option α)} {a : α} : a ∈ blocks ps ↔ some a ∈ ps := by
  induction ps with
  | nil => simp
  | cons p ps ih => simp [ih, eq_comm]

/-- What a pointer reads depends on its block only. -/
theorem map_congr_block {γ : Type w} {f g : α → γ} {p : Option α}
    (h : ∀ a ∈ block p, f a = g a) : p.map f = p.map g := by
  cases p with
  | none => rfl
  | some a => exact congrArg some (h a (Multiset.mem_singleton_self a))

/-! ## The heap -/

/-- The choice of addresses: for the allocations served so far and the live blocks, any address that
is not live. -/
structure Allocator (α : Type u) where
  pick : Nat → Finset α → α
  pick_notMem : ∀ served live, pick served live ∉ live

/-- An allocator that places each block above the live ones. -/
def Allocator.above : Allocator ℕ where
  pick _ live := live.sup id + 1
  pick_notMem _ live hlive := by
    have hle : live.sup id + 1 ≤ live.sup id := Finset.le_sup (f := id) hlive
    omega

/-- The live blocks, what is in a block, and whether a dead pointer has been used. -/
structure Heap (α : Type u) (β : Type v) where
  allocator : Allocator α
  served : Nat
  live : Finset α
  content : α → β
  misused : Bool

namespace Heap

/-- A heap in which nothing has been allocated. -/
def empty (allocator : Allocator α) (content : α → β) : Heap α β :=
  ⟨allocator, 0, ∅, content, false⟩

/-- The live blocks are those that have an owner, each has one, and no dead pointer has been
used. -/
structure Owns (h : Heap α β) (owners : Multiset α) : Prop where
  live : h.live.val = owners
  sound : h.misused = false

theorem owns_empty (allocator : Allocator α) (content : α → β) :
    (empty allocator content).Owns 0 := ⟨rfl, rfl⟩

theorem Owns.mem_live {h : Heap α β} {owners : Multiset α} (ho : h.Owns owners) {a : α} :
    a ∈ h.live ↔ a ∈ owners := by
  rw [← ho.live, Finset.mem_val]

/-- The blocks of a heap are live and unchanged in the other. -/
structure Extends (h h' : Heap α β) : Prop where
  live : ∀ a ∈ h.live, a ∈ h'.live
  content : ∀ a ∈ h.live, h'.content a = h.content a

theorem Extends.refl (h : Heap α β) : h.Extends h := ⟨fun _ ha => ha, fun _ _ => rfl⟩

theorem Extends.trans {h h' h'' : Heap α β} (h₁ : h.Extends h') (h₂ : h'.Extends h'') :
    h.Extends h'' where
  live a ha := h₂.live a (h₁.live a ha)
  content a ha := (h₂.content a (h₁.live a ha)).trans (h₁.content a ha)

/-! ## Its operations -/

variable [DecidableEq α]

/-- A new block with its content. -/
def alloc (b : β) (h : Heap α β) : α × Heap α β :=
  let a := h.allocator.pick h.served h.live
  (a,
    { h with
      served := h.served + 1, live := insert a h.live, content := Function.update h.content a b })

/-- To free a null pointer does nothing. -/
def free (p : Option α) (h : Heap α β) : Heap α β :=
  match p with
  | none => h
  | some a => { h with live := h.live.erase a, misused := h.misused || decide (a ∉ h.live) }

/-- The pointers of a list are freed in order. -/
def freeAll (ps : List (Option α)) (h : Heap α β) : Heap α β := ps.foldl (fun h p => h.free p) h

/-- The pointers of a list are read through. -/
def touch (ps : List (Option α)) (h : Heap α β) : Heap α β :=
  { h with misused := h.misused || ps.any fun p => p.any fun a => decide (a ∉ h.live) }

@[simp] theorem free_content (p : Option α) (h : Heap α β) : (h.free p).content = h.content := by
  cases p <;> rfl

@[simp] theorem freeAll_content (ps : List (Option α)) (h : Heap α β) :
    (h.freeAll ps).content = h.content := by
  induction ps generalizing h with
  | nil => rfl
  | cons p ps ih => exact (ih (h.free p)).trans (free_content p h)

@[simp] theorem alloc_content_self (b : β) (h : Heap α β) :
    (h.alloc b).2.content (h.alloc b).1 = b := Function.update_self ..

/-- An allocation leaves the live blocks as they are. -/
theorem extends_alloc (b : β) (h : Heap α β) : h.Extends (h.alloc b).2 where
  live _ ha := Finset.mem_insert_of_mem ha
  content a ha := by
    apply Function.update_of_ne
    rintro rfl
    exact h.allocator.pick_notMem h.served h.live ha

variable {h : Heap α β} {owners : Multiset α}

/-- The caller owns a new block. -/
theorem Owns.alloc (ho : h.Owns owners) (b : β) :
    (h.alloc b).2.Owns (block (some (h.alloc b).1) + owners) := by
  refine ⟨?_, ho.sound⟩
  -- the address was not live, so the block is counted once
  have hnew := h.allocator.pick_notMem h.served h.live
  calc (insert (h.allocator.pick h.served h.live) h.live).val
      = (h.allocator.pick h.served h.live) ::ₘ h.live.val := Finset.insert_val_of_notMem hnew
    _ = _ := by rw [ho.live, block_some, Multiset.singleton_add]; rfl

/-- **An owner may free.** -/
theorem Owns.free {p : Option α} (ho : h.Owns (block p + owners)) : (h.free p).Owns owners := by
  cases p with
  | none =>
    rw [block_none, zero_add] at ho
    exact ho
  | some a =>
    -- a block with an owner is live, so to free it is no misuse
    have ha : a ∈ h.live := ho.mem_live.2 (by simp)
    refine ⟨?_, by simp [Heap.free, ho.sound, ha]⟩
    have hval : (h.live.erase a).val = h.live.val.erase a := Finset.erase_val h.live a
    rw [Heap.free, hval, ho.live, block_some, Multiset.singleton_add, Multiset.erase_cons_head]

theorem Owns.freeAll {ps : List (Option α)} (ho : h.Owns (blocks ps + owners)) :
    (h.freeAll ps).Owns owners := by
  induction ps generalizing h with
  | nil =>
    rw [blocks_nil, zero_add] at ho
    exact ho
  | cons p ps ih =>
    rw [blocks_cons, add_assoc] at ho
    exact ih ho.free

/-- **A pointer to an owned block may be read.** -/
theorem Owns.touch (ho : h.Owns owners) {ps : List (Option α)}
    (hps : ∀ a ∈ blocks ps, a ∈ owners) : h.touch ps = h := by
  have hlive : (ps.any fun p => p.any fun a => decide (a ∉ h.live)) = false := by
    refine List.any_eq_false.2 fun p hp => ?_
    cases p with
    | none => simp
    | some a => simpa using ho.mem_live.2 (hps a (mem_blocks.2 hp))
  rw [Heap.touch, hlive, Bool.or_false]

end Heap

/-! ## Cells with pointers -/

/-- A kind of cell: its pointers, and the value it stands for when they are read. -/
structure Layout (α : Type u) (β : Type v) (κ : Type w) (ν : Type x) where
  pointers : κ → List (Option α)
  value : (α → β) → κ → ν
  value_congr : ∀ {f g : α → β} {cell : κ}, (∀ a ∈ blocks (pointers cell), f a = g a) →
    value f cell = value g cell

namespace Layout

variable {κ : Type w} {ν : Type x} (L : Layout α β κ ν)

/-- What the cells of a table own. -/
def owned (cells : List κ) : Multiset α := blocks (cells.flatMap L.pointers)

@[simp] theorem owned_nil : L.owned [] = 0 := rfl

@[simp] theorem owned_cons (cell : κ) (cells : List κ) :
    L.owned (cell :: cells) = blocks (L.pointers cell) + L.owned cells := by
  rw [owned, List.flatMap_cons, blocks_append]
  rfl

@[simp] theorem owned_append (cells cells' : List κ) :
    L.owned (cells ++ cells') = L.owned cells + L.owned cells' := by
  rw [owned, List.flatMap_append, blocks_append]
  rfl

/-- What the cells own does not depend on their order. -/
theorem owned_perm {cells cells' : List κ} (h : cells.Perm cells') :
    L.owned cells = L.owned cells' := blocks_perm (h.flatMap_right L.pointers)

theorem mem_owned {cells : List κ} {cell : κ} (hcell : cell ∈ cells) {a : α}
    (ha : a ∈ blocks (L.pointers cell)) : a ∈ L.owned cells :=
  mem_blocks.2 (List.mem_flatMap.2 ⟨cell, hcell, mem_blocks.1 ha⟩)

/-- What the cells stand for depends on the blocks they own only. -/
theorem values_congr {f g : α → β} {cells : List κ} (h : ∀ a ∈ L.owned cells, f a = g a) :
    cells.map (L.value f) = cells.map (L.value g) :=
  List.map_congr_left fun _ hcell => L.value_congr fun a ha => h a (L.mem_owned hcell ha)

end Layout

end Ownership
