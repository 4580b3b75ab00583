import Mathlib

/-!
# Unordered tables with swap removal

A table is a list of entries whose order carries no meaning. An entry is removed by moving the
last entry into its place (`swapRemove`), the first entry satisfying a predicate is removed
(`removeFirst`) or rewritten in place (`modifyFirst`), and `sweep` visits every entry once from the
front, rewriting it or swap-removing it.

Swap removal only permutes the survivors, so up to `List.Perm` the operations are `List.eraseP` and
`List.filterMap` (`removeFirst_perm`, `sweep_perm`). When a key separates the entries that satisfy
the predicate, the first match is the only one and `removeFirst` is a filter
(`removeFirst_perm_filter`).
-/

set_option autoImplicit false

namespace SwapTable

universe u v

variable {α : Type u} {κ : Type v}

/-- Removal of the entry at `index`: the last entry takes its place. -/
def swapRemove (l : List α) (index : Nat) : List α :=
  match l.getLast? with
  | none => []
  | some last => (l.set index last).dropLast

/-- Removal of the first entry that satisfies `p`. -/
def removeFirst (p : α → Bool) (l : List α) : List α :=
  match l.findIdx? p with
  | none => l
  | some index => swapRemove l index

/-- Rewriting of the first entry that satisfies `p`. -/
def modifyFirst (p : α → Bool) (f : α → α) (l : List α) : List α :=
  match l.findIdx? p with
  | none => l
  | some index => l.modify index f

/-- A pass over the last `remaining` entries from the front. An entry that `f` maps to `some y`
becomes `y`; one that `f` maps to `none` is swap-removed, and its place is visited again. The second
component collects the removed entries in order. -/
def sweep (f : α → Option α) : Nat → List α → List α × List α
  | 0, l => (l, [])
  | remaining + 1, l =>
    match l[l.length - (remaining + 1)]? with
    | none => (l, [])
    | some x =>
      match f x with
      | some y => sweep f remaining (l.set (l.length - (remaining + 1)) y)
      | none =>
        let rest := sweep f remaining (swapRemove l (l.length - (remaining + 1)))
        (rest.1, x :: rest.2)

/-! ## Swap removal -/

/-- The entries after a removed one, with the last of them in its place. -/
def lastToFront (l : List α) : List α :=
  match l.getLast? with
  | none => []
  | some last => last :: l.dropLast

theorem lastToFront_perm (l : List α) : (lastToFront l).Perm l := by
  rcases List.eq_nil_or_concat l with rfl | ⟨init, last, rfl⟩
  · exact List.Perm.refl _
  · simpa [lastToFront] using (List.perm_append_singleton last init).symm

theorem swapRemove_append_cons (pre : List α) (x : α) (post : List α) :
    swapRemove (pre ++ x :: post) pre.length = pre ++ lastToFront post := by
  rcases List.eq_nil_or_concat post with rfl | ⟨init, last, rfl⟩
  · simp [swapRemove, lastToFront]
  · have hlast : (pre ++ x :: (init ++ [last])).getLast? = some last := by
      rw [← List.cons_append, ← List.append_assoc, List.getLast?_append]
      rfl
    have hset : (pre ++ x :: (init ++ [last])).set pre.length last =
        (pre ++ last :: init) ++ [last] := by simp
    simp only [swapRemove, List.concat_eq_append, hlast, hset, List.dropLast_concat]
    simp [lastToFront]

theorem swapRemove_perm (pre : List α) (x : α) (post : List α) :
    (swapRemove (pre ++ x :: post) pre.length).Perm (pre ++ post) := by
  rw [swapRemove_append_cons]
  exact (lastToFront_perm post).append_left pre

theorem swapRemove_length (l : List α) (index : Nat) :
    (swapRemove l index).length = l.length - 1 := by
  rw [swapRemove]
  cases hlast : l.getLast? with
  | none =>
    rw [List.getLast?_eq_none_iff.1 hlast]
    rfl
  | some last => rw [List.length_dropLast, List.length_set]

/-! ## The first match -/

theorem findIdx?_split {p : α → Bool} {l : List α} {index : Nat}
    (h : l.findIdx? p = some index) :
    ∃ pre x post, l = pre ++ x :: post ∧ pre.length = index ∧ p x = true ∧
      ∀ y ∈ pre, p y = false := by
  obtain ⟨hlt, hp, hbefore⟩ := List.findIdx?_eq_some_iff_getElem.1 h
  refine ⟨l.take index, l[index], l.drop (index + 1), ?_, ?_, hp, ?_⟩
  · rw [List.cons_getElem_drop_succ, List.take_append_drop]
  · simp [Nat.le_of_lt hlt]
  · intro y hy
    obtain ⟨j, hj, rfl⟩ := List.mem_take_iff_getElem.1 hy
    simpa using hbefore j (by omega)

theorem findIdx?_eq_none {p : α → Bool} {l : List α} (h : l.findIdx? p = none) :
    ∀ x ∈ l, p x = false := List.findIdx?_eq_none_iff.1 h

theorem removeFirst_of_none {p : α → Bool} {l : List α} (h : ∀ x ∈ l, p x = false) :
    removeFirst p l = l := by
  simp [removeFirst, List.findIdx?_eq_none_iff.2 h]

/-- Up to order, the first match is erased. -/
theorem removeFirst_perm (p : α → Bool) (l : List α) : (removeFirst p l).Perm (l.eraseP p) := by
  rw [removeFirst]
  cases h : l.findIdx? p with
  | none =>
    have hnone := findIdx?_eq_none h
    rw [List.eraseP_of_forall_not (by simpa using hnone)]
  | some index =>
    obtain ⟨pre, x, post, rfl, rfl, hx, hpre⟩ := findIdx?_split h
    have herase : (pre ++ x :: post).eraseP p = pre ++ post := by
      rw [List.eraseP_append_right _ (by simpa using hpre), List.eraseP_cons_of_pos hx]
    rw [herase]
    exact swapRemove_perm pre x post

/-- When all matches are the same entry, which of them is erased does not depend on the order. -/
theorem eraseP_perm {p : α → Bool} {l l' : List α} (h : l.Perm l')
    (hsame : ∀ x ∈ l, ∀ y ∈ l, p x = true → p y = true → x = y) :
    (l.eraseP p).Perm (l'.eraseP p) := by
  by_cases hany : ∃ x ∈ l, p x = true
  · obtain ⟨x, hx, hpx⟩ := hany
    obtain ⟨a, pre, post, -, ha, hl, herase⟩ := List.exists_of_eraseP hx hpx
    obtain ⟨b, pre', post', -, hb, hl', herase'⟩ := List.exists_of_eraseP (h.mem_iff.1 hx) hpx
    have hmem : b ∈ l := h.mem_iff.2 (by simp [hl'])
    obtain rfl : a = b := hsame a (by simp [hl]) b hmem ha hb
    have hfront : (a :: l.eraseP p).Perm l := by
      rw [herase, hl]
      exact List.perm_middle.symm
    have hfront' : (a :: l'.eraseP p).Perm l' := by
      rw [herase', hl']
      exact List.perm_middle.symm
    exact ((hfront.trans h).trans hfront'.symm).cons_inv
  · have hnone : ∀ x ∈ l, ¬ p x = true := fun x hx hpx => hany ⟨x, hx, hpx⟩
    have hnone' : ∀ x ∈ l', ¬ p x = true := fun x hx => hnone x (h.mem_iff.2 hx)
    rw [List.eraseP_of_forall_not hnone, List.eraseP_of_forall_not hnone']
    exact h

theorem removeFirst_length_le (p : α → Bool) (l : List α) :
    (removeFirst p l).length ≤ l.length := by
  rw [removeFirst]
  split
  · exact Nat.le_refl _
  · rw [swapRemove_length]
    exact Nat.sub_le _ _

theorem mem_of_mem_removeFirst {p : α → Bool} {l : List α} {x : α} (h : x ∈ removeFirst p l) :
    x ∈ l :=
  List.mem_of_mem_eraseP ((removeFirst_perm p l).mem_iff.1 h)

theorem mem_removeFirst_of_neg {p : α → Bool} {l : List α} {x : α} (h : x ∈ l)
    (hx : p x = false) : x ∈ removeFirst p l :=
  (removeFirst_perm p l).mem_iff.2 ((List.mem_eraseP_of_neg (by simp [hx])).2 h)

/-- Removing the first match counts one match less. -/
theorem countP_removeFirst_self (p : α → Bool) (l : List α) :
    (removeFirst p l).countP p = l.countP p - 1 := by
  rw [(removeFirst_perm p l).countP_eq]
  induction l with
  | nil => rfl
  | cons x rest ih =>
    cases hx : p x with
    | true => rw [List.eraseP_cons_of_pos hx, List.countP_cons_of_pos hx, Nat.add_sub_cancel]
    | false =>
      rw [List.eraseP_cons_of_neg (by simp [hx]), List.countP_cons_of_neg (by simp [hx]),
        List.countP_cons_of_neg (by simp [hx]), ih]

theorem countP_removeFirst_other {p q : α → Bool} {l : List α}
    (h : ∀ x, q x = true → p x = false) : (removeFirst q l).countP p = l.countP p := by
  rw [(removeFirst_perm q l).countP_eq]
  induction l with
  | nil => rfl
  | cons x rest ih =>
    cases hx : q x with
    | true => rw [List.eraseP_cons_of_pos hx, List.countP_cons_of_neg (by simp [h x hx])]
    | false => rw [List.eraseP_cons_of_neg (by simp [hx]), List.countP_cons, List.countP_cons, ih]

/-- With at most one match, erasing the first match erases all of them. -/
theorem eraseP_eq_filter {p : α → Bool} {key : α → κ} {l : List α}
    (hnodup : (l.map key).Nodup) (hkey : ∀ x y, p x = true → p y = true → key x = key y) :
    l.eraseP p = l.filter (fun x => !p x) := by
  induction l with
  | nil => rfl
  | cons x rest ih =>
    rw [List.map_cons, List.nodup_cons] at hnodup
    cases hx : p x with
    | true =>
      have hrest : ∀ y ∈ rest, p y = false := by
        intro y hy
        by_contra hpy
        exact hnodup.1 (List.mem_map.2 ⟨y, hy, hkey y x (by simpa using hpy) hx⟩)
      rw [List.eraseP_cons_of_pos hx, List.filter_cons_of_neg (by simp [hx])]
      exact (List.filter_eq_self.2 fun y hy => by simp [hrest y hy]).symm
    | false =>
      rw [List.eraseP_cons_of_neg (by simp [hx]), List.filter_cons_of_pos (by simp [hx]),
        ih hnodup.2]

theorem removeFirst_perm_filter {p : α → Bool} {key : α → κ} {l : List α}
    (hnodup : (l.map key).Nodup) (hkey : ∀ x y, p x = true → p y = true → key x = key y) :
    (removeFirst p l).Perm (l.filter fun x => !p x) := by
  rw [← eraseP_eq_filter hnodup hkey]
  exact removeFirst_perm p l

theorem removeFirst_keys_nodup {p : α → Bool} {key : α → κ} {l : List α}
    (hnodup : (l.map key).Nodup) : ((removeFirst p l).map key).Nodup :=
  ((removeFirst_perm p l).map key).nodup_iff.2
    (hnodup.sublist (List.eraseP_sublist.map key))

/-- A pass that keeps or drops entries keeps their keys distinct. -/
theorem filterMap_keys_nodup {f : α → Option α} {key : α → κ} {l : List α}
    (hkey : ∀ x y, f x = some y → key y = key x) (hnodup : (l.map key).Nodup) :
    ((l.filterMap f).map key).Nodup := by
  refine hnodup.sublist ?_
  induction l with
  | nil => exact List.Sublist.refl _
  | cons x rest ih =>
    rw [List.map_cons, List.nodup_cons] at hnodup
    cases hx : f x with
    | none =>
      rw [List.filterMap_cons_none hx, List.map_cons]
      exact (ih hnodup.2).cons _
    | some y =>
      rw [List.filterMap_cons_some hx, List.map_cons, List.map_cons, hkey x y hx]
      exact (ih hnodup.2).cons_cons _

/-! ## Rewriting the first match -/

theorem modifyFirst_of_none {p : α → Bool} {f : α → α} {l : List α}
    (h : ∀ x ∈ l, p x = false) : modifyFirst p f l = l := by
  simp [modifyFirst, List.findIdx?_eq_none_iff.2 h]

theorem modifyFirst_append_cons {p : α → Bool} {f : α → α} {pre : List α} {x : α} {post : List α}
    (hpre : ∀ y ∈ pre, p y = false) (hx : p x = true) :
    modifyFirst p f (pre ++ x :: post) = pre ++ f x :: post := by
  have hidx : (pre ++ x :: post).findIdx? p = some pre.length := by
    rw [List.findIdx?_append, List.findIdx?_eq_none_iff.2 hpre]
    simp [List.findIdx?_cons, hx]
  have hmodify : (pre ++ x :: post).modify pre.length f = pre ++ f x :: post := by
    rw [List.modify_eq_take_cons_drop (by simp)]
    simp
  simp only [modifyFirst, hidx, hmodify]

/-- A rewriting acts on the table as `f` on one match, or leaves it alone when there is none. -/
theorem modifyFirst_cases (p : α → Bool) (f : α → α) (l : List α) :
    ((∀ x ∈ l, p x = false) ∧ modifyFirst p f l = l) ∨
      ∃ pre x post, l = pre ++ x :: post ∧ p x = true ∧ (∀ y ∈ pre, p y = false) ∧
        modifyFirst p f l = pre ++ f x :: post := by
  cases h : l.findIdx? p with
  | none =>
    have hnone := findIdx?_eq_none h
    exact Or.inl ⟨hnone, modifyFirst_of_none hnone⟩
  | some index =>
    obtain ⟨pre, x, post, rfl, rfl, hx, hpre⟩ := findIdx?_split h
    exact Or.inr ⟨pre, x, post, rfl, hx, hpre, modifyFirst_append_cons hpre hx⟩

/-- A rewriting that leaves the first match as it is. -/
theorem modifyFirst_of_fixed {p : α → Bool} {f : α → α} {l : List α}
    (h : ∀ x, l.find? p = some x → f x = x) : modifyFirst p f l = l := by
  rcases modifyFirst_cases p f l with ⟨-, heq⟩ | ⟨pre, x, post, rfl, hx, hpre, heq⟩
  · exact heq
  · have hfind : (pre ++ x :: post).find? p = some x := by
      rw [List.find?_append, List.find?_eq_none.2 (by simpa using hpre)]
      simp [hx]
    rw [heq, h x hfind]

theorem modifyFirst_length (p : α → Bool) (f : α → α) (l : List α) :
    (modifyFirst p f l).length = l.length := by
  rw [modifyFirst]
  split
  · rfl
  · exact List.length_modify _ _ _

/-- A view that the rewriting does not touch is unchanged. -/
theorem modifyFirst_map {γ : Type v} (p : α → Bool) (f : α → α) (view : α → γ)
    (l : List α) (hview : ∀ x ∈ l, p x = true → view (f x) = view x) :
    (modifyFirst p f l).map view = l.map view := by
  rcases modifyFirst_cases p f l with ⟨-, h⟩ | ⟨pre, x, post, rfl, hx, -, h⟩
  · rw [h]
  · simp [h, hview x (by simp) hx]

theorem mem_modifyFirst {p : α → Bool} {f : α → α} {l : List α} {y : α}
    (h : y ∈ modifyFirst p f l) : y ∈ l ∨ ∃ x ∈ l, p x = true ∧ y = f x := by
  rcases modifyFirst_cases p f l with ⟨-, heq⟩ | ⟨pre, x, post, rfl, hx, -, heq⟩
  · exact Or.inl (heq ▸ h)
  · rw [heq, List.mem_append, List.mem_cons] at h
    rcases h with h | rfl | h
    · exact Or.inl (by simp [h])
    · exact Or.inr ⟨x, by simp, hx, rfl⟩
    · exact Or.inl (by simp [h])

theorem mem_modifyFirst_of_neg {p : α → Bool} {f : α → α} {l : List α} {x : α} (h : x ∈ l)
    (hx : p x = false) : x ∈ modifyFirst p f l := by
  rcases modifyFirst_cases p f l with ⟨-, heq⟩ | ⟨pre, z, post, rfl, hz, -, heq⟩
  · exact heq.symm ▸ h
  · rw [heq]
    have hne : x ≠ z := by rintro rfl; simp [hx] at hz
    simp only [List.mem_append, List.mem_cons, hne, false_or] at h ⊢
    tauto

theorem sweep_append (f : α → Option α) (done todo : List α) :
    (sweep f todo.length (done ++ todo)).1.Perm (done ++ todo.filterMap f) ∧
      (sweep f todo.length (done ++ todo)).2.Perm (todo.filter fun x => (f x).isNone) := by
  -- the entries of `done` have been visited; swap removal permutes only `todo`
  induction hn : todo.length generalizing done todo with
  | zero =>
    obtain rfl := List.length_eq_zero_iff.1 hn
    exact ⟨by simp [sweep], by simp [sweep]⟩
  | succ n ih =>
    obtain ⟨x, rest, rfl⟩ := List.exists_cons_of_length_eq_add_one hn
    have hrest : rest.length = n := by simpa using hn
    have hindex : (done ++ x :: rest).length - (n + 1) = done.length := by
      simp [hrest]
    have hget : (done ++ x :: rest)[done.length]? = some x := by simp
    cases hf : f x with
    | some y =>
      have hset : (done ++ x :: rest).set done.length y = (done ++ [y]) ++ rest := by simp
      have hstep : sweep f (n + 1) (done ++ x :: rest) = sweep f n ((done ++ [y]) ++ rest) := by
        rw [sweep, hindex, hget]
        simp only [hf, hset]
      obtain ⟨hkept, hremoved⟩ := ih (done ++ [y]) rest hrest
      rw [hstep]
      refine ⟨?_, ?_⟩
      · simpa [hf] using hkept
      · simpa [hf] using hremoved
    | none =>
      have hlen : (lastToFront rest).length = n := by
        rw [(lastToFront_perm rest).length_eq, hrest]
      have hstep : sweep f (n + 1) (done ++ x :: rest) =
          ((sweep f n (done ++ lastToFront rest)).1,
            x :: (sweep f n (done ++ lastToFront rest)).2) := by
        rw [sweep, hindex, hget]
        simp only [hf, swapRemove_append_cons]
      obtain ⟨hkept, hremoved⟩ := ih done (lastToFront rest) hlen
      rw [hstep]
      refine ⟨?_, ?_⟩
      · rw [List.filterMap_cons_none hf]
        exact hkept.trans (((lastToFront_perm rest).filterMap f).append_left done)
      · rw [List.filter_cons_of_pos (by simp [hf])]
        exact (hremoved.trans ((lastToFront_perm rest).filter _)).cons x

/-- A full sweep rewrites or removes every entry exactly once. -/
theorem sweep_perm (f : α → Option α) (l : List α) :
    (sweep f l.length l).1.Perm (l.filterMap f) ∧
      (sweep f l.length l).2.Perm (l.filter fun x => (f x).isNone) := by
  simpa using sweep_append f [] l

/-- A sweep that removes nothing keeps the order. -/
theorem sweep_of_some {f : α → Option α} {g : α → α} (done todo : List α)
    (h : ∀ x ∈ todo, f x = some (g x)) :
    sweep f todo.length (done ++ todo) = (done ++ todo.map g, []) := by
  induction todo generalizing done with
  | nil => simp [sweep]
  | cons x rest ih =>
    have hindex : (done ++ x :: rest).length - (rest.length + 1) = done.length := by simp
    have hset : (done ++ x :: rest).set done.length (g x) = (done ++ [g x]) ++ rest := by simp
    have hget : (done ++ x :: rest)[done.length]? = some x := by simp
    rw [List.length_cons, sweep, hindex, hget]
    simp only [h x (by simp), hset]
    rw [ih (done ++ [g x]) fun y hy => h y (by simp [hy])]
    simp

end SwapTable
