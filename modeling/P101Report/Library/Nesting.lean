import Mathlib

/-!
# Nested brackets

A word of labelled brackets, with letters of others between them. The open brackets form a stack of
positions (`openStack`); in a well-nested word each closing bracket has the label of the innermost
open one, which it closes (`Closes`). The bracket that closes a given one can be found by counting
the brackets with its label alone (`scan_eq_some_iff`): whatever is opened between the two is also
closed between them.
-/

set_option autoImplicit false

namespace Nesting

/-- A letter of a word. -/
inductive Letter (β : Type)
  | other
  | opens (label : β)
  | closes (label : β)
  deriving DecidableEq

variable {β : Type} [DecidableEq β]

/-- The open brackets after a word that begins at position `k`, innermost first, with their
positions. There are none when a bracket is closed that is not the innermost open one. -/
def openStack : List (Letter β) → Nat → List (Nat × β) → Option (List (Nat × β))
  | [], _, stack => some stack
  | .other :: rest, k, stack => openStack rest (k + 1) stack
  | .opens label :: rest, k, stack => openStack rest (k + 1) ((k, label) :: stack)
  | .closes _ :: _, _, [] => none
  | .closes label :: rest, k, top :: stack =>
    if top.2 = label then openStack rest (k + 1) stack else none

/-- Each closing bracket has the label of the innermost open one. -/
def WellNested (word : List (Letter β)) : Prop := (openStack word 0 []).isSome = true

instance (word : List (Letter β)) : Decidable (WellNested word) :=
  inferInstanceAs (Decidable (_ = true))

/-- The bracket at `j` closes the one at `i`: it is a closing bracket, and the one at `i` is then
the innermost open one. -/
def Closes (word : List (Letter β)) (i j : Nat) : Prop :=
  ∃ label below, word[j]? = some (.closes label) ∧
    openStack (word.take j) 0 [] = some ((i, label) :: below)

/-- Counting the brackets with one label from position `k` on: where the count falls to zero. -/
def scan (label : β) : List (Letter β) → Nat → Nat → Option Nat
  | [], _, _ => none
  | .other :: rest, k, depth => scan label rest (k + 1) depth
  | .opens own :: rest, k, depth =>
    if own = label then scan label rest (k + 1) (depth + 1) else scan label rest (k + 1) depth
  | .closes own :: rest, k, depth =>
    if own = label then
      if depth - 1 = 0 then some k else scan label rest (k + 1) (depth - 1)
    else scan label rest (k + 1) depth

/-! ## The stack -/

variable {word rest : List (Letter β)} {stack stack' : List (Nat × β)} {k : Nat}

theorem openStack_append (word rest : List (Letter β)) (k : Nat) (stack : List (Nat × β)) :
    openStack (word ++ rest) k stack =
      (openStack word k stack).bind (openStack rest (k + word.length)) := by
  induction word generalizing k stack with
  | nil => rfl
  | cons letter word ih =>
    have hlength : k + (letter :: word).length = k + 1 + word.length := by
      rw [List.length_cons]
      omega
    rw [List.cons_append, hlength]
    cases letter with
    | other => exact ih (k + 1) stack
    | opens label => exact ih (k + 1) ((k, label) :: stack)
    | closes label =>
      cases stack with
      | nil => rfl
      | cons top stack =>
        rw [openStack, openStack]
        split
        · exact ih (k + 1) stack
        · rfl

/-- The positions on the stack fall from the top on, and are all before `k`. -/
def Ordered (k : Nat) (stack : List (Nat × β)) : Prop :=
  stack.Pairwise (fun entry below => below.1 < entry.1) ∧ ∀ entry ∈ stack, entry.1 < k

/-- What a word leaves on the stack was there or has been opened in it. -/
theorem mem_openStack (h : openStack word k stack = some stack') :
    ∀ entry ∈ stack', entry ∈ stack ∨ k ≤ entry.1 := by
  induction word generalizing k stack with
  | nil =>
    rw [openStack, Option.some.injEq] at h
    subst h
    exact fun entry hentry => Or.inl hentry
  | cons letter word ih =>
    intro entry hentry
    cases letter with
    | other => exact (ih h entry hentry).imp_right fun hle => by omega
    | opens label =>
      rcases ih h entry hentry with hmem | hle
      · rcases List.mem_cons.1 hmem with rfl | hmem
        · exact Or.inr (Nat.le_refl k)
        · exact Or.inl hmem
      · exact Or.inr (by omega)
    | closes label =>
      cases stack with
      | nil => cases h
      | cons top stack =>
        rw [openStack] at h
        split at h
        · rcases ih h entry hentry with hmem | hle
          · exact Or.inl (List.mem_cons_of_mem _ hmem)
          · exact Or.inr (by omega)
        · cases h

theorem ordered_openStack (h : openStack word k stack = some stack') (hordered : Ordered k stack) :
    Ordered (k + word.length) stack' := by
  induction word generalizing k stack with
  | nil =>
    rw [openStack, Option.some.injEq] at h
    subst h
    exact hordered
  | cons letter word ih =>
    obtain ⟨hpairwise, hbefore⟩ := hordered
    have hlength : k + (letter :: word).length = k + 1 + word.length := by
      rw [List.length_cons]
      omega
    rw [hlength]
    cases letter with
    | other => exact ih h ⟨hpairwise, fun entry hentry => Nat.lt_succ_of_lt (hbefore entry hentry)⟩
    | opens label =>
      refine ih h ⟨List.pairwise_cons.2 ⟨hbefore, hpairwise⟩, ?_⟩
      intro entry hentry
      rcases List.mem_cons.1 hentry with rfl | hmem
      · exact Nat.lt_succ_self k
      · exact Nat.lt_succ_of_lt (hbefore entry hmem)
    | closes label =>
      cases stack with
      | nil => cases h
      | cons top stack =>
        rw [openStack] at h
        split at h
        · refine ih h ⟨(List.pairwise_cons.1 hpairwise).2, ?_⟩
          intro entry hentry
          exact Nat.lt_succ_of_lt (hbefore entry (List.mem_cons_of_mem _ hentry))
        · cases h

/-! ## Closing brackets -/

theorem openStack_take_isSome (h : WellNested word) (n : Nat) :
    ∃ stack, openStack (word.take n) 0 [] = some stack := by
  rw [WellNested, ← List.take_append_drop n word, openStack_append] at h
  cases hstack : openStack (word.take n) 0 [] with
  | none =>
    rw [hstack] at h
    cases h
  | some stack => exact ⟨stack, rfl⟩

/-- A bracket that has been closed does not come back. -/
theorem Closes.not_mem {i j n : Nat} (h : Closes word i j) (hn : j < n)
    (hstack : openStack (word.take n) 0 [] = some stack) : ∀ entry ∈ stack, entry.1 ≠ i := by
  obtain ⟨label, below, hletter, htop⟩ := h
  obtain ⟨hlt, hletter⟩ := List.getElem?_eq_some_iff.1 hletter
  -- the word up to `n` is the word up to `j`, the closing bracket and the letters behind it
  have hsplit : word.take n = word.take j ++ .closes label :: (word.take n).drop (j + 1) := by
    have hlt' : j < (word.take n).length := by
      rw [List.length_take]
      omega
    calc word.take n = (word.take n).take j ++ (word.take n).drop j :=
          (List.take_append_drop j _).symm
      _ = word.take j ++ .closes label :: (word.take n).drop (j + 1) := by
          rw [List.take_take, Nat.min_eq_left (by omega), List.drop_eq_getElem_cons hlt',
            List.getElem_take, hletter]
  rw [hsplit, openStack_append, htop, Option.bind_some, openStack, if_pos rfl, List.length_take,
    Nat.min_eq_left (by omega)] at hstack
  have hordered : Ordered (0 + (word.take j).length) ((i, label) :: below) :=
    ordered_openStack htop ⟨List.Pairwise.nil, by simp⟩
  obtain ⟨hfall, hbefore⟩ := hordered
  intro entry hentry heq
  rcases mem_openStack hstack entry hentry with hmem | hle
  · -- what was below it was opened before it
    have hlower := (List.pairwise_cons.1 hfall).1 entry hmem
    dsimp only at hlower
    omega
  · have hi := hbefore _ List.mem_cons_self
    rw [List.length_take] at hi
    dsimp only at hi
    omega

/-- A bracket is closed once. -/
theorem Closes.unique {i j j' : Nat} (h : Closes word i j) (h' : Closes word i j') : j = j' := by
  rcases Nat.lt_trichotomy j j' with hlt | heq | hlt
  · obtain ⟨label, below, -, htop⟩ := h'
    exact absurd rfl (h.not_mem hlt htop _ List.mem_cons_self)
  · exact heq
  · obtain ⟨label, below, -, htop⟩ := h
    exact absurd rfl (h'.not_mem hlt htop _ List.mem_cons_self)

/-! ## Counting -/

/-- The open brackets of a label. -/
def countOf (label : β) (stack : List (Nat × β)) : Nat :=
  stack.countP fun entry => entry.2 = label

theorem countOf_cons (label own : β) (position : Nat) (stack : List (Nat × β)) :
    countOf label ((position, own) :: stack) =
      if own = label then countOf label stack + 1 else countOf label stack := by
  rw [countOf, List.countP_cons, countOf]
  split <;> simp_all

/-- What a count from position `k` finds, with the bracket at `i` on the stack: the closing bracket
at which that one is the innermost, or nothing when it stays open. -/
def Finds (label : β) (i : Nat) (below : List (Nat × β)) (rest : List (Letter β)) (k depth : Nat)
    (stack : List (Nat × β)) : Prop :=
  (∃ j pre post, scan label rest k depth = some j ∧ rest = pre ++ .closes label :: post ∧
      j = k + pre.length ∧ openStack pre k stack = some ((i, label) :: below)) ∨
    (scan label rest k depth = none ∧
      ∃ above, openStack rest k stack = some (above ++ (i, label) :: below))

/-- A letter at which the count does not end. -/
theorem Finds.cons {label : β} {i : Nat} {below : List (Nat × β)} {letter : Letter β}
    {depth depth' : Nat} (h : Finds label i below rest (k + 1) depth' stack')
    (hscan : scan label (letter :: rest) k depth = scan label rest (k + 1) depth')
    (hstack : ∀ word, openStack (letter :: word) k stack = openStack word (k + 1) stack') :
    Finds label i below (letter :: rest) k depth stack := by
  rcases h with ⟨j, pre, post, hfound, rfl, rfl, htop⟩ | ⟨hnone, above, hopen⟩
  · refine Or.inl ⟨_, letter :: pre, post, hscan.trans hfound, rfl, ?_, ?_⟩
    · rw [List.length_cons]
      omega
    · rw [hstack, htop]
  · refine Or.inr ⟨hscan.trans hnone, above, ?_⟩
    rw [hstack, hopen]

/-- **Counting finds the closing bracket.** With the brackets `above` the one at `i` on the stack,
the count is one more than those of its label. -/
theorem scan_above {label : β} {i : Nat} {above below : List (Nat × β)}
    (hwell : (openStack rest k (above ++ (i, label) :: below)).isSome = true) :
    Finds label i below rest k (countOf label above + 1) (above ++ (i, label) :: below) := by
  induction rest generalizing k above with
  | nil => exact Or.inr ⟨rfl, above, rfl⟩
  | cons letter rest ih =>
    cases letter with
    | other => exact (ih hwell).cons rfl fun _ => rfl
    | opens own =>
      -- the bracket lies above, and is counted when it has the label
      have hinner : (openStack rest (k + 1) ((k, own) :: above ++ (i, label) :: below)).isSome =
          true := hwell
      apply (ih hinner).cons _ fun _ => rfl
      rw [scan, countOf_cons]
      split <;> rfl
    | closes own =>
      cases above with
      | nil =>
        -- the bracket at `i` is the innermost one, and this is where it is closed
        rw [List.nil_append, openStack] at hwell
        split at hwell
        · rename_i hown
          dsimp only at hown
          subst hown
          refine Or.inl ⟨k, [], rest, ?_, rfl, rfl, rfl⟩
          rw [scan, if_pos rfl]
          rfl
        · cases hwell
      | cons top above =>
        obtain ⟨position, inner⟩ := top
        rw [List.cons_append, openStack] at hwell
        split at hwell
        · rename_i hown
          dsimp only at hown
          subst hown
          apply (ih hwell).cons
          · rw [scan, countOf_cons]
            split
            · rw [if_neg (by omega)]
              rfl
            · rfl
          · intro word
            rw [List.cons_append, openStack, if_pos rfl]
        · cases hwell

/-- The stack behind an opening bracket of a well-nested word. -/
theorem openStack_opens (hwell : WellNested word) (label : β) {i : Nat} (hi : i < word.length) :
    ∃ stack, ∀ rest, openStack (word.take i ++ .opens label :: rest) 0 [] =
      openStack rest (i + 1) ((i, label) :: stack) := by
  obtain ⟨stack, hstack⟩ := openStack_take_isSome hwell i
  refine ⟨stack, ?_⟩
  intro rest
  rw [openStack_append, hstack, Option.bind_some, openStack, List.length_take,
    Nat.min_eq_left (Nat.le_of_lt hi), Nat.zero_add]

/-- **The closing bracket.** In a well-nested word, counting from an opening bracket finds the one
that closes it, and finds none exactly when it stays open. -/
theorem scan_eq_some_iff (hwell : WellNested word) {label : β} {i : Nat}
    (hi : word[i]? = some (.opens label)) (j : Nat) :
    scan label (word.drop i) i 0 = some j ↔ Closes word i j := by
  obtain ⟨hlt, hletter⟩ := List.getElem?_eq_some_iff.1 hi
  obtain ⟨stack, hopened⟩ := openStack_opens hwell label hlt
  have hdrop : word.drop i = .opens label :: word.drop (i + 1) := by
    rw [List.drop_eq_getElem_cons hlt, hletter]
  have hword : word = word.take i ++ .opens label :: word.drop (i + 1) := by
    rw [← hdrop, List.take_append_drop]
  have hrest : (openStack (word.drop (i + 1)) (i + 1)
      ([] ++ (i, label) :: stack)).isSome = true := by
    rw [WellNested, hword, hopened] at hwell
    exact hwell
  have hscan : scan label (word.drop i) i 0 =
      scan label (word.drop (i + 1)) (i + 1) (countOf label [] + 1) := by
    rw [hdrop, scan, if_pos rfl]
    rfl
  rw [hscan]
  rcases scan_above hrest with ⟨j', pre, post, hfound, hsplit, rfl, htop⟩ | ⟨hnone, above, hopen⟩
  · have hcloses : Closes word i (i + 1 + pre.length) := by
      have hword' : word = (word.take i ++ .opens label :: pre) ++ .closes label :: post := by
        rw [List.append_assoc, List.cons_append, ← hsplit]
        exact hword
      have hposition : (word.take i ++ .opens label :: pre).length = i + 1 + pre.length := by
        rw [List.length_append, List.length_cons, List.length_take]
        omega
      refine ⟨label, stack, ?_, ?_⟩
      · rw [hword', ← hposition, List.getElem?_append_right (Nat.le_refl _), Nat.sub_self]
        rfl
      · rw [hword', ← hposition, List.take_left, hopened]
        exact htop
    rw [hfound, Option.some.injEq]
    constructor
    · rintro rfl
      exact hcloses
    · exact hcloses.unique
  · rw [hnone]
    constructor
    · intro h
      cases h
    · intro h
      -- the bracket is still open at the end
      have hend : openStack (word.take word.length) 0 [] = some (above ++ (i, label) :: stack) := by
        rw [List.take_length, hword, hopened]
        exact hopen
      obtain ⟨_, _, hclosing, -⟩ := id h
      obtain ⟨hj, -⟩ := List.getElem?_eq_some_iff.1 hclosing
      have hmem : (i, label) ∈ above ++ (i, label) :: stack :=
        List.mem_append_right _ List.mem_cons_self
      exact absurd rfl (h.not_mem hj hend _ hmem)

end Nesting
