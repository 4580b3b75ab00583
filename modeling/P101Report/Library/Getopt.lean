import Mathlib

/-!
# Options on a command line

The calls of `getopt` over the words of a command line, one option a call, and the loop of a program
that handles each until the options end or its handler stops. A scan ends at the first operand
(`Order.stop`) or passes over the operands (`Order.permute`).

The grammar is a relation: words spell a list of options and leave operands (`Spells`), and a flag
is reached with nothing wrong before it (`Reaches`). A loop that refuses whatever is no option ends
well on exactly the words that spell options it accepts (`run_eq_ok_iff`), and it stops at a flag it
treats apart exactly where that flag is reached (`run_eq_stop_iff`).
-/

set_option autoImplicit false

namespace Getopt

universe u v w

variable {α : Type u}

/-- What an option character announces: nothing, or a value. -/
inductive Kind
  | flag | valued
  deriving DecidableEq

/-- The options of a program. The dash that introduces them is none of them. -/
structure Options (α : Type u) where
  dash : α
  kind : α → Option Kind
  kind_dash : kind dash = none

/-- What `c` is in an option string, in which a colon stands behind each option with a value. -/
def declared [DecidableEq α] (colon c : α) : List α → Option Kind
  | [] => none
  | d :: rest =>
    if d = c ∧ c ≠ colon then some (if rest.head? = some colon then .valued else .flag)
    else declared colon c rest

/-- Where a scan ends: at the first operand, or at the end of the words. -/
inductive Order
  | stop | permute
  deriving DecidableEq

/-- What a call returns: an option with its value, an option whose value is missing, or a character
that is no option. -/
inductive Item (α : Type u)
  | option (c : α) (value : Option (List α))
  | missing (c : α)
  | unknown (c : α)

/-- The state between two calls: what is left of the word that is being read, the operands the scan
has passed over, and the words behind. -/
structure Cursor (α : Type u) where
  cluster : List α
  passed : List (List α)
  words : List (List α)

/-- The operands when the scan ends. -/
def Cursor.operands (cursor : Cursor α) : List (List α) := cursor.passed ++ cursor.words

/-- What is left to read. -/
def Cursor.size (cursor : Cursor α) : Nat :=
  cursor.cluster.length + (cursor.words.map fun word => word.length + 1).sum

namespace Options

variable (o : Options α) (order : Order)

/-- A word that is no operand and does not end the options. -/
def IsOperand (word : List α) : Prop := word.head? ≠ some o.dash ∨ word = [o.dash]

instance [DecidableEq α] (word : List α) : Decidable (o.IsOperand word) :=
  inferInstanceAs (Decidable (_ ∨ _))

/-- The call that reads the character `c`. -/
def take (c : α) (cursor : Cursor α) : Item α × Cursor α :=
  match o.kind c with
  | none => (.unknown c, cursor)
  | some .flag => (.option c none, cursor)
  | some .valued =>
    if cursor.cluster ≠ [] then
      (.option c (some cursor.cluster), { cursor with cluster := [] })
    else
      match cursor.words with
      | [] => (.missing c, cursor)
      | value :: words => (.option c (some value), { cursor with words := words })

variable [DecidableEq α]

/-- The call at the beginning of a word. -/
def nextWord (passed : List (List α)) : List (List α) → Option (Item α) × Cursor α
  | [] => (none, ⟨[], passed, []⟩)
  | word :: words =>
    if o.IsOperand word then
      match order with
      | .stop => (none, ⟨[], passed, word :: words⟩)
      | .permute => nextWord (passed ++ [word]) words
    else if word = [o.dash, o.dash] then (none, ⟨[], passed, words⟩)
    else
      match word.tail with
      | [] => (none, ⟨[], passed, words⟩)
      | c :: cluster =>
        let (item, cursor) := o.take c ⟨cluster, passed, words⟩
        (some item, cursor)

/-- A call of `getopt`; nothing where the source has `-1`. -/
def next (cursor : Cursor α) : Option (Item α) × Cursor α :=
  match cursor.cluster with
  | [] => o.nextWord order cursor.passed cursor.words
  | c :: cluster =>
    let (item, cursor) := o.take c { cursor with cluster := cluster }
    (some item, cursor)

variable {σ : Type v} {ε : Type w}

/-- A loop of so many calls at most. -/
def loop (handle : σ → Item α → Except ε σ) :
    Nat → Cursor α → σ → Except ε (σ × List (List α))
  | 0, cursor, s => .ok (s, cursor.operands)
  | fuel + 1, cursor, s =>
    match o.next order cursor with
    | (none, cursor) => .ok (s, cursor.operands)
    | (some item, cursor) =>
      match handle s item with
      | .error e => .error e
      | .ok s => loop handle fuel cursor s

/-- The loop of a program over its words, to the end of the options or of its handler. -/
def run (handle : σ → Item α → Except ε σ) (words : List (List α)) (s : σ) :
    Except ε (σ × List (List α)) :=
  o.loop order handle (Cursor.size ⟨[], [], words⟩) ⟨[], [], words⟩ s

end Options

/-- The options in the order in which they are read, each handled in turn. -/
def handleAll {σ : Type v} {ε : Type w} (handle : σ → Item α → Except ε σ)
    (options : List (α × Option (List α))) (s : σ) : Except ε σ :=
  options.foldlM (fun s option => handle s (.option option.1 option.2)) s

/-! ## The grammar -/

variable (o : Options α) (order : Order)

/-- What is left of a word, and the words behind it, spell a list of options and leave operands. -/
inductive Spells : List α → List (List α) → List (α × Option (List α)) → List (List α) → Prop
  | done : Spells [] [] [] []
  | ended (operands : List (List α)) : Spells [] ([o.dash, o.dash] :: operands) [] operands
  | stopped {word words} (horder : order = .stop) (hword : o.IsOperand word) :
      Spells [] (word :: words) [] (word :: words)
  | passed {word words options operands} (horder : order = .permute) (hword : o.IsOperand word)
      (h : Spells [] words options operands) : Spells [] (word :: words) options (word :: operands)
  | word {cluster words options operands} (hcluster : cluster ≠ [])
      (h : Spells cluster words options operands) :
      Spells [] ((o.dash :: cluster) :: words) options operands
  | flag {c cluster words options operands} (hkind : o.kind c = some .flag)
      (h : Spells cluster words options operands) :
      Spells (c :: cluster) words ((c, none) :: options) operands
  | attached {c value words options operands} (hkind : o.kind c = some .valued)
      (hvalue : value ≠ []) (h : Spells [] words options operands) :
      Spells (c :: value) words ((c, some value) :: options) operands
  | detached {c value words options operands} (hkind : o.kind c = some .valued)
      (h : Spells [] words options operands) :
      Spells [c] (value :: words) ((c, some value) :: options) operands

/-- The flag `target` is reached, with nothing wrong before it. -/
inductive Reaches (target : α) : List α → List (List α) → Prop
  | here {cluster words} (hkind : o.kind target = some .flag) :
      Reaches target (target :: cluster) words
  | passed {word words} (horder : order = .permute) (hword : o.IsOperand word)
      (h : Reaches target [] words) : Reaches target [] (word :: words)
  | word {cluster words} (hcluster : cluster ≠ []) (h : Reaches target cluster words) :
      Reaches target [] ((o.dash :: cluster) :: words)
  | flag {c cluster words} (hkind : o.kind c = some .flag) (h : Reaches target cluster words) :
      Reaches target (c :: cluster) words
  | attached {c value words} (hkind : o.kind c = some .valued) (hvalue : value ≠ [])
      (h : Reaches target [] words) : Reaches target (c :: value) words
  | detached {c value words} (hkind : o.kind c = some .valued) (h : Reaches target [] words) :
      Reaches target [c] (value :: words)

variable {o order}

/-! ## One call against the grammar -/

/-- What the grammar says of a scan from here on. -/
def Cursor.Spells (o : Options α) (order : Order) (cursor : Cursor α)
    (options : List (α × Option (List α))) (operands : List (List α)) : Prop :=
  ∃ left, Getopt.Spells o order cursor.cluster cursor.words options left ∧
    operands = cursor.passed ++ left

/-- What the grammar says of a scan from a call on. -/
def SpellsFrom (o : Options α) (order : Order) (options : List (α × Option (List α)))
    (operands : List (List α)) : Option (Item α) × Cursor α → Prop
  | (none, cursor) => options = [] ∧ operands = cursor.operands
  | (some (.option c value), cursor) =>
    ∃ rest, options = (c, value) :: rest ∧ cursor.Spells o order rest operands
  | (some (.missing _), _) => False
  | (some (.unknown _), _) => False

/-- What reaching the flag says of a scan from a call on. -/
def ReachesFrom (o : Options α) (order : Order) (target : α) :
    Option (Item α) × Cursor α → Prop
  | (some (.option c _), cursor) =>
    c = target ∨ Reaches o order target cursor.cluster cursor.words
  | (none, _) => False
  | (some (.missing _), _) => False
  | (some (.unknown _), _) => False

theorem take_flag {c : α} (hkind : o.kind c = some .flag) (cursor : Cursor α) :
    o.take c cursor = (.option c none, cursor) := by
  simp [Options.take, hkind]

theorem take_attached {c : α} (hkind : o.kind c = some .valued) {cursor : Cursor α}
    (hcluster : cursor.cluster ≠ []) :
    o.take c cursor = (.option c (some cursor.cluster), { cursor with cluster := [] }) := by
  simp [Options.take, hkind, hcluster]

theorem take_detached {c : α} (hkind : o.kind c = some .valued) (passed : List (List α))
    (value : List α) (words : List (List α)) :
    o.take c ⟨[], passed, value :: words⟩ = (.option c (some value), ⟨[], passed, words⟩) := by
  simp [Options.take, hkind]

theorem spells_take {c : α} {cluster : List α} {passed words : List (List α)}
    {options : List (α × Option (List α))} {operands : List (List α)} :
    Cursor.Spells o order ⟨c :: cluster, passed, words⟩ options operands ↔
      SpellsFrom o order options operands
        (some (o.take c ⟨cluster, passed, words⟩).1, (o.take c ⟨cluster, passed, words⟩).2) := by
  constructor
  · rintro ⟨left, hspells, rfl⟩
    cases hspells with
    | flag hkind h =>
      rw [take_flag hkind]
      exact ⟨_, rfl, _, h, rfl⟩
    | attached hkind hvalue h =>
      rw [take_attached hkind hvalue]
      exact ⟨_, rfl, _, h, rfl⟩
    | detached hkind h =>
      rw [take_detached hkind]
      exact ⟨_, rfl, _, h, rfl⟩
  · intro h
    unfold Options.take at h
    split at h
    · exact h.elim
    · rename_i hkind
      obtain ⟨rest, rfl, left, hleft, rfl⟩ := h
      exact ⟨left, .flag hkind hleft, rfl⟩
    · rename_i hkind
      split at h
      · rename_i hcluster
        obtain ⟨rest, rfl, left, hleft, rfl⟩ := h
        exact ⟨left, .attached hkind hcluster hleft, rfl⟩
      · rename_i hcluster
        obtain rfl : cluster = [] := not_not.1 hcluster
        cases words with
        | nil => exact h.elim
        | cons value words =>
          obtain ⟨rest, rfl, left, hleft, rfl⟩ := h
          exact ⟨left, .detached hkind hleft, rfl⟩

theorem reaches_take {target c : α} (htarget : o.kind target = some .flag) {cluster : List α}
    {passed words : List (List α)} :
    Reaches o order target (c :: cluster) words ↔
      ReachesFrom o order target
        (some (o.take c ⟨cluster, passed, words⟩).1, (o.take c ⟨cluster, passed, words⟩).2) := by
  constructor
  · intro h
    cases h with
    | here hkind =>
      rw [take_flag hkind]
      exact Or.inl rfl
    | flag hkind h =>
      rw [take_flag hkind]
      exact Or.inr h
    | attached hkind hvalue h =>
      rw [take_attached hkind hvalue]
      exact Or.inr h
    | detached hkind h =>
      rw [take_detached hkind]
      exact Or.inr h
  · intro h
    unfold Options.take at h
    split at h
    · exact h.elim
    · rename_i hkind
      obtain rfl | h := h
      · exact .here htarget
      · exact .flag hkind h
    · rename_i hkind
      split at h
      · rename_i hcluster
        obtain rfl | h := h
        · rw [htarget] at hkind
          cases hkind
        · exact .attached hkind hcluster h
      · rename_i hcluster
        obtain rfl : cluster = [] := not_not.1 hcluster
        cases words with
        | nil => exact h.elim
        | cons value words =>
          obtain rfl | h := h
          · rw [htarget] at hkind
            cases hkind
          · exact .detached hkind h

theorem not_isOperand {word : List α} (h : ¬ o.IsOperand word) :
    ∃ c cluster, word = o.dash :: c :: cluster := by
  simp only [Options.IsOperand, not_or, not_not] at h
  obtain ⟨hhead, hword⟩ := h
  match word, hhead, hword with
  | d :: c :: cluster, hhead, _ =>
    obtain rfl : d = o.dash := by simpa using hhead
    exact ⟨c, cluster, rfl⟩
  | [d], hhead, hword =>
    obtain rfl : d = o.dash := by simpa using hhead
    exact absurd rfl hword

theorem isOperand_dash {cluster : List α} (hcluster : cluster ≠ []) :
    ¬ o.IsOperand (o.dash :: cluster) := by
  simp [Options.IsOperand, hcluster]

/-- The dash is no option. -/
theorem not_spells_dash {cluster : List α} {words : List (List α)}
    {options : List (α × Option (List α))} {operands : List (List α)} :
    ¬ Spells o order (o.dash :: cluster) words options operands := by
  intro h
  have hkind : ∃ kind, o.kind o.dash = some kind := by
    cases h with
    | flag hkind => exact ⟨_, hkind⟩
    | attached hkind => exact ⟨_, hkind⟩
    | detached hkind => exact ⟨_, hkind⟩
  simp [o.kind_dash] at hkind

theorem not_reaches_dash {target : α} (htarget : o.kind target = some .flag) {cluster : List α}
    {words : List (List α)} : ¬ Reaches o order target (o.dash :: cluster) words := by
  intro h
  have hkind : ∃ kind, o.kind o.dash = some kind := by
    cases h with
    | here => exact ⟨_, htarget⟩
    | flag hkind => exact ⟨_, hkind⟩
    | attached hkind => exact ⟨_, hkind⟩
    | detached hkind => exact ⟨_, hkind⟩
  simp [o.kind_dash] at hkind

theorem kind_take {c d : α} {value : Option (List α)} {cursor cursor' : Cursor α}
    (h : o.take c cursor = (.option d value, cursor')) : o.kind d ≠ none := by
  unfold Options.take at h
  split at h
  · cases h
  · rename_i hkind
    cases h
    simp [hkind]
  · rename_i hkind
    split at h
    · cases h
      simp [hkind]
    · split at h
      · cases h
      · cases h
        simp [hkind]

theorem size_take (c : α) (cursor : Cursor α) : (o.take c cursor).2.size ≤ cursor.size := by
  obtain ⟨cluster, passed, words⟩ := cursor
  unfold Options.take
  split
  · exact le_rfl
  · exact le_rfl
  · split
    · simp [Cursor.size]
    · cases words with
      | nil => exact le_rfl
      | cons value words =>
        simp only [Cursor.size, List.map_cons, List.sum_cons]
        omega

theorem words_of_size {cursor : Cursor α} (h : cursor.size ≤ 0) :
    cursor = ⟨[], cursor.passed, []⟩ := by
  obtain ⟨cluster, passed, words⟩ := cursor
  cases cluster with
  | cons c cluster => simp [Cursor.size] at h
  | nil =>
    cases words with
    | nil => rfl
    | cons word words => simp [Cursor.size] at h

variable [DecidableEq α]

theorem nextWord_operand {word : List α} (hword : o.IsOperand word) (passed words : List (List α)) :
    o.nextWord order passed (word :: words) =
      match order with
      | .stop => (none, ⟨[], passed, word :: words⟩)
      | .permute => o.nextWord order (passed ++ [word]) words := by
  cases order <;> simp [Options.nextWord, hword]

theorem nextWord_dash (c : α) (cluster : List α) (passed words : List (List α)) :
    o.nextWord order passed ((o.dash :: c :: cluster) :: words) =
      if c = o.dash ∧ cluster = [] then (none, ⟨[], passed, words⟩)
      else (some (o.take c ⟨cluster, passed, words⟩).1, (o.take c ⟨cluster, passed, words⟩).2) := by
  simp [Options.nextWord, isOperand_dash]

theorem spells_nextWord {passed words : List (List α)}
    {options : List (α × Option (List α))} {operands : List (List α)} :
    Cursor.Spells o order ⟨[], passed, words⟩ options operands ↔
      SpellsFrom o order options operands (o.nextWord order passed words) := by
  induction words generalizing passed operands with
  | nil =>
    constructor
    · rintro ⟨left, hspells, rfl⟩
      cases hspells
      exact ⟨rfl, rfl⟩
    · rintro ⟨rfl, rfl⟩
      exact ⟨[], .done, rfl⟩
  | cons word words ih =>
    by_cases hword : o.IsOperand word
    · -- an operand: the scan ends here, or passes over it
      rw [nextWord_operand hword]
      cases order with
      | stop =>
        constructor
        · rintro ⟨left, hspells, rfl⟩
          cases hspells with
          | ended operands => exact absurd hword (isOperand_dash (by simp))
          | stopped => exact ⟨rfl, rfl⟩
          | passed horder => cases horder
          | word hcluster => exact absurd hword (isOperand_dash hcluster)
        · rintro ⟨rfl, rfl⟩
          exact ⟨_, .stopped rfl hword, rfl⟩
      | permute =>
        refine Iff.trans ?_ ih
        constructor
        · rintro ⟨left, hspells, rfl⟩
          cases hspells with
          | ended operands => exact absurd hword (isOperand_dash (by simp))
          | stopped horder => cases horder
          | passed _ _ h => exact ⟨_, h, by simp⟩
          | word hcluster => exact absurd hword (isOperand_dash hcluster)
        · rintro ⟨left, hspells, rfl⟩
          exact ⟨word :: left, .passed rfl hword hspells, by simp⟩
    · obtain ⟨c, cluster, rfl⟩ := not_isOperand hword
      rw [nextWord_dash]
      split
      · -- `--` ends the options
        rename_i hended
        obtain ⟨rfl, rfl⟩ := hended
        constructor
        · rintro ⟨left, hspells, rfl⟩
          cases hspells with
          | ended operands => exact ⟨rfl, rfl⟩
          | stopped _ hoperand => exact absurd hoperand hword
          | passed _ hoperand => exact absurd hoperand hword
          | word _ h => exact absurd h not_spells_dash
        · rintro ⟨rfl, rfl⟩
          exact ⟨words, .ended words, rfl⟩
      · -- a cluster of options
        rename_i hended
        refine Iff.trans ?_ spells_take
        constructor
        · rintro ⟨left, hspells, rfl⟩
          cases hspells with
          | ended operands => exact absurd ⟨rfl, rfl⟩ hended
          | stopped _ hoperand => exact absurd hoperand hword
          | passed _ hoperand => exact absurd hoperand hword
          | word _ h => exact ⟨left, h, rfl⟩
        · rintro ⟨left, hspells, rfl⟩
          exact ⟨left, .word (by simp) hspells, rfl⟩

theorem reaches_nextWord {target : α} (htarget : o.kind target = some .flag)
    {passed words : List (List α)} :
    Reaches o order target [] words ↔
      ReachesFrom o order target (o.nextWord order passed words) := by
  induction words generalizing passed with
  | nil =>
    constructor
    · rintro ⟨⟩
    · exact False.elim
  | cons word words ih =>
    by_cases hword : o.IsOperand word
    · rw [nextWord_operand hword]
      cases order with
      | stop =>
        constructor
        · intro h
          cases h with
          | passed horder => cases horder
          | word hcluster => exact absurd hword (isOperand_dash hcluster)
        · exact False.elim
      | permute =>
        refine Iff.trans ?_ ih
        constructor
        · intro h
          cases h with
          | passed _ _ h => exact h
          | word hcluster => exact absurd hword (isOperand_dash hcluster)
        · exact .passed rfl hword
    · obtain ⟨c, cluster, rfl⟩ := not_isOperand hword
      rw [nextWord_dash]
      split
      · rename_i hended
        obtain ⟨rfl, rfl⟩ := hended
        constructor
        · intro h
          cases h with
          | passed _ hoperand => exact absurd hoperand hword
          | word _ h => exact absurd h (not_reaches_dash htarget)
        · exact False.elim
      · refine Iff.trans ?_ (reaches_take htarget)
        constructor
        · intro h
          cases h with
          | passed _ hoperand => exact absurd hoperand hword
          | word _ h => exact h
        · exact .word (by simp)

/-- A call reads what the grammar says. -/
theorem spells_next {cursor : Cursor α} {options : List (α × Option (List α))}
    {operands : List (List α)} :
    cursor.Spells o order options operands ↔
      SpellsFrom o order options operands (o.next order cursor) := by
  obtain ⟨cluster, passed, words⟩ := cursor
  cases cluster with
  | nil => exact spells_nextWord
  | cons c cluster => exact spells_take

theorem reaches_next {target : α} (htarget : o.kind target = some .flag) {cursor : Cursor α} :
    Reaches o order target cursor.cluster cursor.words ↔
      ReachesFrom o order target (o.next order cursor) := by
  obtain ⟨cluster, passed, words⟩ := cursor
  cases cluster with
  | nil => exact reaches_nextWord htarget
  | cons c cluster => exact reaches_take htarget

/-! ## The loop -/

theorem size_nextWord {passed words : List (List α)} {item : Item α} {cursor : Cursor α}
    (h : o.nextWord order passed words = (some item, cursor)) :
    cursor.size < Cursor.size ⟨[], passed, words⟩ := by
  induction words generalizing passed with
  | nil => cases h
  | cons word words ih =>
    by_cases hword : o.IsOperand word
    · rw [nextWord_operand hword] at h
      cases order with
      | stop => cases h
      | permute =>
        have hlt := ih h
        simp only [Cursor.size, List.map_cons, List.sum_cons] at hlt ⊢
        omega
    · obtain ⟨c, cluster, rfl⟩ := not_isOperand hword
      rw [nextWord_dash] at h
      split at h
      · cases h
      · cases h
        have hle := size_take (o := o) c ⟨cluster, passed, words⟩
        simp only [Cursor.size, List.map_cons, List.sum_cons, List.length_cons,
          List.length_nil] at hle ⊢
        omega

/-- Every call reads something. -/
theorem size_next {cursor cursor' : Cursor α} {item : Item α}
    (h : o.next order cursor = (some item, cursor')) : cursor'.size < cursor.size := by
  obtain ⟨cluster, passed, words⟩ := cursor
  cases cluster with
  | nil => exact size_nextWord h
  | cons c cluster =>
    obtain rfl : (o.take c ⟨cluster, passed, words⟩).2 = cursor' := congrArg Prod.snd h
    have hle := size_take (o := o) c ⟨cluster, passed, words⟩
    simp only [Cursor.size, List.length_cons] at hle ⊢
    omega

section Loop

variable {σ : Type v} {ε : Type w} {handle : σ → Item α → Except ε σ}

/-- A handler that accepts options only. -/
def Refuses (handle : σ → Item α → Except ε σ) : Prop :=
  ∀ s c, (∀ s', handle s (.missing c) ≠ .ok s') ∧ ∀ s', handle s (.unknown c) ≠ .ok s'

theorem loop_eq_ok_iff (hrefuses : Refuses handle) {fuel : Nat} {cursor : Cursor α}
    (hfuel : cursor.size ≤ fuel) {s s' : σ} {operands : List (List α)} :
    o.loop order handle fuel cursor s = .ok (s', operands) ↔
      ∃ options, cursor.Spells o order options operands ∧
        handleAll handle options s = .ok s' := by
  induction fuel generalizing cursor s with
  | zero =>
    -- no fuel is needed where nothing is left
    rw [words_of_size hfuel]
    constructor
    · intro h
      cases h
      exact ⟨[], ⟨[], .done, rfl⟩, rfl⟩
    · rintro ⟨options, ⟨left, hspells, rfl⟩, hhandle⟩
      cases hspells
      cases hhandle
      rfl
  | succ fuel ih =>
    simp only [spells_next, Options.loop]
    rcases hnext : o.next order cursor with ⟨_ | item, cursor'⟩
    · constructor
      · intro h
        cases h
        exact ⟨[], ⟨rfl, rfl⟩, rfl⟩
      · rintro ⟨options, ⟨rfl, rfl⟩, hhandle⟩
        cases hhandle
        rfl
    · have hsize : cursor'.size ≤ fuel := by
        have := size_next hnext
        omega
      cases item with
      | missing c =>
        -- neither spelled by a command line nor accepted by the handler
        refine iff_of_false ?_ (by rintro ⟨options, h, -⟩; exact h)
        dsimp only
        cases hhandle : handle s (.missing c) with
        | error e => simp
        | ok s' => exact absurd hhandle ((hrefuses s c).1 s')
      | unknown c =>
        refine iff_of_false ?_ (by rintro ⟨options, h, -⟩; exact h)
        dsimp only
        cases hhandle : handle s (.unknown c) with
        | error e => simp
        | ok s' => exact absurd hhandle ((hrefuses s c).2 s')
      | option c value =>
        have hcons : ∀ rest, handleAll handle ((c, value) :: rest) s =
            handle s (.option c value) >>= handleAll handle rest :=
          fun rest => List.foldlM_cons
        dsimp only
        cases hhandle : handle s (.option c value) with
        | error e =>
          -- the fold over the options stops at this one as well
          refine iff_of_false (by simp) ?_
          rintro ⟨options, ⟨rest, rfl, -⟩, hall⟩
          rw [hcons, hhandle] at hall
          cases hall
        | ok s₁ =>
          refine (ih hsize).trans ⟨?_, ?_⟩
          · rintro ⟨rest, hspells, hall⟩
            exact ⟨_, ⟨rest, rfl, hspells⟩, by rw [hcons, hhandle]; exact hall⟩
          · rintro ⟨options, ⟨rest, rfl, hspells⟩, hall⟩
            rw [hcons, hhandle] at hall
            exact ⟨rest, hspells, hall⟩

/-- A handler that stops with `e` at the flag `target`, and accepts every other option. -/
structure StopsAt (o : Options α) (target : α) (e : ε) (handle : σ → Item α → Except ε σ) :
    Prop where
  kind : o.kind target = some .flag
  stops : ∀ s value, handle s (.option target value) = .error e
  only : ∀ s item, handle s item = .error e → ∃ value, item = .option target value
  goes : ∀ s c value, o.kind c ≠ none → c ≠ target → ∃ s', handle s (.option c value) = .ok s'

theorem kind_nextWord {passed words : List (List α)} {c : α} {value : Option (List α)}
    {cursor : Cursor α} (h : o.nextWord order passed words = (some (.option c value), cursor)) :
    o.kind c ≠ none := by
  induction words generalizing passed with
  | nil => cases h
  | cons word words ih =>
    by_cases hword : o.IsOperand word
    · rw [nextWord_operand hword] at h
      cases order with
      | stop => cases h
      | permute => exact ih h
    · obtain ⟨d, cluster, rfl⟩ := not_isOperand hword
      rw [nextWord_dash] at h
      split at h
      · cases h
      · exact kind_take (Prod.ext (Option.some.inj (congrArg Prod.fst h)) rfl)

theorem kind_next {cursor cursor' : Cursor α} {c : α} {value : Option (List α)}
    (h : o.next order cursor = (some (.option c value), cursor')) : o.kind c ≠ none := by
  obtain ⟨cluster, passed, words⟩ := cursor
  cases cluster with
  | nil => exact kind_nextWord h
  | cons d cluster => exact kind_take (Prod.ext (Option.some.inj (congrArg Prod.fst h)) rfl)

theorem loop_eq_stop_iff (hrefuses : Refuses handle) {target : α} {e : ε}
    (hstops : StopsAt o target e handle) {fuel : Nat} {cursor : Cursor α}
    (hfuel : cursor.size ≤ fuel) {s : σ} :
    o.loop order handle fuel cursor s = .error e ↔
      Reaches o order target cursor.cluster cursor.words := by
  induction fuel generalizing cursor s with
  | zero =>
    rw [words_of_size hfuel]
    refine iff_of_false (by simp [Options.loop]) ?_
    rintro ⟨⟩
  | succ fuel ih =>
    rw [reaches_next hstops.kind]
    simp only [Options.loop]
    rcases hnext : o.next order cursor with ⟨_ | item, cursor'⟩
    · exact iff_of_false (by simp) id
    · have hsize : cursor'.size ≤ fuel := by
        have := size_next hnext
        omega
      dsimp only
      cases hhandle : handle s item with
      | error e' =>
        simp only [Except.error.injEq]
        constructor
        · rintro rfl
          obtain ⟨value, rfl⟩ := hstops.only s item hhandle
          exact Or.inl rfl
        · intro h
          match item, h with
          | .option c value, h =>
            -- the handler refuses no other option
            by_cases heq : c = target
            · rw [heq, hstops.stops] at hhandle
              exact (Except.error.inj hhandle).symm
            · obtain ⟨s', hs'⟩ := hstops.goes s c value (kind_next hnext) heq
              rw [hs'] at hhandle
              cases hhandle
      | ok s' =>
        refine (ih hsize).trans ?_
        cases item with
        | missing c => exact absurd hhandle ((hrefuses s c).1 s')
        | unknown c => exact absurd hhandle ((hrefuses s c).2 s')
        | option c value =>
          refine ⟨Or.inr, ?_⟩
          rintro (rfl | h)
          · rw [hstops.stops] at hhandle
            cases hhandle
          · exact h

/-- **What a command line means.** The loop ends well on exactly the words that spell options its
handler accepts, with the operands they leave. -/
theorem run_eq_ok_iff (hrefuses : Refuses handle) {words : List (List α)} {s s' : σ}
    {operands : List (List α)} :
    o.run order handle words s = .ok (s', operands) ↔
      ∃ options, Spells o order [] words options operands ∧
        handleAll handle options s = .ok s' := by
  rw [Options.run, loop_eq_ok_iff hrefuses le_rfl]
  simp [Cursor.Spells]

/-- **Where a command line stops.** The loop stops with the error of a flag exactly where the flag
is reached. -/
theorem run_eq_stop_iff (hrefuses : Refuses handle) {target : α} {e : ε}
    (hstops : StopsAt o target e handle) {words : List (List α)} {s : σ} :
    o.run order handle words s = .error e ↔ Reaches o order target [] words :=
  loop_eq_stop_iff hrefuses hstops le_rfl

end Loop

end Getopt
