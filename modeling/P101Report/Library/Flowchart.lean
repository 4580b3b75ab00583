import Mathlib

/-!
# Flowchart text

The lines of a flowchart, one statement a line: the header, the definition of a class, a node with
its class, and a node or an edge with a quoted label. A label ends at the first quote, so a
well-formed line has at most two of them (`Statement.count_quote`).
-/

set_option autoImplicit false

namespace Flowchart

/-- The bytes of an ASCII text. -/
def spell (s : String) : List UInt8 := s.toList.map fun c => UInt8.ofNat c.toNat

def newline : UInt8 := 0x0a

def quote : UInt8 := 0x22

/-! ## Lines -/

/-- The lines of a text in which every line is closed. -/
def lines (text : List UInt8) : List (List UInt8) := (text.splitOn newline).dropLast

/-- Lines, each closed by a newline. -/
def unlines (ls : List (List UInt8)) : List UInt8 := (ls.map fun line => line ++ [newline]).flatten

@[simp] theorem unlines_nil : unlines [] = [] := rfl

@[simp] theorem unlines_cons (line : List UInt8) (rest : List (List UInt8)) :
    unlines (line :: rest) = line ++ newline :: unlines rest := by
  simp [unlines]

@[simp] theorem unlines_append (ls ls' : List (List UInt8)) :
    unlines (ls ++ ls') = unlines ls ++ unlines ls' := by
  simp [unlines]

theorem unlines_flatten (groups : List (List (List UInt8))) :
    unlines groups.flatten = (groups.map unlines).flatten := by
  induction groups with
  | nil => rfl
  | cons group rest ih => simp [ih]

theorem unlines_eq_intercalate (ls : List (List UInt8)) :
    unlines ls = [newline].intercalate (ls ++ [[]]) := by
  induction ls with
  | nil => rfl
  | cons line rest ih =>
    rw [unlines_cons, ih, List.cons_append, List.intercalate_cons_of_ne_nil (by simp)]
    simp

/-- The lines of a text are those it was put together from. -/
theorem lines_unlines {ls : List (List UInt8)} (h : ∀ line ∈ ls, newline ∉ line) :
    lines (unlines ls) = ls := by
  have hall : ∀ line ∈ ls ++ [[]], newline ∉ line := by
    intro line hline
    rcases List.mem_append.1 hline with hline | hline
    · exact h line hline
    · rw [List.mem_singleton.1 hline]
      exact List.not_mem_nil
  rw [lines, unlines_eq_intercalate, List.splitOn_intercalate newline hall (by simp),
    List.dropLast_concat]

/-! ## Statements -/

/-- A letter or a digit. -/
def IsWord (b : UInt8) : Prop :=
  0x30 ≤ b ∧ b ≤ 0x39 ∨ 0x41 ≤ b ∧ b ≤ 0x5a ∨ 0x61 ≤ b ∧ b ≤ 0x7a

instance (b : UInt8) : Decidable (IsWord b) :=
  inferInstanceAs (Decidable (_ ∨ _))

/-- The name of a node, a class or a direction. -/
def Name (text : List UInt8) : Prop := text ≠ [] ∧ ∀ b ∈ text, IsWord b

instance (text : List UInt8) : Decidable (Name text) :=
  have : Decidable (∀ b ∈ text, IsWord b) := List.decidableBAll (fun b => IsWord b) text
  inferInstanceAs (Decidable (_ ∧ _))

/-- The indentation of a line. -/
def Indent (text : List UInt8) : Prop := ∀ b ∈ text, b = 0x20

instance (text : List UInt8) : Decidable (Indent text) :=
  List.decidableBAll (fun b => b = 0x20) text

/-- A label in brackets: one quoted text without a further quote. -/
def bracketed (label : List UInt8) : List UInt8 := spell "[\"" ++ label ++ spell "\"]"

/-- A line of a flowchart. -/
inductive Statement : List UInt8 → Prop
  | header {direction : List UInt8} (h : Name direction) :
      Statement (spell "flowchart " ++ direction)
  | classDef {indent name style : List UInt8} (hindent : Indent indent) (hname : Name name)
      (hstyle : quote ∉ style) :
      Statement (indent ++ spell "classDef " ++ name ++ spell " " ++ style)
  | nodeClass {indent node name : List UInt8} (hindent : Indent indent) (hnode : Name node)
      (hname : Name name) : Statement (indent ++ node ++ spell ":::" ++ name)
  | node {indent node label : List UInt8} (hindent : Indent indent) (hnode : Name node)
      (hlabel : quote ∉ label) : Statement (indent ++ node ++ bracketed label)
  | edge {indent source target label : List UInt8} (hindent : Indent indent)
      (hsource : Name source) (htarget : Name target) (hlabel : quote ∉ label) :
      Statement (indent ++ source ++ spell " --> " ++ target ++ bracketed label)

theorem Name.not_mem_quote {text : List UInt8} (h : Name text) : quote ∉ text :=
  fun hmem => absurd (h.2 quote hmem) (by decide)

theorem Indent.not_mem_quote {text : List UInt8} (h : Indent text) : quote ∉ text :=
  fun hmem => absurd (h quote hmem) (by decide)

/-- Digits behind a letter are a name. -/
theorem name_of_digits {letters digits : List UInt8} (hletters : Name letters)
    (hdigits : ∀ b ∈ digits, 48 ≤ b ∧ b ≤ 57) : Name (letters ++ digits) := by
  refine ⟨?_, ?_⟩
  · simp [hletters.1]
  · intro b hb
    rcases List.mem_append.1 hb with hb | hb
    · exact hletters.2 b hb
    · exact Or.inl (hdigits b hb)

theorem count_bracketed {label : List UInt8} :
    (bracketed label).count quote = label.count quote + 2 := by
  have hopening : (spell "[\"").count quote = 1 := by decide
  have hclosing : (spell "\"]").count quote = 1 := by decide
  rw [bracketed, List.count_append, List.count_append, hopening, hclosing]
  omega

/-- A statement has no quote but the two around its label. -/
theorem Statement.count_quote {line : List UInt8} (h : Statement line) : line.count quote ≤ 2 := by
  -- the fixed words of a statement have no quote
  have hwords : (spell "flowchart ").count quote = 0 ∧ (spell "classDef ").count quote = 0 ∧
      (spell " ").count quote = 0 ∧ (spell ":::").count quote = 0 ∧
      (spell " --> ").count quote = 0 := by decide
  obtain ⟨hheader, hclass, hspace, hcolons, harrow⟩ := hwords
  cases h with
  | header hdirection =>
    rw [List.count_append, hheader, List.count_eq_zero_of_not_mem hdirection.not_mem_quote]
    omega
  | classDef hindent hname hstyle =>
    simp only [List.count_append, hclass, hspace, List.count_eq_zero_of_not_mem hstyle,
      List.count_eq_zero_of_not_mem hindent.not_mem_quote,
      List.count_eq_zero_of_not_mem hname.not_mem_quote]
    omega
  | nodeClass hindent hnode hname =>
    simp only [List.count_append, hcolons, List.count_eq_zero_of_not_mem hindent.not_mem_quote,
      List.count_eq_zero_of_not_mem hnode.not_mem_quote,
      List.count_eq_zero_of_not_mem hname.not_mem_quote]
    omega
  | node hindent hnode hlabel =>
    simp only [List.count_append, count_bracketed, List.count_eq_zero_of_not_mem hlabel,
      List.count_eq_zero_of_not_mem hindent.not_mem_quote,
      List.count_eq_zero_of_not_mem hnode.not_mem_quote]
    omega
  | edge hindent hsource htarget hlabel =>
    simp only [List.count_append, count_bracketed, harrow, List.count_eq_zero_of_not_mem hlabel,
      List.count_eq_zero_of_not_mem hindent.not_mem_quote,
      List.count_eq_zero_of_not_mem hsource.not_mem_quote,
      List.count_eq_zero_of_not_mem htarget.not_mem_quote]
    omega

end Flowchart
