import P101Report.Library.Flowchart
import P101Report.Model.Lifecycle
import P101Report.Output.LifetimeRenderers
import P101Report.Replay.Steps

/-!
# When the Mermaid report is a flowchart

The body of the Mermaid report is put together from lines (`printMermaidBody_eq`). All but the lines
of births are fixed words, numbers and names of record kinds; the line of a generic birth has the
resource class of the log between them, byte for byte. The report is a flowchart exactly when no
class that it shows has a quote (`mermaidReport_wellFormed_iff`).
-/

set_option autoImplicit false

namespace P101Report

open Decimal Flowchart

variable {lib : ToolEventLib}

/-! ## The lines -/

/-- The line of a birth. -/
def mermaidBirthLine (birth : ResourceEvent) : List UInt8 :=
  ascii "    " ++ ascii "summary" ++ ascii " --> " ++ (ascii "b" ++ decimalNat birth.sequence) ++
    bracketed (List.flatten [
      ascii "event ", decimalNat birth.eventSequence, ascii " ", (mermaidResourceName birth).bytes,
      ascii " ", (resourceKindName birth.kind).bytes])

/-- The label of a death. -/
def mermaidDeathLabel (birth death : ResourceEvent) : List UInt8 :=
  List.flatten [
    ascii "event ", decimalNat death.eventSequence, ascii " ", (resourceKindName death.kind).bytes,
    match lifetimeDurationNs birth death with
    | some durationNs => List.flatten [ascii "; ", decimalNat durationNs, ascii " ns"]
    | none => []]

/-- The lines behind the line of a birth. -/
def mermaidEndLines (birth : ResourceEvent) : Option ResourceEvent → List (List UInt8)
  | none => [
      ascii "    " ++ (ascii "b" ++ decimalNat birth.sequence) ++ ascii " --> " ++
        (ascii "leak" ++ decimalNat birth.sequence) ++ bracketed (ascii "still live at exit"),
      ascii "    " ++ (ascii "leak" ++ decimalNat birth.sequence) ++ ascii ":::" ++ ascii "leak"]
  | some death => [
      ascii "    " ++ (ascii "b" ++ decimalNat birth.sequence) ++ ascii " --> " ++
        (ascii "d" ++ decimalNat death.sequence) ++ bracketed (mermaidDeathLabel birth death)]

def mermaidLifetimeLines (lifetime : ResourceEvent × Option ResourceEvent) : List (List UInt8) :=
  mermaidBirthLine lifetime.1 :: mermaidEndLines lifetime.1 lifetime.2

/-- The counts of the report. -/
def mermaidSummaryLine (model : ReportModel lib) : List UInt8 :=
  ascii "    " ++ ascii "summary" ++ bracketed (List.flatten [
    ascii "resources: ", decimalNat model.resourceRecords, ascii " records; calls: ",
    decimalNat model.callRecords, ascii " records; findings: ",
    decimalNat model.findings.items.length])

/-- The line that stands for an empty list of lifetimes. -/
def mermaidEmptyLine : List UInt8 :=
  ascii "    " ++ ascii "summary" ++ ascii " --> " ++ ascii "empty" ++
    bracketed (ascii "no resource lifetimes recorded")

def mermaidNoticeLines (printed : Nat) : List (List UInt8) :=
  if printed = 0 then [mermaidEmptyLine] else []

/-- The class of leaks. -/
def mermaidClassLine : List UInt8 :=
  ascii "    " ++ ascii "classDef " ++ ascii "leak" ++ ascii " " ++
    ascii "fill:#ffd6d6,stroke:#a33,stroke-width:2px"

/-- The lines of the body. -/
def mermaidLines (model : ReportModel lib) : List (List UInt8) :=
  let shown := model.lifetimes.take lifetimeTextLimit
  [ascii "flowchart " ++ ascii "LR", mermaidSummaryLine model] ++
    (shown.map mermaidLifetimeLines).flatten ++
    (mermaidNoticeLines (min lifetimeTextLimit model.lifetimes.length) ++ [mermaidClassLine])

theorem printMermaidBirth_eq (birth : ResourceEvent) :
    printMermaidBirth birth = unlines [mermaidBirthLine birth] := by
  simp [printMermaidBirth, mermaidBirthLine, bracketed, spell, ascii, newline]

theorem printMermaidEnd_eq (birth : ResourceEvent) (death : Option ResourceEvent) :
    printMermaidEnd birth death = unlines (mermaidEndLines birth death) := by
  cases death with
  | none => simp [printMermaidEnd, mermaidEndLines, bracketed, spell, ascii, newline]
  | some death =>
    rw [printMermaidEnd, mermaidEndLines, mermaidDeathLabel]
    -- the duration is part of the label, when there is one
    cases lifetimeDurationNs birth death with
    | none => simp [bracketed, spell, ascii, newline]
    | some durationNs => simp [bracketed, spell, ascii, newline]

theorem printMermaidLifetime_eq (lifetime : ResourceEvent × Option ResourceEvent) :
    printMermaidLifetime lifetime.1 lifetime.2 = unlines (mermaidLifetimeLines lifetime) := by
  rw [printMermaidLifetime, printMermaidBirth_eq, printMermaidEnd_eq, ← unlines_append]
  rfl

theorem printMermaidNotice_eq (printed : Nat) :
    printMermaidNotice printed = unlines (mermaidNoticeLines printed) := by
  rw [printMermaidNotice, mermaidNoticeLines]
  split
  · simp [mermaidEmptyLine, bracketed, spell, ascii, newline]
  · rfl

/-- The body of the report is its lines. -/
theorem printMermaidBody_eq (model : ReportModel lib) :
    printMermaidBody model = unlines (mermaidLines model) := by
  have hlifetimes : printMermaidLifetimes model =
      unlines ((model.lifetimes.take lifetimeTextLimit).map mermaidLifetimeLines).flatten ++
        unlines (mermaidNoticeLines (min lifetimeTextLimit model.lifetimes.length) ++
          [mermaidClassLine]) := by
    have hloop := printMermaidLifetimesLoop_eq model model.resources.items 0
    dsimp only at hloop
    rw [Nat.sub_zero, Nat.zero_add] at hloop
    rw [printMermaidLifetimes, hloop]
    simp only [unlines_append, unlines_flatten, ← printMermaidNotice_eq, mermaidLifetimes,
      printMermaidLifetime_eq, List.map_map]
    simp [mermaidClassLine, ReportModel.lifetimes, ascii, newline, Function.comp_def]
  rw [printMermaidBody, hlifetimes]
  simp [mermaidLines, mermaidSummaryLine, bracketed, spell, ascii, newline]

/-! ## Numbers and names in a line -/

/-- A byte that is no digit is in no number. -/
theorem not_mem_decimalNat {b : UInt8} (h : ¬ (48 ≤ b ∧ b ≤ 57)) (n : Nat) : b ∉ decimalNat n :=
  fun hmem => h (decimalNat_digit hmem)

theorem newline_not_mem_decimalNat (n : Nat) : newline ∉ decimalNat n :=
  not_mem_decimalNat (by decide) n

theorem quote_not_mem_decimalNat (n : Nat) : quote ∉ decimalNat n :=
  not_mem_decimalNat (by decide) n

/-- The name of a record kind has neither a newline nor a quote. -/
theorem resourceKindName_plain (kind : ResourceKind) :
    newline ∉ (resourceKindName kind).bytes ∧ quote ∉ (resourceKindName kind).bytes := by
  cases kind <;> decide

/-- The fixed words of a label. -/
theorem labelWords_plain {b : UInt8} (h : b = newline ∨ b = quote) :
    b ∉ ascii "event " ∧ b ∉ ascii " " ∧ b ∉ ascii "; " ∧ b ∉ ascii " ns" ∧
      b ∉ ascii "resources: " ∧ b ∉ ascii " records; calls: " ∧
      b ∉ ascii " records; findings: " := by
  rcases h with rfl | rfl <;> decide

/-- The label of a death has neither a newline nor a quote. -/
theorem mermaidDeathLabel_plain {b : UInt8} (h : b = newline ∨ b = quote)
    (birth death : ResourceEvent) : b ∉ mermaidDeathLabel birth death := by
  have hwords := labelWords_plain h
  have hnumber : ∀ n, b ∉ decimalNat n := by
    apply not_mem_decimalNat
    rcases h with rfl | rfl <;> decide
  have hkind : b ∉ (resourceKindName death.kind).bytes := by
    obtain ⟨hline, hquote⟩ := resourceKindName_plain death.kind
    rcases h with rfl | rfl
    · exact hline
    · exact hquote
  rw [mermaidDeathLabel]
  cases lifetimeDurationNs birth death with
  | none => simp [hwords, hnumber, hkind]
  | some durationNs => simp [hwords, hnumber, hkind]

/-- The label of the summary has neither a newline nor a quote. -/
theorem mermaidSummaryLabel_plain {b : UInt8} (h : b = newline ∨ b = quote) (i j k : Nat) :
    b ∉ List.flatten [
      ascii "resources: ", decimalNat i, ascii " records; calls: ", decimalNat j,
      ascii " records; findings: ", decimalNat k] := by
  have hwords := labelWords_plain h
  have hnumber : ∀ n, b ∉ decimalNat n := by
    apply not_mem_decimalNat
    rcases h with rfl | rfl <;> decide
  simp [hwords, hnumber]

/-! ## Every line but that of a birth -/

theorem indent_four : Indent (ascii "    ") := by decide

/-- The names of the fixed nodes, and the letters before a number. -/
theorem names_fixed : Name (ascii "summary") ∧ Name (ascii "empty") ∧ Name (ascii "leak") ∧
    Name (ascii "b") ∧ Name (ascii "d") := by
  refine ⟨?_, ?_, ?_, ?_, ?_⟩ <;> decide

theorem name_numbered {letters : List UInt8} (h : Name letters) (n : Nat) :
    Name (letters ++ decimalNat n) :=
  name_of_digits h fun _ hb => decimalNat_digit hb

theorem newline_not_mem_name {text : List UInt8} (h : Name text) : newline ∉ text :=
  fun hmem => absurd (h.2 newline hmem) (by decide)

theorem newline_not_mem_bracketed {label : List UInt8} (h : newline ∉ label) :
    newline ∉ bracketed label := by
  have hbrackets : newline ∉ spell "[\"" ∧ newline ∉ spell "\"]" := by decide
  simp only [bracketed, List.mem_append, not_or]
  exact ⟨⟨hbrackets.1, h⟩, hbrackets.2⟩

/-- An edge line of the report. -/
theorem edge_line {source target label : List UInt8} (hsource : Name source)
    (htarget : Name target) (hline : newline ∉ label) (hquote : quote ∉ label) :
    let line := ascii "    " ++ source ++ ascii " --> " ++ target ++ bracketed label
    newline ∉ line ∧ Statement line := by
  have hwords : newline ∉ ascii "    " ∧ newline ∉ ascii " --> " := by decide
  refine ⟨?_, .edge indent_four hsource htarget hquote⟩
  simp only [List.mem_append, not_or]
  exact ⟨⟨⟨⟨hwords.1, newline_not_mem_name hsource⟩, hwords.2⟩, newline_not_mem_name htarget⟩,
    newline_not_mem_bracketed hline⟩

/-- The line that gives a node its class. -/
theorem nodeClass_line {node name : List UInt8} (hnode : Name node) (hname : Name name) :
    let line := ascii "    " ++ node ++ ascii ":::" ++ name
    newline ∉ line ∧ Statement line := by
  have hwords : newline ∉ ascii "    " ∧ newline ∉ ascii ":::" := by decide
  refine ⟨?_, .nodeClass indent_four hnode hname⟩
  simp only [List.mem_append, not_or]
  exact ⟨⟨⟨hwords.1, newline_not_mem_name hnode⟩, hwords.2⟩, newline_not_mem_name hname⟩

theorem mermaidEndLines_ok (birth : ResourceEvent) (death : Option ResourceEvent) :
    ∀ line ∈ mermaidEndLines birth death, newline ∉ line ∧ Statement line := by
  obtain ⟨-, -, hleak, hb, hd⟩ := names_fixed
  have hbirth := name_numbered hb birth.sequence
  intro line hline
  cases death with
  | none =>
    rw [mermaidEndLines, List.mem_cons, List.mem_singleton] at hline
    rcases hline with rfl | rfl
    · exact edge_line hbirth (name_numbered hleak _) (by decide) (by decide)
    · exact nodeClass_line (name_numbered hleak _) hleak
  | some death =>
    rw [mermaidEndLines, List.mem_singleton] at hline
    subst hline
    exact edge_line hbirth (name_numbered hd _) (mermaidDeathLabel_plain (Or.inl rfl) birth death)
      (mermaidDeathLabel_plain (Or.inr rfl) birth death)

theorem mermaidSummaryLine_ok (model : ReportModel lib) :
    newline ∉ mermaidSummaryLine model ∧ Statement (mermaidSummaryLine model) := by
  obtain ⟨hsummary, -, -, -, -⟩ := names_fixed
  have hindent : newline ∉ ascii "    " := by decide
  refine ⟨?_, .node indent_four hsummary (mermaidSummaryLabel_plain (Or.inr rfl) _ _ _)⟩
  simp only [mermaidSummaryLine, List.mem_append, not_or]
  exact ⟨⟨hindent, newline_not_mem_name hsummary⟩,
    newline_not_mem_bracketed (mermaidSummaryLabel_plain (Or.inl rfl) _ _ _)⟩

theorem mermaidNoticeLines_ok (printed : Nat) :
    ∀ line ∈ mermaidNoticeLines printed, newline ∉ line ∧ Statement line := by
  obtain ⟨hsummary, hempty, -, -, -⟩ := names_fixed
  rw [mermaidNoticeLines]
  split
  · intro line hline
    rw [List.mem_singleton.1 hline]
    exact edge_line hsummary hempty (by decide) (by decide)
  · exact fun line hline => absurd hline List.not_mem_nil

theorem mermaidClassLine_ok : newline ∉ mermaidClassLine ∧ Statement mermaidClassLine := by
  obtain ⟨-, -, hleak, -, -⟩ := names_fixed
  exact ⟨by decide, .classDef indent_four hleak (by decide)⟩

/-! ## The line of a birth -/

/-- The label of a birth, as its line has it. -/
theorem count_mermaidBirthLine (birth : ResourceEvent) :
    (mermaidBirthLine birth).count quote =
      (mermaidResourceName birth).bytes.count quote + 2 := by
  have hnumber : ∀ n, (decimalNat n).count quote = 0 :=
    fun n => List.count_eq_zero_of_not_mem (quote_not_mem_decimalNat n)
  have hkind := List.count_eq_zero_of_not_mem (resourceKindName_plain birth.kind).2
  have hwords : (ascii "    ").count quote = 0 ∧ (ascii "summary").count quote = 0 ∧
      (ascii " --> ").count quote = 0 ∧ (ascii "b").count quote = 0 ∧
      (ascii "event ").count quote = 0 ∧ (ascii " ").count quote = 0 := by
    refine ⟨?_, ?_, ?_, ?_, ?_, ?_⟩ <;> decide
  obtain ⟨hindent, hsummary, harrow, hb, hevent, hspace⟩ := hwords
  simp only [mermaidBirthLine, count_bracketed, List.count_append, List.flatten_cons,
    List.flatten_nil, List.count_nil, hnumber, hkind, hindent, hsummary, harrow, hb, hevent,
    hspace]
  omega

/-- The line of a birth is a statement exactly when the name of its resource has no quote. -/
theorem mermaidBirthLine_iff (birth : ResourceEvent) :
    Statement (mermaidBirthLine birth) ↔ quote ∉ (mermaidResourceName birth).bytes := by
  obtain ⟨hsummary, -, -, hb, -⟩ := names_fixed
  constructor
  · -- a quote in the name would be the third of the line
    intro hstatement hquote
    have hcount := hstatement.count_quote
    have hpos := List.count_pos_iff.2 hquote
    rw [count_mermaidBirthLine] at hcount
    omega
  · intro hquote
    have hwords := labelWords_plain (Or.inr rfl)
    apply Statement.edge indent_four hsummary (name_numbered hb _)
    simp [hwords, quote_not_mem_decimalNat, (resourceKindName_plain birth.kind).2, hquote]

theorem newline_not_mem_mermaidBirthLine {birth : ResourceEvent}
    (h : newline ∉ (mermaidResourceName birth).bytes) : newline ∉ mermaidBirthLine birth := by
  obtain ⟨hsummary, -, -, hb, -⟩ := names_fixed
  have hindent : newline ∉ ascii "    " ∧ newline ∉ ascii " --> " := by decide
  have hwords := labelWords_plain (Or.inl rfl)
  simp only [mermaidBirthLine, List.mem_append, not_or]
  refine ⟨⟨⟨⟨hindent.1, newline_not_mem_name hsummary⟩, hindent.2⟩, ?_⟩, ?_⟩
  · exact not_or.1 (by simpa using newline_not_mem_name (name_numbered hb birth.sequence))
  · apply newline_not_mem_bracketed
    simp [hwords, newline_not_mem_decimalNat, (resourceKindName_plain birth.kind).1, h]

/-- The name of a resource is that of its kind, or the class of a generic one. -/
theorem mermaidResourceName_cases {birth : ResourceEvent} (hbirth : isBirth birth = true)
    {b : UInt8} (h : b = newline ∨ b = quote) :
    b ∉ (mermaidResourceName birth).bytes ↔
      (birth.kind = .generic → ∀ resourceClass, birth.resourceClass = some resourceClass →
        b ∉ resourceClass.bytes) := by
  have hfixed : b ∉ (lit "fd").bytes ∧ b ∉ (lit "alloc").bytes ∧ b ∉ (lit "resource").bytes := by
    rcases h with rfl | rfl <;> decide
  rw [mermaidResourceName]
  by_cases hfd : birth.kind = .fdOpen
  · rw [if_pos hfd]
    exact iff_of_true hfixed.1 (by simp [hfd])
  · rw [if_neg hfd]
    by_cases halloc : birth.kind = .alloc ∨ birth.kind = .realloc
    · rw [if_pos halloc]
      refine iff_of_true hfixed.2.1 ?_
      rcases halloc with halloc | halloc <;> simp [halloc]
    · -- no other kind is a birth
      rw [if_neg halloc]
      have hgeneric : birth.kind = .generic := by
        simp only [isBirth, isAllocBirth, isGenericBirth, Bool.or_eq_true, Bool.and_eq_true,
          beq_iff_eq] at hbirth
        rw [not_or] at halloc
        rcases hbirth with (hopen | hopen | hopen) | hopen
        · exact absurd hopen hfd
        · exact absurd hopen halloc.1
        · exact absurd hopen.1.1 halloc.2
        · exact hopen.1
      cases hclass : birth.resourceClass with
      | none => simp [hfixed]
      | some resourceClass => simp [hgeneric]

/-! ## The report -/

theorem mem_lifetimes {model : ReportModel lib} {lifetime : ResourceEvent × Option ResourceEvent}
    (h : lifetime ∈ model.lifetimes) :
    lifetime.1 ∈ model.resources.items ∧ isBirth lifetime.1 = true ∧
      lifetime.2 = findLifetimeEnd model.resources.items lifetime.1 := by
  obtain ⟨birth, hbirth, rfl⟩ := List.mem_map.1 h
  obtain ⟨hmem, hisBirth⟩ := List.mem_filter.1 hbirth
  exact ⟨hmem, hisBirth, rfl⟩

/-- No resource class that the report shows has a quote. -/
def ShowsPlainClasses (model : ReportModel lib) : Prop :=
  ∀ lifetime ∈ model.lifetimes.take lifetimeTextLimit, lifetime.1.kind = .generic →
    ∀ resourceClass, lifetime.1.resourceClass = some resourceClass → quote ∉ resourceClass.bytes

/-- The lines of a model whose classes have no newline are those of its report. -/
theorem lines_printMermaidBody {model : ReportModel lib}
    (hlog : ∀ event ∈ model.resources.items, ∀ resourceClass,
      event.resourceClass = some resourceClass → newline ∉ resourceClass.bytes) :
    lines (printMermaidBody model) = mermaidLines model := by
  rw [printMermaidBody_eq]
  apply lines_unlines
  intro line hline
  simp only [mermaidLines, List.mem_append, List.mem_cons, List.mem_flatten, List.mem_map,
    List.not_mem_nil, or_false] at hline
  rcases hline with ((rfl | rfl) | ⟨_, ⟨lifetime, hlifetime, rfl⟩, hline⟩) | hline | rfl
  · decide
  · exact (mermaidSummaryLine_ok model).1
  · rcases List.mem_cons.1 hline with rfl | hline
    · -- the line of a birth
      obtain ⟨hmem, hbirth, -⟩ := mem_lifetimes (List.mem_of_mem_take hlifetime)
      apply newline_not_mem_mermaidBirthLine
      exact (mermaidResourceName_cases hbirth (Or.inl rfl)).2 fun _ => hlog lifetime.1 hmem
    · exact (mermaidEndLines_ok lifetime.1 lifetime.2 line hline).1
  · exact (mermaidNoticeLines_ok _ line hline).1
  · exact mermaidClassLine_ok.1

/-- **When the report is a flowchart.** Every line between the fences is a statement exactly when no
class among the lifetimes shown has a quote. -/
theorem mermaidReport_wellFormed_iff (model : ReportModel lib)
    (hlog : ∀ event ∈ model.resources.items, ∀ resourceClass,
      event.resourceClass = some resourceClass → newline ∉ resourceClass.bytes) :
    ∃ body, printMermaidReport model =
        ascii "\x60\x60\x60mermaid\n" ++ body ++ ascii "\x60\x60\x60\n" ∧
      ((∀ line ∈ lines body, Statement line) ↔ ShowsPlainClasses model) := by
  refine ⟨printMermaidBody model, by simp [printMermaidReport], ?_⟩
  rw [lines_printMermaidBody hlog]
  constructor
  · intro hall lifetime hlifetime
    -- the line of this birth is one of the lines
    obtain ⟨-, hbirth, -⟩ := mem_lifetimes (List.mem_of_mem_take hlifetime)
    have hline : mermaidBirthLine lifetime.1 ∈ mermaidLines model := by
      simp only [mermaidLines, List.mem_append, List.mem_flatten, List.mem_map]
      exact Or.inl (Or.inr ⟨_, ⟨lifetime, hlifetime, rfl⟩, List.mem_cons_self⟩)
    have hname := (mermaidBirthLine_iff lifetime.1).1 (hall _ hline)
    exact (mermaidResourceName_cases hbirth (Or.inr rfl)).1 hname
  · intro hplain line hline
    simp only [mermaidLines, List.mem_append, List.mem_cons, List.mem_flatten, List.mem_map,
      List.not_mem_nil, or_false] at hline
    rcases hline with ((rfl | rfl) | ⟨_, ⟨lifetime, hlifetime, rfl⟩, hline⟩) | hline | rfl
    · exact .header (by decide)
    · exact (mermaidSummaryLine_ok model).2
    · rcases List.mem_cons.1 hline with rfl | hline
      · obtain ⟨-, hbirth, -⟩ := mem_lifetimes (List.mem_of_mem_take hlifetime)
        apply (mermaidBirthLine_iff lifetime.1).2
        exact (mermaidResourceName_cases hbirth (Or.inr rfl)).2 (hplain lifetime hlifetime)
      · exact (mermaidEndLines_ok lifetime.1 lifetime.2 line hline).2
    · exact (mermaidNoticeLines_ok _ line hline).2
    · exact mermaidClassLine_ok.2

/-- A record that acquires a generic resource. -/
def acquireRecord (pid : Int) (resourceClass resourceId : Text) : ResourceEvent :=
  { kind := .generic, pid, resourceClass := some resourceClass, resourceId := some resourceId
    metadata := some (lit "") }

/-- Two records whose classes are plain words. -/
theorem mermaidReport_wellFormed_mapping :
    let log := [acquireRecord 1 (lit "mapping") (lit "m1"), openRecord 1 3]
    let model := (finalizeLeaks (ingestLog State.zeroed (number log))).model
    ShowsPlainClasses model ∧ ∃ body, printMermaidReport model =
        ascii "\x60\x60\x60mermaid\n" ++ body ++ ascii "\x60\x60\x60\n" ∧
      ((∀ line ∈ lines body, Statement line) ↔ ShowsPlainClasses model) := by
  intro log model
  have hstored : model.resources.items = number log := by decide
  refine ⟨?_, mermaidReport_wellFormed_iff model ?_⟩
  · have hshown : model.lifetimes.take lifetimeTextLimit =
        [((number log)[0], none), ((number log)[1], none)] := by decide
    intro lifetime hlifetime
    rw [hshown, List.mem_cons, List.mem_singleton] at hlifetime
    rcases hlifetime with rfl | rfl <;> decide
  · rw [hstored]
    intro event hevent resourceClass hclass
    rcases List.mem_pair.1 hevent with rfl | rfl
    · rw [← Option.some.inj hclass]
      decide
    · cases hclass

/-- A class with a quote ends its label early: the line of its birth is no statement. -/
theorem mermaidReport_quoted_class :
    let log := [acquireRecord 1 (lit "a\"] --> b[\"x") (lit "m1")]
    let model := (finalizeLeaks (ingestLog State.zeroed (number log))).model
    printMermaidReport model =
        ascii "\x60\x60\x60mermaid\n" ++ printMermaidBody model ++ ascii "\x60\x60\x60\n" ∧
      ¬ ∀ line ∈ lines (printMermaidBody model), Statement line := by
  intro log model
  refine ⟨by simp [printMermaidReport], fun hall => ?_⟩
  have hlog : ∀ event ∈ model.resources.items, ∀ resourceClass,
      event.resourceClass = some resourceClass → newline ∉ resourceClass.bytes := by
    have hstored : model.resources.items = number log := by decide
    rw [hstored]
    intro event hevent resourceClass hclass
    rw [List.mem_singleton.1 hevent] at hclass
    rw [← Option.some.inj hclass]
    decide
  have hline : mermaidBirthLine (number log)[0] ∈ mermaidLines model := by
    have hshown : model.lifetimes.take lifetimeTextLimit = [((number log)[0], none)] := by decide
    simp [mermaidLines, hshown, mermaidLifetimeLines]
  rw [lines_printMermaidBody hlog] at hall
  exact absurd (hall _ hline) (mt (mermaidBirthLine_iff _).1 (by decide))

end P101Report
