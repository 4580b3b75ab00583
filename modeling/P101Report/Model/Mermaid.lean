import P101Report.Model.Text

/-!
# The Mermaid report

`src/lifetime_mermaid.c` and the Mermaid part of `src/output.c`, when no write to the standard
output fails. The report is a fenced block; its body is a flowchart with one node for the summary
and two for each lifetime.
-/

set_option autoImplicit false

namespace P101Report

open Decimal

variable {lib : ToolEventLib}

/-- `resource_name`: a generic resource is named by its class as the log has it. -/
def mermaidResourceName (birth : ResourceEvent) : Text :=
  if birth.kind = .fdOpen then lit "fd"
  else if birth.kind = .alloc ∨ birth.kind = .realloc then lit "alloc"
  else birth.resourceClass.getD (lit "resource")

/-- The line of a birth. -/
def printMermaidBirth (birth : ResourceEvent) : List UInt8 :=
  List.flatten [
    ascii "    summary --> b", decimalNat birth.sequence, ascii "[\"event ",
    decimalNat birth.eventSequence, ascii " ", (mermaidResourceName birth).bytes, ascii " ",
    (resourceKindName birth.kind).bytes, ascii "\"]\n"]

/-- The lines behind a birth: a leak with its class, or a death. -/
def printMermaidEnd (birth : ResourceEvent) : Option ResourceEvent → List UInt8
  | none =>
    List.flatten [
      ascii "    b", decimalNat birth.sequence, ascii " --> leak", decimalNat birth.sequence,
      ascii "[\"still live at exit\"]\n",
      ascii "    leak", decimalNat birth.sequence, ascii ":::leak\n"]
  | some death =>
    match lifetimeDurationNs birth death with
    | some durationNs =>
      List.flatten [
        ascii "    b", decimalNat birth.sequence, ascii " --> d", decimalNat death.sequence,
        ascii "[\"event ", decimalNat death.eventSequence, ascii " ",
        (resourceKindName death.kind).bytes, ascii "; ", decimalNat durationNs, ascii " ns\"]\n"]
    | none =>
      List.flatten [
        ascii "    b", decimalNat birth.sequence, ascii " --> d", decimalNat death.sequence,
        ascii "[\"event ", decimalNat death.eventSequence, ascii " ",
        (resourceKindName death.kind).bytes, ascii "\"]\n"]

/-- What the loop of `p101_report_print_mermaid_lifetimes` prints for a birth. -/
def printMermaidLifetime (birth : ResourceEvent) (death : Option ResourceEvent) : List UInt8 :=
  printMermaidBirth birth ++ printMermaidEnd birth death

/-- The loop of `p101_report_print_mermaid_lifetimes`, with `printed`. -/
def printMermaidLifetimesLoop (model : ReportModel lib) :
    List ResourceEvent → Nat → List UInt8 × Nat
  | [], printed => ([], printed)
  | birth :: rest, printed =>
    if isBirth birth then
      if lifetimeTextLimit ≤ printed then printMermaidLifetimesLoop model rest printed
      else
        let (later, total) := printMermaidLifetimesLoop model rest (printed + 1)
        (printMermaidLifetime birth (findLifetimeEnd model.resources.items birth) ++ later, total)
    else printMermaidLifetimesLoop model rest printed

/-- The notice that there is no lifetime. -/
def printMermaidNotice (printed : Nat) : List UInt8 :=
  if printed = 0 then ascii "    summary --> empty[\"no resource lifetimes recorded\"]\n" else []

/-- `p101_report_print_mermaid_lifetimes`. -/
def printMermaidLifetimes (model : ReportModel lib) : List UInt8 :=
  let (lifetimes, printed) := printMermaidLifetimesLoop model model.resources.items 0
  List.flatten [
    lifetimes, printMermaidNotice printed,
    ascii "    classDef leak fill:#ffd6d6,stroke:#a33,stroke-width:2px\n"]

/-- What `p101_report_print_mermaid_report` prints between the fences. -/
def printMermaidBody (model : ReportModel lib) : List UInt8 :=
  List.flatten [
    ascii "flowchart LR\n",
    ascii "    summary[\"resources: ", decimalNat model.resourceRecords, ascii " records; calls: ",
    decimalNat model.callRecords, ascii " records; findings: ",
    decimalNat model.findings.items.length, ascii "\"]\n",
    printMermaidLifetimes model]

/-- `p101_report_print_mermaid_report`. -/
def printMermaidReport (model : ReportModel lib) : List UInt8 :=
  List.flatten [ascii "\x60\x60\x60mermaid\n", printMermaidBody model, ascii "\x60\x60\x60\n"]

end P101Report
