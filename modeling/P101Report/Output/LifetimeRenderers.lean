import P101Report.Library.Json
import P101Report.Model.Mermaid

/-!
# The three lifetime renderers show the same lifetimes

The lifetimes of a model are its births with their ends, in stored order. The JSON loop renders all
of them; the text and Mermaid loops count on behind the limit but render only the first forty
(`printTextLifetimesLoop_eq`, `printMermaidLifetimesLoop_eq`). The notices follow from the counts.
-/

set_option autoImplicit false

namespace P101Report

open Decimal Json

variable {lib : ToolEventLib}

/-- The lifetimes that begin with one of `events`: each birth with its end. -/
def lifetimesFrom (resources events : List ResourceEvent) :
    List (ResourceEvent × Option ResourceEvent) :=
  (events.filter isBirth).map fun birth => (birth, findLifetimeEnd resources birth)

/-- The lifetimes of a model. -/
def ReportModel.lifetimes (model : ReportModel lib) :
    List (ResourceEvent × Option ResourceEvent) :=
  lifetimesFrom model.resources.items model.resources.items

@[simp] theorem lifetimesFrom_nil (resources : List ResourceEvent) :
    lifetimesFrom resources [] = [] := rfl

theorem lifetimesFrom_cons (resources : List ResourceEvent) (event : ResourceEvent)
    (rest : List ResourceEvent) :
    lifetimesFrom resources (event :: rest) =
      if isBirth event then
        (event, findLifetimeEnd resources event) :: lifetimesFrom resources rest
      else lifetimesFrom resources rest := by
  rw [lifetimesFrom, List.filter_cons]
  split <;> rfl

/-! ## The JSON loop -/

/-- What `p101_report_print_json_lifetime` prints for a birth with this end. -/
def printJsonLifetimeWith (model : ReportModel lib) (birth : ResourceEvent)
    (end? : Option ResourceEvent) : Option (List UInt8) := do
  let site ← model.siteAt birth.site
  let death ← printJsonDeath model birth end?
  return List.flatten [
    ascii "    \x7b\"resource\": ", printJsonLifetimeResource birth,
    ascii ", \"pid\": ", decimalInt birth.pid,
    ascii ", \"birth\": ", printJsonEvent site birth,
    death, ascii "\x7d"]

theorem printJsonLifetime_eq (model : ReportModel lib) (birth : ResourceEvent) :
    printJsonLifetime model birth =
      printJsonLifetimeWith model birth (findLifetimeEnd model.resources.items birth) := rfl

/-- The items of the JSON loop. -/
def jsonLifetimes (model : ReportModel lib)
    (lifetimes : List (ResourceEvent × Option ResourceEvent)) : Option (List (List UInt8)) :=
  lifetimes.mapM fun lifetime => printJsonLifetimeWith model lifetime.1 lifetime.2

/-- The items behind others, each on a line of its own. -/
def jsonItems (printed : Nat) (items : List (List UInt8)) : List UInt8 :=
  let lines := items.map fun item => ascii "\n" ++ item
  if printed = 0 then separated lines else continued lines

theorem jsonItems_cons (printed : Nat) (item : List UInt8) (later : List (List UInt8)) :
    jsonItems printed (item :: later) =
      List.flatten [if printed > 0 then ascii "," else [], ascii "\n", item,
        jsonItems (printed + 1) later] := by
  have hcomma : ascii "," = [0x2c] := rfl
  rw [jsonItems, jsonItems, if_neg (Nat.succ_ne_zero printed)]
  rcases Nat.eq_zero_or_pos printed with rfl | hpos
  · -- the first item has no comma before it
    simp [separated]
  · rw [if_neg (Nat.ne_of_gt hpos), if_pos hpos]
    simp [continued, hcomma]

theorem jsonItems_nil (printed : Nat) : jsonItems printed [] = [] := by
  rw [jsonItems]
  split <;> rfl

theorem printJsonLifetimesLoop_eq (model : ReportModel lib) (events : List ResourceEvent)
    (printed : Nat) :
    printJsonLifetimesLoop model events printed =
      (jsonLifetimes model (lifetimesFrom model.resources.items events)).map
        (jsonItems printed) := by
  induction events generalizing printed with
  | nil => simp [printJsonLifetimesLoop, jsonLifetimes, jsonItems_nil]
  | cons event rest ih =>
    rw [printJsonLifetimesLoop, isNoBirth_eq, lifetimesFrom_cons]
    by_cases hbirth : isBirth event = true
    · rw [if_pos hbirth, hbirth, Bool.not_true, if_neg Bool.false_ne_true, ih,
        printJsonLifetime_eq]
      simp only [jsonLifetimes, List.mapM_cons]
      -- either lookup may fail; otherwise the item is written in front of the later ones
      cases printJsonLifetimeWith model event (findLifetimeEnd model.resources.items event) with
      | none => rfl
      | some lifetime =>
        cases (lifetimesFrom model.resources.items rest).mapM
            (fun lifetime => printJsonLifetimeWith model lifetime.1 lifetime.2) with
        | none => rfl
        | some later => simp [jsonItems_cons]
    · rw [if_neg hbirth, if_pos (by simpa using hbirth), ih]

/-! ## The text loop -/

/-- The entries of the text loop. -/
def textLifetimes (model : ReportModel lib)
    (lifetimes : List (ResourceEvent × Option ResourceEvent)) : Option (List (List UInt8)) :=
  lifetimes.mapM fun lifetime => printTextLifetime model lifetime.1 lifetime.2

/-- From `printed` entries on, the loop renders what the limit leaves and counts all lifetimes. -/
theorem printTextLifetimesLoop_eq (model : ReportModel lib) (events : List ResourceEvent)
    (printed total : Nat) :
    let lifetimes := lifetimesFrom model.resources.items events
    printTextLifetimesLoop model events printed total =
      (textLifetimes model (lifetimes.take (lifetimeTextLimit - printed))).map fun entries =>
        (entries.flatten, printed + min (lifetimeTextLimit - printed) lifetimes.length,
          total + lifetimes.length) := by
  induction events generalizing printed total with
  | nil => simp [printTextLifetimesLoop, textLifetimes]
  | cons event rest ih =>
    dsimp only at ih ⊢
    rw [printTextLifetimesLoop, lifetimesFrom_cons]
    by_cases hbirth : isBirth event = true
    · rw [if_pos hbirth, if_pos hbirth]
      by_cases hlimit : lifetimeTextLimit ≤ printed
      · -- behind the limit the birth is only counted
        have hzero : lifetimeTextLimit - printed = 0 := Nat.sub_eq_zero_of_le hlimit
        rw [if_pos hlimit, ih, hzero]
        simp [textLifetimes, Nat.add_assoc, Nat.add_comm 1]
      · have hsucc : lifetimeTextLimit - printed = lifetimeTextLimit - (printed + 1) + 1 := by
          omega
        rw [if_neg hlimit, ih, hsucc, List.take_succ_cons]
        simp only [textLifetimes, List.mapM_cons]
        cases printTextLifetime model event (findLifetimeEnd model.resources.items event) with
        | none => rfl
        | some lifetime =>
          cases ((lifetimesFrom model.resources.items rest).take
              (lifetimeTextLimit - (printed + 1))).mapM
              (fun lifetime => printTextLifetime model lifetime.1 lifetime.2) with
          | none => rfl
          | some later =>
            simp only [Option.pure_def, Option.bind_eq_bind, Option.bind_some, Option.map_some,
              List.flatten_cons, List.length_cons, Option.some.injEq, Prod.mk.injEq, true_and]
            constructor <;> omega
    · rw [if_neg hbirth, if_neg hbirth, ih]

/-! ## The Mermaid loop -/

/-- The entries of the Mermaid loop. -/
def mermaidLifetimes (lifetimes : List (ResourceEvent × Option ResourceEvent)) :
    List (List UInt8) :=
  lifetimes.map fun lifetime => printMermaidLifetime lifetime.1 lifetime.2

theorem printMermaidLifetimesLoop_eq (model : ReportModel lib) (events : List ResourceEvent)
    (printed : Nat) :
    let lifetimes := lifetimesFrom model.resources.items events
    printMermaidLifetimesLoop model events printed =
      ((mermaidLifetimes (lifetimes.take (lifetimeTextLimit - printed))).flatten,
        printed + min (lifetimeTextLimit - printed) lifetimes.length) := by
  induction events generalizing printed with
  | nil => simp [printMermaidLifetimesLoop, mermaidLifetimes]
  | cons event rest ih =>
    dsimp only at ih ⊢
    rw [printMermaidLifetimesLoop, lifetimesFrom_cons]
    by_cases hbirth : isBirth event = true
    · rw [if_pos hbirth, if_pos hbirth]
      by_cases hlimit : lifetimeTextLimit ≤ printed
      · have hzero : lifetimeTextLimit - printed = 0 := Nat.sub_eq_zero_of_le hlimit
        rw [if_pos hlimit, ih, hzero]
        simp [mermaidLifetimes]
      · have hsucc : lifetimeTextLimit - printed = lifetimeTextLimit - (printed + 1) + 1 := by
          omega
        rw [if_neg hlimit, ih, hsucc, List.take_succ_cons]
        simp only [mermaidLifetimes, List.map_cons, List.flatten_cons, List.length_cons,
          Prod.mk.injEq, true_and]
        omega
    · rw [if_neg hbirth, if_neg hbirth, ih]

/-! ## The notices -/

/-- The notice of the text report that it shows only some of `total` lifetimes. -/
def truncationNotice (total : Nat) : List UInt8 :=
  List.flatten [
    ascii "  ... showing first ", decimalNat lifetimeTextLimit, ascii " of ", decimalNat total,
    ascii " lifetimes\n"]

/-- The notice of the text report that there is no lifetime. -/
def noLifetimesNotice : List UInt8 := ascii "  no resource lifetimes recorded\n"

/-- The notice of the Mermaid report that there is no lifetime. -/
def noLifetimesNode : List UInt8 :=
  ascii "    summary --> empty[\"no resource lifetimes recorded\"]\n"

theorem truncationNotice_ne (total : Nat) : truncationNotice total ≠ noLifetimesNotice := by
  intro h
  -- they differ in the third byte
  have hthird := congrArg (fun text => text[2]?) h
  simp [truncationNotice, noLifetimesNotice, ascii] at hthird

theorem truncationNotice_ne_nil (total : Nat) : truncationNotice total ≠ [] := by
  simp [truncationNotice, ascii]

/-- The text notice for a number of lifetimes. -/
theorem printTextNotice_cases (total : Nat) :
    let notice := printTextNotice (min lifetimeTextLimit total) total
    (notice = truncationNotice total ↔ lifetimeTextLimit < total) ∧
      (notice = noLifetimesNotice ↔ total = 0) ∧
      (notice = [] ↔ 0 < total ∧ total ≤ lifetimeTextLimit) := by
  have hne := truncationNotice_ne total
  have hnil := truncationNotice_ne_nil total
  have hnone : noLifetimesNotice ≠ [] := by simp [noLifetimesNotice, ascii]
  dsimp only
  rw [printTextNotice]
  by_cases hzero : total = 0
  · rw [if_pos hzero]
    refine ⟨iff_of_false hne.symm (by omega), iff_of_true rfl hzero, ?_⟩
    exact iff_of_false hnone (by omega)
  · rw [if_neg hzero]
    by_cases hmore : lifetimeTextLimit < total
    · -- the limit has been reached, so the number shown is the limit
      rw [if_pos (by omega), Nat.min_eq_left (Nat.le_of_lt hmore)]
      refine ⟨iff_of_true rfl hmore, iff_of_false hne hzero, ?_⟩
      exact iff_of_false hnil (by omega)
    · rw [if_neg (by omega)]
      refine ⟨iff_of_false hnil.symm hmore, iff_of_false hnone.symm hzero, ?_⟩
      exact iff_of_true rfl ⟨by omega, by omega⟩

theorem printMermaidNotice_cases (total : Nat) :
    let notice := printMermaidNotice (min lifetimeTextLimit total)
    (notice = noLifetimesNode ↔ total = 0) ∧ (notice = [] ↔ 0 < total) := by
  have hnode : noLifetimesNode ≠ [] := by simp [noLifetimesNode, ascii]
  have hlimit : 0 < lifetimeTextLimit := by decide
  dsimp only
  rw [printMermaidNotice]
  by_cases hzero : total = 0
  · rw [if_pos (by omega)]
    exact ⟨iff_of_true rfl hzero, iff_of_false hnode (by omega)⟩
  · rw [if_neg (by omega)]
    exact ⟨iff_of_false hnode.symm hzero, iff_of_true rfl (by omega)⟩

/-! ## The three reports -/

/-- **The renderers agree.** The JSON report renders every lifetime of the model, the text and the
Mermaid report the first forty of them, in the same order and with the same ends. The text report
announces the rest exactly when there are more, and both say that there is none exactly when there
is none. -/
theorem lifetime_renderers_agree (model : ReportModel lib) :
    let lifetimes := model.lifetimes
    printJsonLifetimes model = (jsonLifetimes model lifetimes).map (jsonItems 0) ∧
      (∃ notice,
        printTextLifetimes model = (textLifetimes model (lifetimes.take lifetimeTextLimit)).map
          (fun entries => List.flatten [
            ascii "Resource lifetimes\n", entries.flatten, notice, ascii "\n"]) ∧
        (notice = truncationNotice lifetimes.length ↔ lifetimeTextLimit < lifetimes.length) ∧
        (notice = noLifetimesNotice ↔ lifetimes = []) ∧
        (notice = [] ↔ lifetimes ≠ [] ∧ lifetimes.length ≤ lifetimeTextLimit)) ∧
      ∃ notice,
        printMermaidLifetimes model = List.flatten [
          (mermaidLifetimes (lifetimes.take lifetimeTextLimit)).flatten, notice,
          ascii "    classDef leak fill:#ffd6d6,stroke:#a33,stroke-width:2px\n"] ∧
        (notice = noLifetimesNode ↔ lifetimes = []) ∧ (notice = [] ↔ lifetimes ≠ []) := by
  intro lifetimes
  refine ⟨printJsonLifetimesLoop_eq model model.resources.items 0, ?_, ?_⟩
  · refine ⟨printTextNotice (min lifetimeTextLimit lifetimes.length) lifetimes.length, ?_, ?_⟩
    · rw [printTextLifetimes, printTextLifetimesLoop_eq, Nat.sub_zero]
      simp only [Nat.zero_add]
      change (Option.map _ (textLifetimes model (lifetimes.take lifetimeTextLimit))).bind _ = _
      cases textLifetimes model (lifetimes.take lifetimeTextLimit) with
      | none => rfl
      | some entries => rfl
    · obtain ⟨hmore, hnone, hall⟩ := printTextNotice_cases lifetimes.length
      rw [List.length_eq_zero_iff] at hnone
      rw [List.length_pos_iff] at hall
      exact ⟨hmore, hnone, hall⟩
  · refine ⟨printMermaidNotice (min lifetimeTextLimit lifetimes.length), ?_, ?_⟩
    · rw [printMermaidLifetimes, printMermaidLifetimesLoop_eq, Nat.sub_zero, Nat.zero_add]
      rfl
    · obtain ⟨hnone, hsome⟩ := printMermaidNotice_cases lifetimes.length
      rw [List.length_eq_zero_iff] at hnone
      rw [List.length_pos_iff] at hsome
      exact ⟨hnone, hsome⟩

end P101Report
