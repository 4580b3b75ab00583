import P101Report.Model.Cli
import P101Report.Output.Bundle
import P101Report.Reading.ExitStatus

/-!
# What a command line asks for

A command line is accepted exactly when its words spell options with at most one report directory,
and its arguments are then those of the last option of each kind; its help is asked for exactly
where `-h` is reached before any error (`parseArguments_iff`). From the arguments a command accepts
to the status it exits with, `main_status` says in each case what `EXIT_CLEAN`, `EXIT_FINDINGS` and
`EXIT_TROUBLE` mean.
-/

set_option autoImplicit false

namespace P101Report

open Getopt

variable {lib : ToolEventLib}

/-! ## What options mean -/

/-- The options a command line spells, in order, each with its value. -/
abbrev OptionList : Type := List (UInt8 × Option (List UInt8))

/-- The last of the options with one of these characters. -/
def lastOption (options : OptionList) (cs : List Char) : Option (UInt8 × Option (List UInt8)) :=
  options.reverse.find? fun option => option.1 ∈ cs.map letter

/-- The value of the last of these options. -/
def lastValue (options : OptionList) (c : Char) : Option Text :=
  (lastOption options [c]).bind fun option => option.2.map cString

/-- The format of the last of these options. -/
def lastFormat (options : OptionList) : ReportFormat :=
  match lastOption options ['j', 'm'] with
  | none => .text
  | some option => if option.1 = letter 'j' then .json else .mermaid

/-- The arguments that options mean. -/
def optionsMean (options : OptionList) : CommandArguments where
  resourceLog := lastValue options 'r'
  callLog := lastValue options 'c'
  format := lastFormat options
  bundleOutputDir := lastValue options 'b'
  reportDir := lastValue options 'd'
  verbose := (lastOption options ['v']).isSome

/-- At most one report directory: an operand only where the options give none, and one at most. -/
def OperandsFit (args : CommandArguments) (operands : List (List UInt8)) : Prop :=
  operands = [] ∨ operands.length = 1 ∧ args.reportDir = none

/-- The arguments with the operand as their report directory. -/
def withOperands (args : CommandArguments) (operands : List (List UInt8)) : CommandArguments :=
  { args with reportDir := args.reportDir.or (operands.head?.map cString) }

theorem lastOption_concat (options : OptionList) (option : UInt8 × Option (List UInt8))
    (cs : List Char) :
    lastOption (options ++ [option]) cs =
      if option.1 ∈ cs.map letter then some option else lastOption options cs := by
  simp only [lastOption, List.reverse_append, List.reverse_singleton, List.singleton_append,
    List.find?_cons]
  by_cases h : option.1 ∈ cs.map letter
  · rw [decide_eq_true h, if_pos h]
  · rw [decide_eq_false h, if_neg h]

theorem kind_ne_none {c : UInt8} (h : reportOptions.kind c ≠ none) :
    c = letter 'h' ∨ c = letter 'v' ∨ c = letter 'j' ∨ c = letter 'm' ∨ c = letter 'b' ∨
      c = letter 'd' ∨ c = letter 'r' ∨ c = letter 'c' := by
  have hletters : ascii ":hvjmb:d:r:c:" =
      [letter ':', letter 'h', letter 'v', letter 'j', letter 'm', letter 'b', letter ':',
        letter 'd', letter ':', letter 'r', letter ':', letter 'c', letter ':'] := by
    decide
  by_contra hnone
  simp only [not_or] at hnone
  obtain ⟨hh, hv, hj, hm, hb, hd, hr, hc⟩ := hnone
  apply h
  simp only [reportOptions, hletters, declared]
  by_cases hcolon : c = letter ':'
  · simp [hcolon]
  · simp [Ne.symm hh, Ne.symm hv, Ne.symm hj, Ne.symm hm, Ne.symm hb, Ne.symm hd, Ne.symm hr,
      Ne.symm hc, Ne.symm hcolon]

/-- An option is handled as the last of its kind. -/
theorem handleOption_optionsMean {options : OptionList} {option : UInt8 × Option (List UInt8)}
    (hkind : reportOptions.kind option.1 ≠ none) (hhelp : option.1 ≠ letter 'h') :
    handleOption (optionsMean options) (.option option.1 option.2) =
      .ok (optionsMean (options ++ [option])) := by
  obtain ⟨c, value⟩ := option
  simp only [optionsMean, lastValue, lastFormat, lastOption_concat]
  obtain rfl | rfl | rfl | rfl | rfl | rfl | rfl | rfl := kind_ne_none hkind
  · exact absurd rfl hhelp
  all_goals rfl

/-- Options without `-h` are all handled; with one, they are not. -/
theorem handleAll_iff {options : OptionList} {args : CommandArguments}
    (hkinds : ∀ option ∈ options, reportOptions.kind option.1 ≠ none) :
    handleAll handleOption options argumentsInit = .ok args ↔
      (∀ option ∈ options, option.1 ≠ letter 'h') ∧ args = optionsMean options := by
  induction options using List.reverseRecOn generalizing args with
  | nil =>
    change Except.ok argumentsInit = .ok args ↔ _
    simp only [Except.ok.injEq, List.not_mem_nil, false_implies, implies_true, true_and]
    exact ⟨Eq.symm, Eq.symm⟩
  | append_singleton options option ih =>
    have hconcat : handleAll handleOption (options ++ [option]) argumentsInit =
        handleAll handleOption options argumentsInit >>= fun args =>
          handleOption args (.option option.1 option.2) := by
      simp [handleAll]
    have hinit := fun args => @ih args fun option hmem =>
      hkinds option (List.mem_append_left _ hmem)
    have hlast := hkinds option (by simp)
    rw [hconcat]
    constructor
    · intro h
      cases hall : handleAll handleOption options argumentsInit with
      | error stop =>
        rw [hall] at h
        cases h
      | ok before =>
        obtain ⟨hoptions, rfl⟩ := (hinit before).1 hall
        rw [hall] at h
        change handleOption (optionsMean options) (.option option.1 option.2) = .ok args at h
        have hhelp : option.1 ≠ letter 'h' := by
          intro heq
          simp [handleOption, heq] at h
        rw [handleOption_optionsMean hlast hhelp] at h
        cases h
        refine ⟨fun other hmem => ?_, rfl⟩
        obtain hmem | hmem := List.mem_append.1 hmem
        · exact hoptions other hmem
        · exact List.mem_singleton.1 hmem ▸ hhelp
    · rintro ⟨hoptions, rfl⟩
      rw [(hinit _).2 ⟨fun option hmem => hoptions option (List.mem_append_left _ hmem), rfl⟩]
      exact handleOption_optionsMean hlast (hoptions option (by simp))

/-! ## Parsing -/

theorem handleOption_refuses : Refuses handleOption := by
  intro args c
  exact ⟨fun args' => by simp [handleOption], fun args' => by simp [handleOption]⟩

theorem handleOption_stopsAt : StopsAt reportOptions (letter 'h') Stop.help handleOption where
  kind := by decide
  stops := fun args value => rfl
  only := by
    intro args item h
    cases item with
    | missing c => cases h
    | unknown c => cases h
    | option c value =>
      by_cases hc : c = letter 'h'
      · exact ⟨value, hc ▸ rfl⟩
      · simp only [handleOption, if_neg hc] at h
        split_ifs at h
        exact absurd h (by simp)
  goes := by
    intro args c value hkind hhelp
    obtain rfl | rfl | rfl | rfl | rfl | rfl | rfl | rfl := kind_ne_none hkind
    · exact absurd rfl hhelp
    all_goals exact ⟨_, rfl⟩

/-- The options of a command line are options of the report. -/
theorem kind_of_spells {order : Order} {cluster : List UInt8} {words : List (List UInt8)}
    {options : OptionList} {operands : List (List UInt8)}
    (h : Spells reportOptions order cluster words options operands) :
    ∀ option ∈ options, reportOptions.kind option.1 ≠ none := by
  induction h with
  | done => simp
  | ended => simp
  | stopped => simp
  | passed _ _ _ ih => exact ih
  | word _ _ ih => exact ih
  | flag hkind _ ih => simpa [hkind] using ih
  | attached hkind _ _ ih => simpa [hkind] using ih
  | detached hkind _ ih => simpa [hkind] using ih

theorem parseOperands_iff {before args : CommandArguments} {operands : List (List UInt8)} :
    parseOperands before operands = .ok args ↔
      OperandsFit before operands ∧ args = withOperands before operands := by
  match operands with
  | [] =>
    simp only [parseOperands, OperandsFit, withOperands, Except.ok.injEq, true_or, true_and,
      List.head?_nil, Option.map_none, Option.or_none]
    exact ⟨Eq.symm, Eq.symm⟩
  | dir :: rest =>
    cases hdir : before.reportDir with
    | some value => simp [parseOperands, OperandsFit, hdir]
    | none =>
      cases rest with
      | nil =>
        simp only [parseOperands, OperandsFit, withOperands, hdir, ne_eq, not_true_eq_false,
          if_false, Except.ok.injEq, reduceCtorEq, List.length_singleton, and_self, or_true,
          true_and, List.head?_cons, Option.map_some, Option.none_or]
        exact ⟨Eq.symm, Eq.symm⟩
      | cons other rest => simp [parseOperands, OperandsFit, hdir]

theorem parseOperands_ne_help {args : CommandArguments} {operands : List (List UInt8)} :
    parseOperands args operands ≠ .error .help := by
  unfold parseOperands
  split
  · simp
  · split
    · simp
    · split <;> simp

/-- Help is asked for by `--help` alone, or by an `-h` that is reached before any error. -/
def AsksHelp (order : Order) (words : List Text) : Prop :=
  words = [lit "--help"] ∨ Reaches reportOptions order (letter 'h') [] (words.map Text.bytes)

/-- The words spell options and operands, which mean these arguments. -/
def Asks (order : Order) (words : List Text) (args : CommandArguments) : Prop :=
  ∃ options operands, Spells reportOptions order [] (words.map Text.bytes) options operands ∧
    (∀ option ∈ options, option.1 ≠ letter 'h') ∧
    OperandsFit (optionsMean options) operands ∧ args = withOperands (optionsMean options) operands

theorem bytes_help : (lit "--help").bytes =
    reportOptions.dash :: reportOptions.dash :: ascii "help" := by
  decide

/-- **Parsing a command line.** The words are accepted exactly when they spell options and operands,
with at most one report directory and no `-h`; the arguments are those of the last option of each
kind. Help is printed exactly when it is asked for. -/
theorem parseArguments_iff (order : Order) (words : List Text) :
    (∀ args, parseArguments order words argumentsInit = .ok args ↔ Asks order words args) ∧
      (parseArguments order words argumentsInit = .error .help ↔ AsksHelp order words) := by
  unfold parseArguments AsksHelp Asks
  by_cases hword : words = [lit "--help"]
  · -- the word spells no options, since a dash is none
    rw [if_pos hword]
    refine ⟨fun args => iff_of_false (by simp) ?_, iff_of_true rfl (Or.inl hword)⟩
    rintro ⟨options, operands, hspells, -⟩
    rw [hword, List.map_singleton, bytes_help] at hspells
    cases hspells with
    | stopped _ hoperand => exact absurd hoperand (isOperand_dash (by simp))
    | passed _ hoperand => exact absurd hoperand (isOperand_dash (by simp))
    | word _ h => exact not_spells_dash h
  · rw [if_neg hword]
    have hok : ∀ args operands,
        reportOptions.run order handleOption (words.map Text.bytes) argumentsInit =
            .ok (args, operands) ↔
          ∃ options, Spells reportOptions order [] (words.map Text.bytes) options operands ∧
            handleAll handleOption options argumentsInit = .ok args :=
      fun args operands => run_eq_ok_iff handleOption_refuses
    have hstop :
        reportOptions.run order handleOption (words.map Text.bytes) argumentsInit = .error .help ↔
          Reaches reportOptions order (letter 'h') [] (words.map Text.bytes) :=
      run_eq_stop_iff handleOption_refuses handleOption_stopsAt
    cases hrun : reportOptions.run order handleOption (words.map Text.bytes) argumentsInit with
    | error stop =>
      -- the loop has stopped, so the words spell no options that could all be handled
      refine ⟨fun args => iff_of_false (by simp) ?_, ?_⟩
      · rintro ⟨options, operands, hspells, hhelp, -⟩
        have := (hok _ operands).2
          ⟨options, hspells, (handleAll_iff (kind_of_spells hspells)).2 ⟨hhelp, rfl⟩⟩
        rw [hrun] at this
        cases this
      · rw [← hstop, hrun, or_iff_right hword]
        simp
    | ok result =>
      obtain ⟨args, operands⟩ := result
      obtain ⟨options, hspells, hall⟩ := (hok args operands).1 hrun
      obtain ⟨hhelp, rfl⟩ := (handleAll_iff (kind_of_spells hspells)).1 hall
      refine ⟨fun args => ?_, iff_of_false parseOperands_ne_help ?_⟩
      · rw [parseOperands_iff]
        constructor
        · rintro ⟨hfit, rfl⟩
          exact ⟨options, operands, hspells, hhelp, hfit, rfl⟩
        · rintro ⟨options', operands', hspells', hhelp', hfit, rfl⟩
          -- whatever options the words spell, they mean the same
          have hrun' := (hok _ operands').2
            ⟨options', hspells', (handleAll_iff (kind_of_spells hspells')).2 ⟨hhelp', rfl⟩⟩
          rw [hrun] at hrun'
          obtain ⟨hmeans, rfl⟩ := Prod.mk.inj (Except.ok.inj hrun')
          exact ⟨hmeans ▸ hfit, by rw [hmeans]⟩
      · rw [or_iff_right hword, ← hstop, hrun]
        simp

/-- A cluster, a value in its own word, and one in the next. -/
example : parseArguments .stop [lit "-vj", lit "-rin", lit "-c", lit "-", lit "-m", lit "dir"]
    argumentsInit =
      .ok ⟨⟨⟨some (lit "in"), some dash⟩, .mermaid, none⟩, some (lit "dir"), true⟩ := by
  rfl

/-! ## Checking -/

/-- Arguments that a report can be run with. -/
structure Usable (args : CommandArguments) : Prop where
  logs : args.reportDir ≠ none ∨ args.resourceLog ≠ none ∧ args.callLog ≠ none
  directory : args.reportDir ≠ some (lit "")
  bundle : args.bundleOutputDir ≠ some (lit "")
  bundleFormat : args.bundleOutputDir ≠ none → args.format = .text
  resourceLog : args.resourceLog ≠ some (lit "")
  callLog : args.callLog ≠ some (lit "")
  resourcePath : ∀ dir, args.resourceLog = none → args.reportDir = some dir →
    (joinPath dir.bytes (ascii "resources.log")).isSome = true
  callPath : ∀ dir, args.callLog = none → args.reportDir = some dir →
    (joinPath dir.bytes (ascii "calls.log")).isSome = true

/-- The log that is given, or the one in the report directory. -/
def logOf (reportDir given : Option Text) (leaf : List UInt8) : Option Text :=
  given.or (reportDir.bind fun dir => (joinPath dir.bytes leaf).map cString)

/-- The arguments with the paths of both logs. -/
def completed (args : CommandArguments) : CommandArguments :=
  { args with
    resourceLog := logOf args.reportDir args.resourceLog (ascii "resources.log")
    callLog := logOf args.reportDir args.callLog (ascii "calls.log") }

theorem logPath_eq_nil {reportDir given : Option Text} {leaf : List UInt8} :
    (logPath reportDir given leaf).1 = [] ↔
      ∀ dir, given = none → reportDir = some dir → (joinPath dir.bytes leaf).isSome = true := by
  match given, reportDir with
  | some path, _ => simp [logPath]
  | none, none => simp [logPath]
  | none, some dir =>
    cases hpath : joinPath dir.bytes leaf <;> simp [logPath, hpath]

theorem logPath_eq {reportDir given : Option Text} {leaf : List UInt8}
    (h : (logPath reportDir given leaf).1 = []) :
    (logPath reportDir given leaf).2 = logOf reportDir given leaf := by
  match given, reportDir with
  | some path, _ => rfl
  | none, none => rfl
  | none, some dir =>
    obtain ⟨path, hpath⟩ := Option.isSome_iff_exists.1 (logPath_eq_nil.1 h dir rfl rfl)
    simp [logPath, logOf, hpath, joinedBuffer_eq hpath]

/-- A path in a directory is not empty. -/
theorem cString_separated_ne (dir : Text) (leaf : List UInt8) :
    cString (separated dir.bytes ++ leaf) ≠ lit "" := by
  have hfirst : ∃ b rest, separated dir.bytes = b :: rest ∧ b ≠ 0 := by
    unfold separated
    rcases hdir : dir.bytes with _ | ⟨b, rest⟩
    · exact ⟨0x2f, [], by decide, by decide⟩
    · have hb : b ≠ 0 := fun h => dir.noNul (by rw [hdir, h]; exact List.mem_cons_self)
      split
      · exact ⟨b, rest, rfl, hb⟩
      · exact ⟨b, rest ++ ascii "/", rfl, hb⟩
  obtain ⟨b, rest, hseparated, hb⟩ := hfirst
  intro h
  have hbytes := congrArg Text.bytes h
  rw [hseparated] at hbytes
  simp [cString, lit, ascii, hb] at hbytes

theorem logOf_eq_empty {reportDir given : Option Text} {leaf : List UInt8} :
    logOf reportDir given leaf = some (lit "") ↔ given = some (lit "") := by
  match given, reportDir with
  | some path, _ => rfl
  | none, none => rfl
  | none, some dir =>
    refine iff_of_false ?_ (by simp)
    rintro h
    obtain ⟨path, hpath, hempty⟩ := Option.map_eq_some_iff.1 h
    rw [(joinPath_eq_some hpath).1] at hempty
    exact cString_separated_ne dir leaf hempty

/-- Arguments pass the checks exactly when they are usable, with the paths of both logs. -/
theorem checkArguments_iff (args : CommandArguments) :
    ((checkArguments args).1 = [] ↔ Usable args) ∧
      (Usable args → (checkArguments args).2 = completed args) := by
  unfold checkArguments
  -- each of the first four checks refuses what one condition of `Usable` excludes
  split_ifs with hlogs hdir hbundle hformat
  · have hnot : ¬ Usable args := fun h => h.logs.elim (· hlogs.1) fun h' =>
      hlogs.2.elim h'.1 h'.2
    exact ⟨iff_of_false (by simp) hnot, fun h => absurd h hnot⟩
  · have hnot : ¬ Usable args := fun h => h.directory hdir
    exact ⟨iff_of_false (by simp) hnot, fun h => absurd h hnot⟩
  · have hnot : ¬ Usable args := fun h => h.bundle hbundle
    exact ⟨iff_of_false (by simp) hnot, fun h => absurd h hnot⟩
  · have hnot : ¬ Usable args := fun h => hformat.2 (h.bundleFormat hformat.1)
    exact ⟨iff_of_false (by simp) hnot, fun h => absurd h hnot⟩
  · have hpaths : Usable args →
        (logPath args.reportDir args.resourceLog (ascii "resources.log")).1 = [] ∧
          (logPath args.reportDir args.callLog (ascii "calls.log")).1 = [] := fun h =>
      ⟨logPath_eq_nil.2 h.resourcePath, logPath_eq_nil.2 h.callPath⟩
    dsimp only
    -- a log that is still empty was given empty
    split_ifs with hresource hcall
    · have hnot : ¬ Usable args := fun h =>
        h.resourceLog (logOf_eq_empty.1 (logPath_eq (hpaths h).1 ▸ hresource))
      exact ⟨iff_of_false (by simp) hnot, fun h => absurd h hnot⟩
    · have hnot : ¬ Usable args := fun h =>
        h.callLog (logOf_eq_empty.1 (logPath_eq (hpaths h).2 ▸ hcall))
      exact ⟨iff_of_false (by simp) hnot, fun h => absurd h hnot⟩
    · refine ⟨⟨fun h => ?_, fun h => ?_⟩, fun h => ?_⟩
      · obtain ⟨hresourcePath, hcallPath⟩ := List.append_eq_nil_iff.1 h
        exact {
          logs := by
            by_contra hnone
            simp only [not_or, not_and_or, not_not] at hnone
            exact hlogs hnone
          directory := hdir
          bundle := hbundle
          bundleFormat := fun hgiven => not_not.1 fun htext => hformat ⟨hgiven, htext⟩
          resourceLog := fun hempty => hresource (by rw [hempty]; rfl)
          callLog := fun hempty => hcall (by rw [hempty]; rfl)
          resourcePath := logPath_eq_nil.1 hresourcePath
          callPath := logPath_eq_nil.1 hcallPath }
      · rw [(hpaths h).1, (hpaths h).2]
        rfl
      · rw [completed, logPath_eq (hpaths h).1, logPath_eq (hpaths h).2]

/-! ## The exit status -/

/-- The words ask for a run with these arguments. -/
def Invokes (order : Order) (words : List Text) (args : RunArguments) : Prop :=
  ∃ asked, Asks order words asked ∧ Usable asked ∧ args = (completed asked).toRunArguments

/-- A run without trouble over complete evidence. -/
def CompleteRun (run : RunModelLib lib) (args : RunArguments) (input : RunInput lib) : Prop :=
  NoTrouble run args input ∧
    let model := (reportRun run args input).state.model
    model.resourceMalformed = 0 ∧ model.callMalformed = 0 ∧ model.resourceBadVersion = 0 ∧
      model.callBadVersion = 0 ∧ lib.healthIsComplete model.resourceStreamHealth = true ∧
      lib.healthIsComplete model.callStreamHealth = true

/-- The findings of a run. -/
def findingsOf (run : RunModelLib lib) (args : RunArguments) (input : RunInput lib) :
    List Finding :=
  (reportRun run args input).state.model.findings.items

theorem status_of_error {run : RunModelLib lib} {args : RunArguments} {input : RunInput lib}
    (h : (reportRun run args input).state.err.error = true) :
    (reportRun run args input).status = exitTrouble := by
  unfold reportRun at h ⊢
  split
  · rfl
  · rename_i st hprepare
    rw [hprepare] at h
    dsimp only at h ⊢
    split
    · rfl
    · rename_i hok
      rw [if_neg hok] at h
      exact absurd h hok

theorem status_ran (run : RunModelLib lib) (args : RunArguments) (input : RunInput lib) :
    (CommandResult.ran (reportRun run args input)).status = (reportRun run args input).status := by
  simp only [CommandResult.status]
  split
  · rename_i herror
    exact (status_of_error herror).symm
  · rfl

/-- The three numbers a status can be. -/
theorem exit_ne :
    exitClean ≠ exitFindings ∧ exitClean ≠ exitTrouble ∧ exitFindings ≠ exitTrouble := by
  decide

theorem runStatus_iff {run : RunModelLib lib} {args : RunArguments} {input : RunInput lib}
    (hresources : RaisesErrors input.resourceLog.reads)
    (hcalls : RaisesErrors input.callLog.reads) :
    let status := (reportRun run args input).status
    (status = exitClean ↔ CompleteRun run args input ∧ findingsOf run args input = []) ∧
      (status = exitFindings ↔ CompleteRun run args input ∧ findingsOf run args input ≠ []) ∧
      (status = exitTrouble ↔ ¬ CompleteRun run args input) := by
  intro status
  obtain ⟨hfindings, htrouble, htrouble'⟩ := exit_ne
  by_cases hrun : NoTrouble run args input
  · obtain ⟨st, hst, hwritten⟩ := (noTrouble_iff hresources hcalls).1 hrun
    obtain ⟨hstate, hstatus, -⟩ := reportRun_of_ok hst hwritten
    have hcomplete : CompleteRun run args input ↔
        ¬ (st.model.resourceMalformed ≠ 0 ∨ st.model.callMalformed ≠ 0 ∨
          st.model.resourceBadVersion ≠ 0 ∨ st.model.callBadVersion ≠ 0 ∨
          (!lib.healthIsComplete st.model.resourceStreamHealth) = true ∨
          (!lib.healthIsComplete st.model.callStreamHealth) = true) := by
      simp only [CompleteRun, hrun, hstate, true_and, not_or, not_not, Bool.not_eq_true',
        Bool.not_eq_false]
    rw [hcomplete, findingsOf, hstate, show status = _ from hstatus, exitStatus]
    split
    · rename_i hbad
      exact ⟨iff_of_false htrouble.symm fun h => h.1 hbad,
        iff_of_false htrouble'.symm fun h => h.1 hbad, iff_of_true rfl (not_not.2 hbad)⟩
    · rename_i hgood
      split
      · rename_i hnone
        have hnil := List.length_eq_zero_iff.1 hnone
        exact ⟨iff_of_true rfl ⟨hgood, hnil⟩, iff_of_false hfindings fun h => h.2 hnil,
          iff_of_false htrouble fun h => h hgood⟩
      · rename_i hsome
        have hcons : st.model.findings.items ≠ [] := fun h => hsome (by rw [h]; rfl)
        exact ⟨iff_of_false hfindings.symm fun h => hcons h.2, iff_of_true rfl ⟨hgood, hcons⟩,
          iff_of_false htrouble' fun h => h hgood⟩
  · have hstatus : status = exitTrouble :=
      reportRun_of_trouble fun h => hrun ((noTrouble_iff hresources hcalls).2 h)
    have hnot : ¬ CompleteRun run args input := fun h => hrun h.1
    rw [hstatus]
    exact ⟨iff_of_false htrouble.symm fun h => hnot h.1,
      iff_of_false htrouble'.symm fun h => hnot h.1, iff_of_true rfl hnot⟩

/-- How a command ends, by what its words ask for. -/
theorem main_cases (order : Order) (run : RunModelLib lib) (input : CommandInput lib)
    (program : Text) (words : List Text) :
    (AsksHelp order words ∧ (∀ args, ¬ Invokes order words args) ∧
        main order run input program words = .help (usageText program.bytes)) ∨
      (¬ AsksHelp order words ∧ ∃ args, (∀ other, Invokes order words other ↔ other = args) ∧
        main order run input program words = .ran (reportRun run args (input.run args))) ∨
      (¬ AsksHelp order words ∧ (∀ args, ¬ Invokes order words args) ∧
        ∃ raised, main order run input program words = .failed raised) := by
  obtain ⟨hok, hhelp⟩ := parseArguments_iff order words
  unfold main
  match hparse : parseArguments order words argumentsInit with
  | .error .help =>
    refine Or.inl ⟨hhelp.1 hparse, fun args h => ?_, rfl⟩
    obtain ⟨asked, hasked, -⟩ := h
    rw [(hok asked).2 hasked] at hparse
    cases hparse
  | .error (.error raised) =>
    refine Or.inr (Or.inr ⟨fun h => ?_, fun args h => ?_, [raised], rfl⟩)
    · rw [hhelp.2 h] at hparse
      cases hparse
    · obtain ⟨asked, hasked, -⟩ := h
      rw [(hok asked).2 hasked] at hparse
      cases hparse
  | .ok args =>
    have hnohelp : ¬ AsksHelp order words := fun h => by
      rw [hhelp.2 h] at hparse
      cases hparse
    have hasks : ∀ asked, Asks order words asked → asked = args := by
      intro asked hasked
      rw [(hok asked).2 hasked] at hparse
      exact Except.ok.inj hparse
    obtain ⟨hiff, hcompleted⟩ := checkArguments_iff args
    dsimp only
    split
    · rename_i hraised
      refine Or.inr (Or.inr ⟨hnohelp, fun other h => ?_, _, rfl⟩)
      obtain ⟨asked, hasked, husable, -⟩ := h
      obtain rfl := hasks asked hasked
      exact hraised (hiff.2 husable)
    · rename_i hraised
      have husable := hiff.1 (not_not.1 hraised)
      refine Or.inr (Or.inl ⟨hnohelp, (completed args).toRunArguments, fun other => ?_, ?_⟩)
      · constructor
        · rintro ⟨asked, hasked, -, rfl⟩
          rw [hasks asked hasked]
        · rintro rfl
          exact ⟨args, (hok args).1 hparse, husable, rfl⟩
      · rw [hcompleted husable]

/-- **The exit status of a command.** `EXIT_CLEAN` means that help was asked for, or that the words
ask for a run and its evidence is complete without a finding; `EXIT_FINDINGS`, that they ask for a
run whose complete evidence has findings; `EXIT_TROUBLE`, everything else. -/
theorem main_status (order : Order) (run : RunModelLib lib) (input : CommandInput lib)
    (program : Text) (words : List Text)
    (hresources : ∀ path, RaisesErrors (input.resourceLog path).reads)
    (hcalls : ∀ path, RaisesErrors (input.callLog path).reads) :
    let status := (main order run input program words).status
    (status = exitClean ↔ AsksHelp order words ∨ ∃ args, Invokes order words args ∧
        CompleteRun run args (input.run args) ∧ findingsOf run args (input.run args) = []) ∧
      (status = exitFindings ↔ ∃ args, Invokes order words args ∧
        CompleteRun run args (input.run args) ∧ findingsOf run args (input.run args) ≠ []) ∧
      (status = exitTrouble ↔ ¬ AsksHelp order words ∧
        ∀ args, Invokes order words args → ¬ CompleteRun run args (input.run args)) := by
  intro status
  obtain ⟨hfindings, htrouble, htrouble'⟩ := exit_ne
  obtain ⟨hhelp, hargs, hmain⟩ | ⟨hhelp, args, hargs, hmain⟩ | ⟨hhelp, hargs, raised, hmain⟩ :=
    main_cases order run input program words
  · have hstatus : status = exitClean := by
      simp only [status, hmain, CommandResult.status]
    rw [hstatus]
    exact ⟨iff_of_true rfl (Or.inl hhelp),
      iff_of_false hfindings fun ⟨args, h, _⟩ => hargs args h,
      iff_of_false htrouble fun h => h.1 hhelp⟩
  · have hstatus : status = (reportRun run args (input.run args)).status := by
      simp only [status, hmain, status_ran]
    obtain ⟨hclean, hfound, htroubled⟩ := @runStatus_iff _ run args (input.run args)
      (hresources _) (hcalls _)
    simp only [hargs, hhelp, hstatus, hclean, hfound, htroubled, false_or, not_false_eq_true,
      true_and, exists_eq_left, forall_eq, and_self]
  · have hstatus : status = exitTrouble := by
      simp only [status, hmain, CommandResult.status]
    rw [hstatus]
    refine ⟨iff_of_false htrouble.symm ?_, iff_of_false htrouble'.symm ?_,
      iff_of_true rfl ⟨hhelp, fun args h => absurd h (hargs args)⟩⟩
    · rintro (h | ⟨args, h, -⟩)
      · exact hhelp h
      · exact hargs args h
    · rintro ⟨args, h, -⟩
      exact hargs args h

/-- The command that reads the logs of `leakInput`, whatever their paths. -/
def leakCommand : CommandInput fixtureLib where
  health := leakInput.health
  allocations := leakInput.allocations
  resourceLog := fun _ => leakInput.resourceLog
  callLog := fun _ => leakInput.callLog
  outputFails := leakInput.outputFails

/-- A command over a report directory. -/
theorem main_status_leak :
    let words := [lit "-j", lit "report"]
    let status := (main .permute fixtureRun leakCommand (lit "p101-report") words).status
    (status = exitClean ↔ AsksHelp .permute words ∨ ∃ args, Invokes .permute words args ∧
        CompleteRun fixtureRun args (leakCommand.run args) ∧
        findingsOf fixtureRun args (leakCommand.run args) = []) ∧
      (status = exitFindings ↔ ∃ args, Invokes .permute words args ∧
        CompleteRun fixtureRun args (leakCommand.run args) ∧
        findingsOf fixtureRun args (leakCommand.run args) ≠ []) ∧
      (status = exitTrouble ↔ ¬ AsksHelp .permute words ∧ ∀ args, Invokes .permute words args →
        ¬ CompleteRun fixtureRun args (leakCommand.run args)) :=
  main_status .permute fixtureRun leakCommand (lit "p101-report") [lit "-j", lit "report"]
    (fun _ => leakInput_raises.1) fun _ => leakInput_raises.2

end P101Report
