import CpioArchive.Proofs.Notices

/-!
# What stands on the standard output

The standard output is for results: the entries as they are added, for those who want to see them,
and a summary at the end.  Both forms of output print the same kind of thing there, but not under
the same conditions: the form for people heeds the request to be quiet, the form for machines does
not.

* `Arguments.formOn`, `Arguments.isMute` — the form that the arguments ask for, and whether it
  leaves the summary out;
* `parse_quiet` — understood arguments never ask for both silence and detail;
* `Style.stdout_ofVisit`, `Machine.stdout_ofVisit` — what an input puts on the standard output;
* `KeepsStandardOutput`, `IsTold.keepsStandardOutput` — what stands there after a run;
* `standard_output` — so it is after every run.
-/

namespace CpioArchive.CommandLine

/-! ## Forms -/

/-- The form that the arguments ask for, with or without colours and symbols. -/
def Arguments.formOn (arguments : Arguments) (colors symbols : Bool) : Form :=
  if arguments.json then .machine
  else .human { verbose := arguments.verbose, quiet := arguments.quiet, colors, symbols }

theorem Arguments.formOn_plain (arguments : Arguments) :
    arguments.formOn false false = arguments.form := rfl

/-- Whether the arguments suppress the summary. -/
def Arguments.isMute (arguments : Arguments) : Bool := arguments.quiet && !arguments.json

/-- The summary of a run in a form. -/
def Form.summary (form : Form) (output : Bytes) (report : Report) : String :=
  match form with
  | .machine =>
    (Machine.document "create" "success" ("data", Machine.summary output report)).pretty 0 ++ "\n"
  | .human style => Text.unlines (style.summary output report)

/-- A summary is never empty. -/
theorem Form.summary_ne_empty (form : Form) (output : Bytes) (report : Report) :
    form.summary output report ≠ "" := by
  intro h
  have hbreak : '\n' ∈ (form.summary output report).toList := by
    cases form with
    | machine =>
      rw [summary, String.toList_append, List.mem_append]
      exact .inr (by decide)
    | human style =>
      rw [summary, Style.summary, List.cons_append, List.cons_append, List.cons_append,
        List.cons_append, List.cons_append, Text.unlines_cons, String.toList_append,
        List.mem_append, String.toList_append, List.mem_append]
      exact .inl (.inr (by decide))
  rw [h] at hbreak
  cases hbreak

/-- The line about an entry that was added. -/
def addingLine (visit : Visit) : String := "adding " ++ displayPath visit.path

/-- The lines about the entries that were added, for arguments: one for each input that was
completed, in the order of the inputs, if people ask for detail. -/
def Arguments.addingLines (arguments : Arguments) (visits : List Visit) : List String :=
  if arguments.verbose && !arguments.json then
    (visits.filter (·.closingEvent.isCompleted)).map addingLine
  else []

/-! ## Arguments -/

/-- Who asks to be told nothing cannot ask for detail as well. -/
theorem parse_quiet {arguments : List Bytes} {parsed : Arguments}
    (h : Arguments.parse arguments = .ok parsed) (hquiet : parsed.quiet = true) :
    parsed.verbose = false := by
  unfold Arguments.parse at h
  split at h
  case h_1 => cases h
  case h_2 scan _ =>
    unfold Scan.finish at h
    split at h
    case h_1 => cases h
    case h_2 settled _ =>
      split at h
      case isTrue => cases h
      case isFalse hboth =>
        split at h
        case h_2 => cases h
        case h_1 =>
          cases h
          exact decide_eq_false fun hverbose => hboth ⟨of_decide_eq_true hquiet, hverbose⟩

/-! ## Single notices -/

/-- A style that names every entry does so for the inputs that are completed. -/
theorem Style.stdout_ofVisit (style : Style) (visit : Visit) :
    Output.stdout (style.render (.ofVisit visit)) =
      (Option.guard (fun visit => style.verbose && visit.closingEvent.isCompleted) visit).elim ""
        (addingLine · ++ "\n") := by
  obtain ⟨path, reason | ⟨reads, declared, e | size⟩⟩ := visit
  · cases hquiet : style.quiet <;> cases hverbose : style.verbose <;>
      simp [Notice.ofVisit, render, alert, marked, hquiet, Option.guard, Visit.closingEvent,
        Event.isCompleted]
  · cases hverbose : style.verbose <;> cases e <;> rfl
  · cases hverbose : style.verbose <;>
      simp [Notice.ofVisit, render, hverbose, Option.guard, Visit.closingEvent, Event.isCompleted,
        addingLine]

/-- Machines are told of inputs on the standard error output only. -/
theorem Machine.stdout_ofVisit (visit : Visit) :
    Output.stdout (render (.ofVisit visit)) = "" := by
  obtain ⟨path, reason | ⟨reads, declared, e | size⟩⟩ := visit
  · rfl
  · cases e <;> rfl
  · rfl

/-- What all inputs together put on the standard output. -/
theorem Arguments.stdout_visits (arguments : Arguments) (colors symbols : Bool)
    (visits : List Visit) :
    String.join (visits.map fun visit =>
        Output.stdout ((arguments.formOn colors symbols).render (.ofVisit visit))) =
      Text.unlines (arguments.addingLines visits) := by
  unfold formOn addingLines
  cases hjson : arguments.json with
  | true =>
    simp only [Form.render, Machine.stdout_ofVisit, if_true, Bool.not_true, Bool.and_false,
      Bool.false_eq_true, if_false]
    induction visits with
    | nil => rfl
    | cons visit rest ih => rw [List.map_cons, String.join_cons, ih, String.empty_append]
  | false =>
    simp only [Form.render, Style.stdout_ofVisit, Bool.false_eq_true, if_false, Bool.not_false,
      Bool.and_true]
    rw [join_map_elim, List.filterMap_eq_filter]
    cases arguments.verbose with
    | true => simp
    | false => simp

/-- What the end of a run puts on the standard output. -/
theorem Arguments.stdout_ofResult (arguments : Arguments) (colors symbols : Bool)
    (result : Except ArchiveError Report) :
    Output.stdout ((arguments.formOn colors symbols).render (.ofResult arguments.output result)) =
      match result with
      | .ok report =>
        if arguments.isMute then ""
        else (arguments.formOn colors symbols).summary arguments.output report
      | .error _ => "" := by
  unfold formOn isMute
  cases hjson : arguments.json with
  | true =>
    rw [Bool.not_true, Bool.and_false]
    cases result with
    | ok report => exact (Output.stdout_cons_toStdout _ []).trans String.append_empty
    | error e => rfl
  | false =>
    rw [Bool.not_false, Bool.and_true]
    cases result with
    | error e => rfl
    | ok report =>
      cases hquiet : arguments.quiet with
      | true => rfl
      | false => exact Output.stdout_map_toStdout _

/-! ## Runs -/

/-- What stands on the standard output after a run over inputs with some paths. -/
structure KeepsStandardOutput (arguments : Arguments) (form : Form) (paths : List Bytes)
    (visits : List Visit) (result : Except ArchiveError Report) (stdout : String) : Prop where
  /-- The run comes to the inputs in their order. -/
  visited : visits.map (·.path) <+: paths
  /-- If it fails, there are the entries that were added. -/
  failed : ∀ e, result = .error e → stdout = Text.unlines (arguments.addingLines visits)
  /-- If it succeeds, the run came to all inputs, and a summary stands behind the entries. -/
  succeeded : ∀ report, result = .ok report → arguments.isMute = false →
    visits.map (·.path) = paths ∧
      stdout = Text.unlines (arguments.addingLines visits) ++ form.summary arguments.output report
  /-- People who ask for it are told nothing. -/
  mute : arguments.isMute = true → stdout = ""
  /-- To be quiet is enough to be told nothing if and only if there is no JSON output, or nothing
  to sum up. -/
  quiet : arguments.quiet = true →
    (stdout = "" ↔ arguments.json = false ∨ result.isOk = false)

/-- What stands on the standard output follows from what a run has to tell. -/
theorem IsTold.keepsStandardOutput {arguments : Arguments}
    (hflags : arguments.quiet = true → arguments.verbose = false) {paths : List Bytes}
    {visits : List Visit} {events : List Event} {result : Except ArchiveError Report}
    (h : IsTold paths visits events result) (colors symbols : Bool) :
    KeepsStandardOutput arguments (arguments.formOn colors symbols) paths visits result
      (Output.stdout ((noticesOf arguments.output events result).flatMap
        (arguments.formOn colors symbols).render)) := by
  have hquiet : arguments.quiet = true → arguments.addingLines visits = [] := by
    intro hquiet
    rw [Arguments.addingLines, hflags hquiet, Bool.false_and]
    rfl
  rw [h.stdout, arguments.stdout_visits, arguments.stdout_ofResult]
  constructor
  case visited => exact h.visited
  case failed =>
    rintro e rfl
    exact String.append_empty
  case succeeded =>
    rintro report rfl hmute
    refine ⟨h.complete report rfl, ?_⟩
    dsimp only
    rw [hmute]
    rfl
  case mute =>
    intro hmute
    rw [hquiet (Bool.and_eq_true_iff.1 hmute).1, hmute]
    cases result <;> rfl
  case quiet =>
    intro hasked
    rw [hquiet hasked, Text.unlines_nil, String.empty_append]
    cases result with
    | error e => exact ⟨fun _ => .inr rfl, fun _ => rfl⟩
    | ok report =>
      dsimp only
      rw [Arguments.isMute, hasked, Bool.true_and]
      cases hjson : arguments.json with
      | false => exact ⟨fun _ => .inl rfl, fun _ => rfl⟩
      | true =>
        refine ⟨fun hempty => absurd hempty (Form.summary_ne_empty _ _ _), fun hempty => ?_⟩
        rcases hempty with hempty | hempty <;> cases hempty

/-- **What stands on the standard output**, for every run of the program whose arguments are
understood.

* If detail is asked for in human form there is a line for each input that was completed, in the
  order of the inputs, and otherwise there is none.
* Behind them a summary stands if and only if the run succeeds, in human and in JSON form, unless a
  quiet run in human form is asked for.
* Such a run leaves the standard output empty.  A quiet run with JSON output leaves it empty if and
  only if it fails: to ask for silence changes nothing there.

The same holds of what is printed about a run on any destination, whatever its writer and its inputs
do, with and without colours and symbols. -/
theorem standard_output (fs : FileSystem) (arguments : List Bytes) (elapsed : Duration)
    {parsed : Arguments} (hparse : Arguments.parse arguments = .ok parsed) :
    let archive := createArchive fs parsed.output parsed.files parsed.settings elapsed
    KeepsStandardOutput parsed parsed.form parsed.files archive.visits archive.result
        (Output.stdout (run fs arguments elapsed).outputs) ∧
      ∀ (colors symbols : Bool) {β δ ε ς : Type} [Destination δ ε]
        (writer : Writer β δ (Metered ς)) (inputs : List (Input ε ς)),
        let creation := createOn writer inputs elapsed
        let form := parsed.formOn colors symbols
        KeepsStandardOutput parsed form (inputs.map (·.path)) creation.visits creation.result
          (Output.stdout ((noticesOf parsed.output creation.events creation.result).flatMap
            form.render)) := by
  intro archive
  constructor
  · rw [outputs_run fs elapsed hparse, Arguments.outputs, ← parsed.formOn_plain]
    exact (isTold_createArchive fs _ _ _ elapsed).keepsStandardOutput (parse_quiet hparse) false
      false
  · intro colors symbols β δ ε ς _ writer inputs
    exact (isTold_createOn writer inputs elapsed).keepsStandardOutput (parse_quiet hparse) colors
      symbols

/-- A file and a path that does not end in a name, with detail: one entry and the summary. -/
theorem standard_output_verbose :
    ∃ report, Output.stdout
        (run (.holding [97] [1, 2, 3]) [[45, 118], [98], [97], [97, 47]] .zero).outputs =
      "adding a\n" ++ (Form.human { verbose := true }).summary [98] report := by
  let parsed : Arguments := ⟨[98], [[97], [97, 47]], true, false, false, none, false⟩
  have hparse : Arguments.parse [[45, 118], [98], [97], [97, 47]] = .ok parsed := by
    decide +kernel
  obtain ⟨⟨report, hresult⟩, hvisits⟩ := createArchive_beside [[97], [97, 47]] .zero
  obtain ⟨hkeeps, -⟩ := standard_output (.holding [97] [1, 2, 3])
    [[45, 118], [98], [97], [97, 47]] .zero hparse
  obtain ⟨-, hstdout⟩ := hkeeps.succeeded report hresult rfl
  have hadded : (parsed.addingLines (createArchive (.holding [97] [1, 2, 3]) [98]
      [[97], [97, 47]] {} .zero).visits) = ["adding a"] := by
    rw [hvisits, visitAll_beside]
    decide +kernel
  exact ⟨report, hstdout.trans (congrArg (Text.unlines · ++ _) hadded)⟩

/-- **A quiet run with JSON output is not quiet.**  The arguments are accepted and ask for silence,
the run succeeds, and its document is printed. -/
theorem standard_output_not_silent :
    let arguments := [[45, 113], [45, 106], [98], [97, 47]]
    let program := run (.holding [97] [1, 2, 3]) arguments .zero
    (Arguments.parse arguments).map (·.quiet) = .ok true ∧ program.exitCode = 0 ∧
      Output.stdout program.outputs ≠ "" := by
  intro arguments program
  let parsed : Arguments := ⟨[98], [[97, 47]], false, true, true, none, false⟩
  have hparse : Arguments.parse arguments = .ok parsed := by decide +kernel
  obtain ⟨⟨report, hresult⟩, -⟩ := createArchive_beside [[97, 47]] .zero
  have hkeeps := (isTold_createArchive (.holding [97] [1, 2, 3]) parsed.output parsed.files
    parsed.settings .zero).keepsStandardOutput (parse_quiet hparse) false false
  refine ⟨by rw [hparse]; rfl, ?_, fun hempty => ?_⟩
  · dsimp only [program]
    rw [run, hparse]
    exact congrArg exitCodeOf hresult
  · dsimp only [program] at hempty
    rw [outputs_run _ _ hparse] at hempty
    rcases (hkeeps.quiet rfl).1 hempty with hhuman | hfailed
    · cases hhuman
    · have hboth : true = false := (congrArg Except.isOk hresult).symm.trans hfailed
      cases hboth

end CpioArchive.CommandLine
