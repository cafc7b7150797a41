import CpioArchive.Proofs.Notices
import CpioArchive.Proofs.SystemFailures

/-!
# What people are told

With output for people there is one diagnostic for each input that was not completed, on the
standard error output, in the order of the inputs.  It names the input as it is: nothing in the name
is escaped, so a line break in it ends the line, and what follows it stands on a line of its own,
like the diagnostic of another input.

* `Complaint.diagnostic`, `Style.lineAbout` — what is said about an input, and with a symbol;
* `Complaint.breaks_diagnostic` — the line breaks in it are those of the path and of the reason;
* `TellsLines`, `IsTold.tellsLines` — what stands on the standard error output of a run that
  succeeds, and when its lines are the diagnostics;
* `diagnostic_lines`, `diagnostic_lines_forged` — so it is in every run, and what a name can do.
-/

namespace CpioArchive.CommandLine

/-! ## Diagnostics -/

namespace Complaint

/-- What people are told about an input that was not completed. -/
def diagnostic (complaint : Complaint) : String :=
  match complaint.trouble with
  | .skip => "skipping " ++ displayPath complaint.path ++ ": " ++ complaint.reason
  | .abandon => "abandoning " ++ displayPath complaint.path ++ ": " ++ complaint.reason
  | .truncated => "truncated " ++ displayPath complaint.path ++ ": " ++ complaint.reason
  | .warning => complaint.sentence

/-- The line breaks in what an input brings into its diagnostic. -/
def breaks (complaint : Complaint) : Nat :=
  complaint.path.count 10 + Text.breaks complaint.reason

theorem breaks_diagnostic (complaint : Complaint) :
    Text.breaks complaint.diagnostic = complaint.breaks := by
  obtain ⟨trouble, path, reason⟩ := complaint
  have hpath : Text.breaks (displayPath path) = path.count 10 := Utf8.breaks_lossyText path
  have hwords : Text.breaks "skipping " = 0 ∧ Text.breaks "abandoning " = 0 ∧
      Text.breaks "truncated " = 0 ∧ Text.breaks "finishing '" = 0 ∧ Text.breaks ": " = 0 ∧
      Text.breaks "': " = 0 := by decide +kernel
  obtain ⟨hskip, habandon, htruncated, hfinish, hcolon, hquote⟩ := hwords
  cases trouble <;>
    simp only [diagnostic, sentence, breaks, Text.breaks_append, hpath, hskip, habandon,
      htruncated, hfinish, hcolon, hquote, Nat.zero_add, Nat.add_zero]

theorem breaks_eq_zero_iff (complaint : Complaint) :
    complaint.breaks = 0 ↔ 10 ∉ complaint.path ∧ Text.breaks complaint.reason = 0 := by
  rw [breaks, Nat.add_eq_zero_iff, List.count_eq_zero]

end Complaint

/-- The symbol in front of a diagnostic, if there are symbols. -/
def Style.mark (style : Style) (trouble : Trouble) : String :=
  if style.symbols then
    (if trouble = .abandon then style.colored red "✗" else style.colored yellow "⚠") ++ " "
  else ""

/-- The line about an input in a style. -/
def Style.lineAbout (style : Style) (complaint : Complaint) : String :=
  style.mark complaint.trouble ++ complaint.diagnostic

theorem Style.breaks_mark (style : Style) (trouble : Trouble) :
    Text.breaks (style.mark trouble) = 0 := by
  obtain ⟨verbose, quiet, colors, symbols⟩ := style
  cases trouble <;> decide +kernel +revert

theorem Style.breaks_lineAbout (style : Style) (complaint : Complaint) :
    Text.breaks (style.lineAbout complaint) = complaint.breaks := by
  rw [lineAbout, Text.breaks_append, breaks_mark, complaint.breaks_diagnostic, Nat.zero_add]

/-- Without symbols the line is the diagnostic. -/
theorem Style.lineAbout_plain {style : Style} (h : style.symbols = false) (complaint : Complaint) :
    style.lineAbout complaint = complaint.diagnostic := by
  rw [lineAbout, mark, h]
  exact String.empty_append

/-- **One visit**: a line if its input was not completed, and nothing else. -/
theorem Style.stderr_ofVisit {style : Style} (hquiet : style.quiet = false) (visit : Visit) :
    Output.stderr (style.render (.ofVisit visit)) =
      (Complaint.ofVisit? visit).elim "" (style.lineAbout · ++ "\n") := by
  obtain ⟨verbose, quiet, colors, symbols⟩ := style
  obtain rfl : quiet = false := hquiet
  obtain ⟨path, reason | ⟨reads, declared, e | size⟩⟩ := visit
  · cases symbols <;> cases colors <;> rfl
  · cases symbols <;> cases colors <;> cases e <;> rfl
  · cases verbose <;> rfl

/-- A summary leaves the standard error output alone. -/
theorem Style.stderr_archived (style : Style) (output : Bytes) (report : Report) :
    Output.stderr (style.render (.archived output report)) = "" := by
  have hlines : ∀ lines : List String, Output.stderr (lines.map .toStdout) = "" := by
    intro lines
    induction lines with
    | nil => rfl
    | cons line rest ih => rw [List.map_cons, Output.stderr_cons_toStdout, ih]
  rw [render]
  split
  · rfl
  · exact hlines _

/-! ## Runs -/

/-- What stands on the standard error output after a run that came to inputs with some paths and
succeeded, if `line` says what is printed about an input. -/
structure TellsLines (line : Complaint → String) (paths : List Bytes) (visits : List Visit)
    (stderr : String) : Prop where
  /-- The run came to the inputs in their order. -/
  visited : visits.map (·.path) = paths
  /-- An input is complained about exactly if it is not completed. -/
  silent : ∀ visit ∈ visits,
    Complaint.ofVisit? visit = none ↔ visit.closingEvent = .completed visit.path
  /-- There is a diagnostic for each of these inputs, in their order, and nothing else. -/
  text : stderr = Text.unlines ((complaints visits).map line)
  /-- Every line break in a name or a reason makes one line more. -/
  count : (Text.lines stderr).length =
    (complaints visits).length + totalOf ((complaints visits).map (·.breaks))
  /-- The lines are the diagnostics exactly if there is no such line break. -/
  lines : Text.lines stderr = (complaints visits).map line ↔
    ∀ complaint ∈ complaints visits, 10 ∉ complaint.path ∧ Text.breaks complaint.reason = 0

/-- **What people are told of a run that succeeds**, in any style that is not quiet. -/
theorem IsTold.tellsLines {paths : List Bytes} {visits : List Visit} {events : List Event}
    {result : Except ArchiveError Report} (h : IsTold paths visits events result)
    {report : Report} (hresult : result = .ok report) {style : Style} (hquiet : style.quiet = false)
    (output : Bytes) :
    TellsLines style.lineAbout paths visits
      (Output.stderr ((noticesOf output events result).flatMap (Form.human style).render)) := by
  subst hresult
  have htext : Output.stderr ((noticesOf output events (.ok report)).flatMap
      (Form.human style).render) = Text.unlines ((complaints visits).map style.lineAbout) := by
    rw [h.stderr]
    simp only [Form.render, Notice.ofResult, Style.stderr_ofVisit hquiet, Style.stderr_archived]
    rw [join_map_elim, complaints]
    exact String.append_empty
  have hbreaks : ((complaints visits).map style.lineAbout).map Text.breaks =
      (complaints visits).map (·.breaks) := by
    rw [List.map_map]
    exact List.map_congr_left fun complaint _ => style.breaks_lineAbout complaint
  rw [htext]
  refine ⟨h.complete report rfl, fun visit _ => Complaint.ofVisit?_eq_none_iff visit, rfl, ?_, ?_⟩
  · rw [Text.length_lines, Text.breaks_unlines, List.length_map, hbreaks]
  · rw [Text.lines_unlines_iff, List.forall_mem_map]
    simp only [style.breaks_lineAbout, Complaint.breaks_eq_zero_iff]

/-- Reasons on one line have no line breaks. -/
theorem breaks_of_isLine {text : String} (h : Text.IsLine text) : Text.breaks text = 0 := by
  rw [Text.breaks, List.count_eq_zero]
  intro hbreak
  exact absurd (h _ hbreak) (by decide)

/-- If the system reports its failures by number, no reason of a run has a line break. -/
theorem breaks_reason_createArchive {fs : FileSystem} (h : fs.ReportsNumbers) (output : Bytes)
    (sources : List Bytes) (settings : Settings) (elapsed : Duration) :
    ∀ complaint ∈ complaints (createArchive fs output sources settings elapsed).visits,
      Text.breaks complaint.reason = 0 := by
  intro complaint hcomplaint
  obtain ⟨visit, hvisit, hof⟩ := List.mem_filterMap.1 hcomplaint
  exact breaks_of_isLine (createArchive_plain h output sources settings elapsed visit hvisit _ hof)

/-- **What people are told**, for every run of the program that succeeds and whose arguments are
understood and ask neither for JSON output nor for silence.

* On the standard error output there is one diagnostic for each input that was not completed, in the
  order of the inputs, and nothing else.
* There are as many lines as diagnostics, and one more for each line break in a name or a reason;
  the lines are the diagnostics, one for one, exactly if there is no line break in them.
* If the operating system reports its failures by number there is none in a reason.  Then the lines
  are the diagnostics exactly if the name of no such input has a line break.

The same holds of what is printed about a run on any destination, whatever its writer and its inputs
do, with and without colours and symbols. -/
theorem diagnostic_lines (fs : FileSystem) (arguments : List Bytes) (elapsed : Duration)
    {parsed : Arguments} (hparse : Arguments.parse arguments = .ok parsed)
    (hjson : parsed.json = false) (hquiet : parsed.quiet = false) :
    let archive := createArchive fs parsed.output parsed.files parsed.settings elapsed
    let stderr := Output.stderr (run fs arguments elapsed).outputs
    (∀ report, archive.result = .ok report →
        TellsLines Complaint.diagnostic parsed.files archive.visits stderr) ∧
      (∀ report, archive.result = .ok report → fs.ReportsNumbers →
        (Text.lines stderr = (complaints archive.visits).map (·.diagnostic) ↔
          ∀ complaint ∈ complaints archive.visits, 10 ∉ complaint.path)) ∧
      ∀ {β δ ε ς : Type} [Destination δ ε] (writer : Writer β δ (Metered ς))
        (inputs : List (Input ε ς)) (report : Report) (style : Style),
        let creation := createOn writer inputs elapsed
        creation.result = .ok report → style.quiet = false →
          TellsLines style.lineAbout (inputs.map (·.path)) creation.visits
            (Output.stderr ((noticesOf parsed.output creation.events creation.result).flatMap
              (Form.human style).render)) := by
  intro archive stderr
  have htells : ∀ report, archive.result = .ok report →
      TellsLines Complaint.diagnostic parsed.files archive.visits stderr := by
    intro report hreport
    let style : Style := { verbose := parsed.verbose, quiet := parsed.quiet }
    have hform : parsed.form = .human style := by
      rw [Arguments.form, hjson]
      rfl
    have hplain : style.lineAbout = Complaint.diagnostic := funext (style.lineAbout_plain rfl)
    dsimp only [stderr]
    rw [outputs_run fs elapsed hparse, Arguments.outputs, hform, ← hplain]
    exact (isTold_createArchive fs parsed.output parsed.files parsed.settings elapsed).tellsLines
      hreport hquiet parsed.output
  refine ⟨htells, fun report hreport hnumbers => ?_, ?_⟩
  · rw [(htells report hreport).lines]
    have hreasons := breaks_reason_createArchive hnumbers parsed.output parsed.files
      parsed.settings elapsed
    exact forall₂_congr fun complaint hcomplaint =>
      and_iff_left (hreasons complaint hcomplaint)
  · intro β δ ε ς _ writer inputs report style creation hreport hstyle
    exact (isTold_createOn writer inputs elapsed).tellsLines hreport hstyle parsed.output

/-- A file system without files that the system makes up reports what it has to. -/
theorem reportsNumbers_holding (name content : Bytes) :
    (FileSystem.holding name content).ReportsNumbers := by
  intro id made cause hnode
  match id, hnode with
  | 0, hnode => cases hnode
  | 1, hnode => cases hnode
  | n + 2, hnode => cases hnode

/-- A file and a path that does not end in a name: one line, about the path. -/
theorem diagnostic_lines_skipped :
    Text.lines (Output.stderr
      (run (.holding [97] [1, 2, 3]) [[98], [97], [97, 47]] .zero).outputs) =
        ["skipping a/: nonsense filename"] := by
  let fs : FileSystem := .holding [97] [1, 2, 3]
  let parsed : Arguments := ⟨[98], [[97], [97, 47]], false, false, false, none, false⟩
  let archive := createArchive fs parsed.output parsed.files parsed.settings .zero
  have hparse : Arguments.parse [[98], [97], [97, 47]] = .ok parsed := by decide +kernel
  obtain ⟨⟨report, hresult⟩, hvisits⟩ := createArchive_beside [[97], [97, 47]] .zero
  have hcomplaints : complaints archive.visits = [⟨.skip, [97, 47], "nonsense filename"⟩] :=
    congrArg complaints (hvisits.trans visitAll_beside)
  obtain ⟨-, hlines, -⟩ := diagnostic_lines fs [[98], [97], [97, 47]] .zero hparse rfl rfl
  have htold := (hlines report hresult (reportsNumbers_holding _ _)).2
  have hnames : ∀ complaint ∈ complaints archive.visits, 10 ∉ complaint.path := by
    rw [hcomplaints]
    decide
  refine ((htold hnames).trans (congrArg (List.map Complaint.diagnostic) hcomplaints)).trans ?_
  decide +kernel

/-- The path `x: nonsense filename⏎skipping y/`, with a line break in it. -/
def forgingPath : Bytes := bytesOfText "x: nonsense filename\nskipping y/"

/-- **A name forges a diagnostic.**  There is one input, and it is passed over; but the lines are
those of a run that passed over two inputs with other names. -/
theorem diagnostic_lines_forged :
    let program := run (.holding [97] [1, 2, 3]) [[98], forgingPath] .zero
    (Arguments.parse [[98], forgingPath]).map (·.files) = .ok [forgingPath] ∧
      program.exitCode = 0 ∧
      Text.lines (Output.stderr program.outputs) =
        ["skipping x: nonsense filename", "skipping y/: nonsense filename"] := by
  intro program
  let fs : FileSystem := .holding [97] [1, 2, 3]
  let style : Style := {}
  let parsed : Arguments := ⟨[98], [forgingPath], false, false, false, none, false⟩
  let archive := createArchive fs parsed.output parsed.files parsed.settings .zero
  have hparse : Arguments.parse [[98], forgingPath] = .ok parsed := by decide +kernel
  have hvisited : (visitAll (outputWriter {} 2 openedBeside)
      (FileSystem.inputs {} [forgingPath])).1 = [⟨forgingPath, .skipped .noFileName⟩] := by
    set_option maxRecDepth 100000 in cbv
  obtain ⟨⟨report, hresult⟩, hvisits⟩ := createArchive_beside [forgingPath] .zero
  have hcomplaints : complaints archive.visits =
      [⟨.skip, forgingPath, "nonsense filename"⟩] :=
    congrArg complaints (hvisits.trans hvisited)
  have htells := (isTold_createArchive fs parsed.output parsed.files parsed.settings
    .zero).tellsLines hresult (show style.quiet = false from rfl) parsed.output
  refine ⟨by rw [hparse]; rfl, ?_, ?_⟩
  · dsimp only [program]
    rw [run, hparse]
    exact congrArg exitCodeOf hresult
  · dsimp only [program]
    rw [outputs_run _ _ hparse]
    have htext := htells.text.trans
      (congrArg (fun complaints => Text.unlines (complaints.map style.lineAbout)) hcomplaints)
    refine (congrArg Text.lines htext).trans ?_
    decide +kernel

end CpioArchive.CommandLine
