import CpioArchive.CommandLine.Run
import CpioArchive.Proofs.Events
import CpioArchive.Proofs.SafeInputs

/-!
# What machines are told

With JSON output a run is told of twice: a line for every input that was not completed, when it is
closed, and a document at the end.  The lines follow from the events of the run and the document
from its report, but both are about the same inputs, and they agree.

* `Json.isLine_compact` — a value on one line is on one line;
* `Complaint` — what a line is about, from what became of the input;
* `Arguments.outputs_texts` — everything that is printed about a run;
* `summarizes_ofVisits` — what the document at its end says about the same inputs;
* `tells_createOn`, `json_consistent` — all of that, for every run of the program.
-/

namespace CpioArchive

/-! ## Values on one line -/

namespace Text

/-- A text is one line: no character below the space is in it, and so no line break. -/
def IsLine (text : String) : Prop := ∀ c ∈ text.toList, 32 ≤ c.toNat

instance (text : String) : Decidable (IsLine text) :=
  show Decidable (∀ c ∈ text.toList, 32 ≤ c.toNat) from List.decidableBAll _ _

theorem IsLine.append {text other : String} (h : IsLine text) (hother : IsLine other) :
    IsLine (text ++ other) := by
  intro c hc
  rw [String.toList_append, List.mem_append] at hc
  exact hc.elim (h c) (hother c)

theorem IsLine.intercalate {separator : String} {parts : List String} (h : IsLine separator)
    (hparts : ∀ part ∈ parts, IsLine part) : IsLine (separator.intercalate parts) := by
  unfold IsLine
  rw [String.toList_intercalate]
  induction parts with
  | nil => exact nofun
  | cons part rest ih =>
    obtain ⟨hpart, hrest⟩ := List.forall_mem_cons.1 hparts
    cases rest with
    | nil =>
      rw [List.map_singleton, List.intercalate_singleton]
      exact hpart
    | cons next rest =>
      rw [List.map_cons, List.map_cons, List.intercalate_cons_cons, ← List.map_cons]
      intro c hc
      rw [List.mem_append, List.mem_append] at hc
      rcases hc with (hc | hc) | hc
      · exact hpart c hc
      · exact h c hc
      · exact ih hrest c hc

/-- No control character is left in a JSON string as it is. -/
theorem le_of_mem_jsonChar {c d : Char} (h : d ∈ jsonChar c) : 32 ≤ d.toNat := by
  have hdigit : ∀ n < 16, 32 ≤ (Nat.digitChar n).toNat := by decide
  unfold jsonChar at h
  split at h
  case h_8 =>
    split at h
    next hcontrol =>
      have hhigh := hdigit (c.toNat / 16) (by omega)
      have hlow := hdigit (c.toNat % 16) (Nat.mod_lt _ (by decide))
      simp only [List.mem_cons, List.not_mem_nil, or_false] at h
      rcases h with rfl | rfl | rfl | rfl | rfl | rfl
      all_goals first | assumption | decide
    next hplain =>
      obtain rfl := List.mem_singleton.1 h
      exact Nat.not_lt.1 hplain
  all_goals
    simp only [List.mem_cons, List.not_mem_nil, or_false] at h
    rcases h with rfl | rfl <;> decide

theorem isLine_jsonQuoted (text : String) : IsLine (jsonQuoted text) := by
  refine .append (.append (by decide) ?_) (by decide)
  intro c hc
  rw [String.toList_ofList] at hc
  obtain ⟨d, -, hmem⟩ := List.mem_flatMap.1 hc
  exact le_of_mem_jsonChar hmem

theorem isLine_decimal (n : Nat) : IsLine (decimal n) := by
  intro c hc
  rw [decimal, String.toList_ofList] at hc
  have hdigit := Nat.isDigit_of_mem_toDigits (by decide) (Nat.le_refl 10) hc
  exact Nat.le_trans (by decide) (Char.isDigit_iff_toNat.1 hdigit).1

end Text

namespace Json

mutual

/-- **A value on one line is on one line**, whatever texts are in it. -/
theorem isLine_compact : ∀ value : Json, Text.IsLine value.compact
  | text value => by
    rw [compact]
    exact Text.isLine_jsonQuoted value
  | number value => by
    rw [compact]
    exact Text.isLine_decimal value
  | list items => by
    rw [compact]
    exact .append (.append (by decide) (.intercalate (by decide) (isLine_compactItems items)))
      (by decide)
  | object members => by
    rw [compact]
    exact .append (.append (by decide) (.intercalate (by decide) (isLine_compactMembers members)))
      (by decide)

theorem isLine_compactItems : ∀ items : List Json, ∀ part ∈ compactItems items, Text.IsLine part
  | [] => by
    rw [compactItems]
    exact nofun
  | item :: rest => by
    rw [compactItems, List.forall_mem_cons]
    exact ⟨isLine_compact item, isLine_compactItems rest⟩

theorem isLine_compactMembers :
    ∀ members : List (String × Json), ∀ part ∈ compactMembers members, Text.IsLine part
  | [] => by
    rw [compactMembers]
    exact nofun
  | (name, value) :: rest => by
    rw [compactMembers, List.forall_mem_cons]
    exact ⟨.append (.append (Text.isLine_jsonQuoted name) (by decide)) (isLine_compact value),
      isLine_compactMembers rest⟩

end

/-- The member of an object with a name. -/
def member? (name : String) : Json → Option Json
  | object members => members.lookup name
  | _ => none

end Json

namespace CommandLine

/-! ## Complaints -/

/-- In what way an input was not completed. -/
inductive Trouble where
  /-- It was passed over. -/
  | skip
  /-- It was given up after it had been accepted. -/
  | abandon
  /-- The content of its entry is not what the header declares. -/
  | truncated
  /-- Its entry may be malformed. -/
  | warning
  deriving DecidableEq

namespace Trouble

/-- The trouble that a writer had with an input. -/
def ofError (e : ArchiveError) : Trouble :=
  if e.severity = .warning then warning else if e.isContentFailure then truncated else abandon

/-- What a line calls it. -/
def operation : Trouble → String
  | skip => "skip"
  | abandon => "abandon"
  | truncated => "truncated"
  | warning => "warning"

/-- Whether the input has no entry. -/
def isOmission : Trouble → Bool
  | skip | abandon => true
  | truncated | warning => false

end Trouble

/-- What there is to say about an input that was not completed. -/
structure Complaint where
  trouble : Trouble
  path : Bytes
  reason : String
  deriving DecidableEq

namespace Complaint

/-- The complaint that the outcome of a visit calls for.  Only a completed input calls for none. -/
def ofVisit? (visit : Visit) : Option Complaint :=
  match visit.outcome with
  | .skipped reason => some ⟨.skip, visit.path, reason.message⟩
  | .attempted _ _ (.ok _) => none
  | .attempted _ _ (.error e) => some ⟨.ofError e, visit.path, e.message⟩

/-- The path and the reason in one sentence. -/
def sentence (complaint : Complaint) : String :=
  "finishing '" ++ displayPath complaint.path ++ "': " ++ complaint.reason

/-- The path and the reason as a line gives them. -/
def data (complaint : Complaint) : Json :=
  match complaint.trouble with
  | .skip | .abandon | .truncated => Machine.remark complaint.path complaint.reason
  | .warning => .object [("message", .text complaint.sentence)]

/-- What a line says. -/
def document (complaint : Complaint) : Json :=
  Machine.document complaint.trouble.operation "warning" ("data", complaint.data)

/-- The line about an input. -/
def line (complaint : Complaint) : String := complaint.document.compact ++ "\n"

/-- How the document at the end lists an input without an entry. -/
def skippedItem (complaint : Complaint) : Json :=
  Machine.remark complaint.path <|
    if complaint.trouble = .abandon then "couldn't write header: " ++ complaint.reason
    else complaint.reason

/-- How the document at the end warns of an entry. -/
def warningItem (complaint : Complaint) : Json :=
  .text <|
    if complaint.trouble = .warning then complaint.sentence
    else displayPath complaint.path ++ ": " ++ complaint.reason

/-- An input is complained about exactly if it is not completed. -/
theorem ofVisit?_eq_none_iff (visit : Visit) :
    ofVisit? visit = none ↔ visit.closingEvent = .completed visit.path := by
  obtain ⟨path, reason | ⟨reads, declared, e | size⟩⟩ := visit
  · exact ⟨nofun, nofun⟩
  · refine ⟨nofun, fun h => ?_⟩
    unfold Visit.closingEvent at h
    dsimp only at h
    split at h <;> cases h
  · exact ⟨fun _ => rfl, fun _ => rfl⟩

theorem path_of_ofVisit? {visit : Visit} {complaint : Complaint}
    (h : ofVisit? visit = some complaint) : complaint.path = visit.path := by
  obtain ⟨path, reason | ⟨reads, declared, e | size⟩⟩ := visit <;> cases h <;> rfl

/-- The notice about the end of a visit is its complaint, on one line. -/
theorem render_closingEvent (visit : Visit) :
    (Notice.ofEvent? visit.closingEvent).toList.flatMap Machine.render =
      (ofVisit? visit).toList.map fun complaint => .toStderr complaint.document.compact := by
  obtain ⟨path, reason | ⟨reads, declared, e | size⟩⟩ := visit
  · rfl
  · cases e <;> rfl
  · rfl

end Complaint

/-- The complaints of a run, in the order of its inputs. -/
def complaints (visits : List Visit) : List Complaint := visits.filterMap Complaint.ofVisit?

theorem paths_complaints (visits : List Visit) :
    ((complaints visits).map (·.path)).Sublist (visits.map (·.path)) := by
  induction visits with
  | nil => exact .slnil
  | cons visit rest ih =>
    unfold complaints
    cases h : Complaint.ofVisit? visit with
    | none =>
      rw [List.filterMap_cons_none h]
      exact ih.cons visit.path
    | some complaint =>
      rw [List.filterMap_cons_some h, List.map_cons, Complaint.path_of_ofVisit? h]
      exact ih.cons_cons visit.path

/-! ## Lines -/

namespace Output

variable (line : String) (outputs others : List Output)

@[simp] theorem stderr_nil : stderr [] = "" := rfl

@[simp] theorem stdout_nil : stdout [] = "" := rfl

@[simp] theorem stderr_cons_toStderr :
    stderr (.toStderr line :: outputs) = line ++ "\n" ++ stderr outputs := String.join_cons

@[simp] theorem stderr_cons_toStdout : stderr (.toStdout line :: outputs) = stderr outputs := rfl

@[simp] theorem stdout_cons_toStdout :
    stdout (.toStdout line :: outputs) = line ++ "\n" ++ stdout outputs := String.join_cons

@[simp] theorem stdout_cons_toStderr : stdout (.toStderr line :: outputs) = stdout outputs := rfl

theorem stderr_append : stderr (outputs ++ others) = stderr outputs ++ stderr others := by
  rw [stderr, List.filterMap_append, String.join_append]
  rfl

theorem stdout_append : stdout (outputs ++ others) = stdout outputs ++ stdout others := by
  rw [stdout, List.filterMap_append, String.join_append]
  rfl

end Output

/-- What stands on the standard error output about the failure of a run: a line of its own, and
nothing if the run succeeds. -/
def failureText (output : Bytes) : Except ArchiveError Report → String
  | .ok _ => ""
  | .error e =>
    (Machine.document "create" "error"
      ("error", .text (Failure.ofArchiveError output e).chain)).compact ++ "\n"

/-- What stands on the standard output about the success of a run: a document, and nothing if the
run fails. -/
def successText (output : Bytes) : Except ArchiveError Report → String
  | .ok report =>
    (Machine.document "create" "success" ("data", Machine.summary output report)).pretty 0 ++ "\n"
  | .error _ => ""

/-- The events of visits are told by a line for each complaint. -/
theorem render_eventsFrom (total number : Nat) (visits : List Visit) :
    ((Creation.eventsFrom total number visits).filterMap Notice.ofEvent?).flatMap Machine.render =
      (complaints visits).map fun complaint => .toStderr complaint.document.compact := by
  rw [Creation.eventsFrom_eq, filterMap_episodesFrom (fun _ _ _ => rfl) fun _ => rfl, complaints,
    List.filterMap_eq_flatMap_toList, List.filterMap_eq_flatMap_toList, List.flatMap_assoc,
    List.map_flatMap]
  simp only [Complaint.render_closingEvent]

theorem stderr_complaints (list : List Complaint) :
    Output.stderr (list.map fun complaint => .toStderr complaint.document.compact) =
      String.join (list.map (·.line)) := by
  induction list with
  | nil => rfl
  | cons complaint rest ih =>
    rw [List.map_cons, List.map_cons, Output.stderr_cons_toStderr, String.join_cons, ih]
    rfl

theorem stdout_complaints (list : List Complaint) :
    Output.stdout (list.map fun complaint => .toStderr complaint.document.compact) = "" := by
  induction list with
  | nil => rfl
  | cons complaint rest ih => rw [List.map_cons, Output.stdout_cons_toStderr, ih]

/-- All that is printed about a run whose notices are those of its visits. -/
theorem Arguments.outputs_texts {arguments : Arguments} (hjson : arguments.json = true)
    {events : List Event} {visits : List Visit} {total : Nat}
    (hevents : events.filterMap Notice.ofEvent? =
      (Creation.eventsFrom total 1 visits).filterMap Notice.ofEvent?)
    (result : Except ArchiveError Report) :
    Output.stderr (arguments.outputs events result) =
        String.join ((complaints visits).map (·.line)) ++ failureText arguments.output result ∧
      Output.stdout (arguments.outputs events result) = successText arguments.output result := by
  have hform : arguments.form.render = Machine.render := by
    rw [Arguments.form, if_pos hjson]
    rfl
  have hlines : (events.filterMap Notice.ofEvent?).flatMap arguments.form.render =
      (complaints visits).map fun complaint => .toStderr complaint.document.compact := by
    rw [hevents, hform, render_eventsFrom]
  unfold Arguments.outputs noticesOf
  rw [List.flatMap_append, hlines, hform, Output.stderr_append, Output.stdout_append,
    stderr_complaints, stdout_complaints, String.empty_append]
  cases result with
  | ok report => exact ⟨rfl, by simp [Machine.render, successText]⟩
  | error e => exact ⟨by simp [Machine.render, failureText], rfl⟩

/-! ## The document at the end -/

/-- The complaints about inputs without an entry. -/
def omissions (list : List Complaint) : List Complaint := list.filter (·.trouble.isOmission)

/-- The complaints about entries that are not what they should be. -/
def doubts (list : List Complaint) : List Complaint := list.filter (!·.trouble.isOmission)

/-- What the document at the end of a run says of its inputs, if some were complained about: it
lists the same inputs, in the same order, and accounts for all of them. -/
structure Summarizes (summary : Json) (list : List Complaint) (inputs : Nat) : Prop where
  skipped : summary.member? "skipped" = some (.list ((omissions list).map (·.skippedItem)))
  filesSkipped : summary.member? "files_skipped" = some (.number (omissions list).length)
  warnings : summary.member? "warnings" = some (.list ((doubts list).map (·.warningItem)))
  entriesFailed : summary.member? "entries_failed" =
    some (.number (list.countP (·.trouble = .truncated)))
  filesAdded : ∃ added, summary.member? "files_added" = some (.number added) ∧
    added + (omissions list).length + list.countP (·.trouble = .truncated) = inputs

/-- An input without an entry is complained about, and the report names it, if the run goes on. -/
theorem skippedItem_eq {visit : Visit} (h : visit.fatal? = none) :
    visit.skipText?.map (Machine.remark visit.path) =
      ((Complaint.ofVisit? visit).filter (·.trouble.isOmission)).map (·.skippedItem) := by
  obtain ⟨path, reason | ⟨reads, declared, e | size⟩⟩ := visit
  · rfl
  · -- A fatal error is complained about as well, but there is no report then.
    cases e <;> first | rfl | cases h
  · rfl

/-- An entry that is not what it should be is complained about, and the report warns of it. -/
theorem warningItem_eq (visit : Visit) :
    visit.warning?.map Json.text =
      ((Complaint.ofVisit? visit).filter (!·.trouble.isOmission)).map (·.warningItem) := by
  obtain ⟨path, reason | ⟨reads, declared, e | size⟩⟩ := visit
  · rfl
  · cases e <;> rfl
  · rfl

theorem isContentFailure_eq_truncated (visit : Visit) :
    visit.isContentFailure =
      ((Complaint.ofVisit? visit).map fun complaint => decide (complaint.trouble = .truncated)).getD
        false := by
  obtain ⟨path, reason | ⟨reads, declared, e | size⟩⟩ := visit
  · rfl
  · cases e <;> rfl
  · rfl

/-- **The document at the end of a run and the lines before it are about the same inputs**, if no
error ended the run. -/
theorem summarizes_ofVisits (output : Bytes) {visits : List Visit}
    (h : ∀ visit ∈ visits, visit.fatal? = none) (bytesWritten : Nat) (elapsed : Duration) :
    Summarizes (Machine.summary output (.ofVisits visits bytesWritten elapsed)) (complaints visits)
      visits.length := by
  have hskipped : (Report.ofVisits visits bytesWritten elapsed).skipped.map
        (fun skipped => Machine.remark skipped.path skipped.reason) =
      (omissions (complaints visits)).map (·.skippedItem) := by
    rw [omissions, complaints, List.filter_filterMap, List.map_filterMap, Report.ofVisits,
      List.map_filterMap]
    refine List.filterMap_congr fun visit hvisit => ?_
    rw [← skippedItem_eq (h visit hvisit), Option.map_map]
    rfl
  have hwarnings : (Report.ofVisits visits bytesWritten elapsed).warnings.map Json.text =
      (doubts (complaints visits)).map (·.warningItem) := by
    rw [doubts, complaints, List.filter_filterMap, List.map_filterMap, Report.ofVisits,
      List.map_filterMap]
    exact List.filterMap_congr fun visit _ => warningItem_eq visit
  have hfailed : (Report.ofVisits visits bytesWritten elapsed).entriesFailed =
      (complaints visits).countP (·.trouble = .truncated) := by
    rw [complaints, List.countP_filterMap]
    refine List.countP_congr fun visit _ => ?_
    rw [isContentFailure_eq_truncated]
  have hlength : (Report.ofVisits visits bytesWritten elapsed).filesSkipped =
      (omissions (complaints visits)).length := by
    have hlists := congrArg List.length hskipped
    rwa [List.length_map, List.length_map] at hlists
  have hseen := Report.inputsSeen_ofVisits h bytesWritten elapsed
  rw [Report.inputsSeen, hlength, hfailed] at hseen
  exact {
    skipped := congrArg (some ∘ Json.list) hskipped
    filesSkipped := congrArg (some ∘ Json.number) hlength
    warnings := congrArg (some ∘ Json.list) hwarnings
    entriesFailed := congrArg (some ∘ Json.number) hfailed
    filesAdded := ⟨_, rfl, hseen⟩ }

/-! ## Runs -/

/-- What is printed about a run that visits inputs with some paths. -/
structure Tells (outputs : List Output) (output : Bytes) (paths : List Bytes) (visits : List Visit)
    (result : Except ArchiveError Report) : Prop where
  /-- The run comes to the inputs in their order. -/
  visited : visits.map (·.path) <+: paths
  /-- An input has a line exactly if it is not completed. -/
  silent : ∀ visit ∈ visits,
    Complaint.ofVisit? visit = none ↔ visit.closingEvent = .completed visit.path
  /-- The lines are about inputs in their order. -/
  order : ((complaints visits).map (·.path)).Sublist paths
  /-- The standard error output is these lines, and a last one exactly if the run fails. -/
  stderr : Output.stderr outputs =
    String.join ((complaints visits).map (·.line)) ++ failureText output result
  /-- The standard output is a document exactly if the run succeeds. -/
  stdout : Output.stdout outputs = successText output result
  /-- Then the run came to all inputs, and the document agrees with the lines. -/
  summary : ∀ report, result = .ok report → visits.map (·.path) = paths ∧
    Summarizes (Machine.summary output report) (complaints visits) paths.length

section Runs

variable {β δ ε ς : Type} [Destination δ ε]

/-- A run comes to its inputs in their order. -/
theorem paths_visitAll (writer : Writer β δ (Metered ς)) (inputs : List (Input ε ς)) :
    (visitAll writer inputs).1.map (·.path) <+: inputs.map (·.path) := by
  induction inputs generalizing writer with
  | nil => exact List.prefix_refl []
  | cons input rest ih =>
    have hpath := path_visit writer input
    cases hfatal : (visit writer input).1.fatal? with
    | some e =>
      rw [visitAll_fatal hfatal, List.map_singleton, hpath, List.map_cons]
      exact ⟨_, rfl⟩
    | none =>
      rw [visitAll_cons hfatal rfl, List.map_cons, hpath, List.map_cons]
      exact List.prefix_cons_iff.2 (.inr ⟨_, rfl, ih _⟩)

/-- **What is printed about a run**, for every encoder, every destination, every writer in every
state, and all inputs. -/
theorem tells_createOn {arguments : Arguments} (hjson : arguments.json = true)
    (writer : Writer β δ (Metered ς)) (inputs : List (Input ε ς)) (elapsed : Duration) :
    let creation := createOn writer inputs elapsed
    Tells (arguments.outputs creation.events creation.result) arguments.output
      (inputs.map (·.path)) creation.visits creation.result := by
  intro creation
  obtain ⟨hvisits, htotal⟩ := visits_createOn writer inputs elapsed
  have hnotices : creation.events.filterMap Notice.ofEvent? =
      (Creation.eventsFrom inputs.length 1 creation.visits).filterMap Notice.ofEvent? := by
    rw [Creation.events, htotal, List.filterMap_append]
    cases creation.result <;> exact List.append_nil _
  obtain ⟨hstderr, hstdout⟩ := arguments.outputs_texts hjson hnotices creation.result
  have hcame : creation.visits.map (·.path) <+: inputs.map (·.path) := by
    rw [hvisits]
    exact paths_visitAll writer inputs
  refine ⟨hcame, fun visit _ => Complaint.ofVisit?_eq_none_iff visit,
    (paths_complaints _).trans hcame.sublist, hstderr, hstdout, ?_⟩
  intro report hreport
  obtain ⟨visits, after, hall, -, hsame, bytesWritten, rfl⟩ := of_createOn_eq_ok hreport
  obtain ⟨hlength, hnone⟩ := of_visitAll_none hall
  rw [hsame] at hcame ⊢
  rw [List.length_map, ← hlength]
  exact ⟨hcame.eq_of_length (by simp [hlength]),
    summarizes_ofVisits arguments.output hnone bytesWritten elapsed⟩

end Runs

/-- **What is printed with JSON output**, for every run of the program whose arguments are
understood and ask for it.

* The standard error output is one line for each input that was closed without being completed, in
  the order of the inputs: a value that names the trouble, the path and the reason.  If and only if
  the run fails, one more line follows.
* The standard output is one document if the run succeeds, and nothing otherwise.
* The document lists the inputs without an entry, and warns of the entries that are not what they
  should be, exactly as the lines do; what it counts are these inputs, and together with the files
  added there are as many as arguments.

The same holds of what is printed about a run on any destination, whatever its writer and its inputs
do, also where padding cannot be written; and a value that is printed on one line stays on it. -/
theorem json_consistent (fs : FileSystem) (arguments : List Bytes) (elapsed : Duration)
    {parsed : Arguments} (hparse : Arguments.parse arguments = .ok parsed)
    (hjson : parsed.json = true) :
    let archive := createArchive fs parsed.output parsed.files parsed.settings elapsed
    Tells (run fs arguments elapsed).outputs parsed.output parsed.files archive.visits
        archive.result ∧
      (∀ {β δ ε ς : Type} [Destination δ ε] (writer : Writer β δ (Metered ς))
        (inputs : List (Input ε ς)), let creation := createOn writer inputs elapsed
        Tells (parsed.outputs creation.events creation.result) parsed.output (inputs.map (·.path))
          creation.visits creation.result) ∧
      ∀ value : Json, Text.IsLine value.compact := by
  intro archive
  refine ⟨?_, fun writer inputs => tells_createOn hjson writer inputs elapsed, Json.isLine_compact⟩
  have houtputs : (run fs arguments elapsed).outputs =
      parsed.outputs archive.events archive.result := by
    rw [run, hparse]
    rfl
  rw [houtputs]
  rcases createArchive_cases fs parsed.output parsed.files parsed.settings elapsed with
    ⟨e, hrefused⟩ | ⟨hvalid, target, opened, hcreate⟩
  · dsimp only [archive]
    rw [hrefused]
    have hnotices : ([] : List Event).filterMap Notice.ofEvent? =
        (Creation.eventsFrom 0 1 []).filterMap Notice.ofEvent? := rfl
    obtain ⟨hstderr, hstdout⟩ := parsed.outputs_texts hjson hnotices (.error e)
    exact ⟨List.nil_prefix, nofun, List.nil_sublist _, hstderr, hstdout, nofun⟩
  · dsimp only [archive]
    rw [createArchive_of_createFile hvalid hcreate rfl]
    have hpaths : (FileSystem.inputs parsed.settings parsed.files).map (·.path) = parsed.files := by
      rw [FileSystem.inputs, List.map_map]
      exact List.map_id _
    have htells := tells_createOn hjson (outputWriter parsed.settings target opened)
      (FileSystem.inputs parsed.settings parsed.files) elapsed
    rwa [hpaths] at htells

/-- One path that does not end in a name: one line, and a document that lists it. -/
theorem json_consistent_skipped :
    let program := run (.holding [97] [1, 2, 3]) [[45, 106], [98], [97, 47]] .zero
    Output.stderr program.outputs =
        "\x7b\"operation\":\"skip\",\"status\":\"warning\",\"data\":\x7b\"path\":\"a/\","
          ++ "\"reason\":\"nonsense filename\"\x7d\x7d\n" ∧
      ∃ report, Output.stdout program.outputs = successText [98] (.ok report) ∧
        Summarizes (Machine.summary [98] report)
          [⟨.skip, [97, 47], "nonsense filename"⟩] 1 := by
  intro program
  let parsed : Arguments := ⟨[98], [[97, 47]], false, false, true, none, false⟩
  let opened : FileSystem :=
    ⟨#[⟨.directory [([97], 1), ([98], 2)], 0o755⟩, ⟨.file (.ofBytes [1, 2, 3]), 0o644⟩,
      ⟨.file .empty, 0o644⟩], []⟩
  have hparse : Arguments.parse [[45, 106], [98], [97, 47]] = .ok parsed := by decide +kernel
  have hcreate : (FileSystem.holding [97] [1, 2, 3]).createFile parsed.output =
      .ok (2, opened) := by
    set_option maxRecDepth 100000 in cbv
  have hvalid : parsed.settings.validate = .ok () := rfl
  obtain ⟨report, hresult⟩ : ∃ report, (createArchive (.holding [97] [1, 2, 3]) parsed.output
      parsed.files parsed.settings .zero).result = .ok report :=
    (createArchive_ok hcreate rfl hvalid).imp fun _ h => h.1
  have hvisits : (createArchive (.holding [97] [1, 2, 3]) parsed.output parsed.files
      parsed.settings .zero).visits = [⟨[97, 47], .skipped .noFileName⟩] := by
    rw [createArchive_of_createFile hvalid hcreate rfl]
    exact (visits_createOn _ _ _).1
  have hlines : String.join ((complaints [⟨[97, 47], .skipped .noFileName⟩]).map (·.line)) ++ "" =
      "\x7b\"operation\":\"skip\",\"status\":\"warning\",\"data\":\x7b\"path\":\"a/\","
        ++ "\"reason\":\"nonsense filename\"\x7d\x7d\n" := by decide +kernel
  obtain ⟨htells, -⟩ := json_consistent (.holding [97] [1, 2, 3]) [[45, 106], [98], [97, 47]] .zero
    hparse rfl
  have hstderr := htells.stderr
  have hstdout := htells.stdout
  obtain ⟨-, hsummary⟩ := htells.summary report hresult
  rw [hvisits, hresult] at hstderr
  rw [hresult] at hstdout
  rw [hvisits] at hsummary
  exact ⟨hstderr.trans hlines, report, hstdout, hsummary⟩

end CommandLine

end CpioArchive
