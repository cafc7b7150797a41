import CpioArchive.Proofs.Diagnostics
import CpioArchive.Proofs.LineBreaks

/-!
# Notices of a run

A run has one notice for each input that it comes to, when the input is closed, and one for its
end.  What is printed is these notices, one behind the other, in whatever form.

* `Notice.ofVisit`, `Notice.ofResult` — the notice about an input, and the one about the end;
* `IsTold` — the notices of a run are those of its visits, and the visits are about its inputs;
* `isTold_createOn`, `isTold_createArchive` — so it is in every run;
* `IsTold.stdout`, `IsTold.stderr` — what is printed, as the join of what each notice prints;
* `createArchive_beside`, `visitAll_beside` — a small run, to see what the theorems say of it.
-/

namespace CpioArchive

theorem FileSystem.map_path_inputs (settings : Settings) (paths : List Bytes) :
    (FileSystem.inputs settings paths).map (·.path) = paths := by
  rw [FileSystem.inputs, List.map_map]
  exact List.map_id _

namespace CommandLine

namespace Notice

/-- The notice about an input that was visited. -/
def ofVisit (visit : Visit) : Notice :=
  match visit.outcome with
  | .skipped reason => .skipping visit.path reason.message
  | .attempted _ _ (.ok _) => .adding visit.path
  | .attempted _ _ (.error e) =>
    if e.severity = .warning then
      .warning ("finishing '" ++ displayPath visit.path ++ "': " ++ e.message)
    else if e.isContentFailure then .truncated visit.path e.message
    else .abandoning visit.path e.message

/-- The notice about the end of a run that was to create the archive `output`. -/
def ofResult (output : Bytes) : Except ArchiveError Report → Notice
  | .ok report => .archived output report
  | .error e => .failed (.ofArchiveError output e)

/-- The event that closes a visit calls for a notice. -/
theorem ofEvent?_closingEvent (visit : Visit) :
    ofEvent? visit.closingEvent = some (ofVisit visit) := by
  obtain ⟨path, reason | ⟨reads, declared, e | size⟩⟩ := visit
  · rfl
  · cases e <;> rfl
  · rfl

/-- No other event of a visit does. -/
theorem filterMap_eventsFrom (total number : Nat) (visits : List Visit) :
    (Creation.eventsFrom total number visits).filterMap ofEvent? = visits.map ofVisit := by
  rw [Creation.eventsFrom_eq, filterMap_episodesFrom (fun _ _ _ => rfl) fun _ => rfl,
    ← List.filterMap_eq_map]
  exact List.filterMap_congr fun visit _ => ofEvent?_closingEvent visit

end Notice

/-! ## Printed texts -/

namespace Output

theorem stdout_flatMap {α : Type} (list : List α) (f : α → List Output) :
    stdout (list.flatMap f) = String.join (list.map fun a => stdout (f a)) := by
  induction list with
  | nil => rfl
  | cons a rest ih => rw [List.flatMap_cons, stdout_append, ih, List.map_cons, String.join_cons]

theorem stderr_flatMap {α : Type} (list : List α) (f : α → List Output) :
    stderr (list.flatMap f) = String.join (list.map fun a => stderr (f a)) := by
  induction list with
  | nil => rfl
  | cons a rest ih => rw [List.flatMap_cons, stderr_append, ih, List.map_cons, String.join_cons]

theorem stdout_map_toStdout (lines : List String) :
    stdout (lines.map .toStdout) = Text.unlines lines := by
  induction lines with
  | nil => rfl
  | cons line rest ih => rw [List.map_cons, stdout_cons_toStdout, ih, Text.unlines_cons]

end Output

/-- Lines that only some have are joined as if the others were not there. -/
theorem join_map_elim {α γ : Type} (list : List α) (f : α → Option γ) (line : γ → String) :
    String.join (list.map fun a => (f a).elim "" (line · ++ "\n")) =
      Text.unlines ((list.filterMap f).map line) := by
  induction list with
  | nil => rfl
  | cons a rest ih =>
    rw [List.map_cons, String.join_cons, ih]
    cases h : f a with
    | none =>
      rw [List.filterMap_cons_none h]
      exact String.empty_append
    | some c => rw [List.filterMap_cons_some h, List.map_cons, Text.unlines_cons, Option.elim_some]

/-! ## Runs -/

/-- The notices of a run over inputs with some paths are those of its visits, in order; and if the
run succeeds, none of its inputs is left without one. -/
structure IsTold (paths : List Bytes) (visits : List Visit) (events : List Event)
    (result : Except ArchiveError Report) : Prop where
  notices : events.filterMap Notice.ofEvent? = visits.map Notice.ofVisit
  visited : visits.map (·.path) <+: paths
  complete : ∀ report, result = .ok report → visits.map (·.path) = paths

namespace IsTold

variable {paths : List Bytes} {visits : List Visit} {events : List Event}
  {result : Except ArchiveError Report}

theorem render (h : IsTold paths visits events result) (form : Form) (output : Bytes) :
    (noticesOf output events result).flatMap form.render =
      visits.flatMap (fun visit => form.render (.ofVisit visit)) ++
        form.render (.ofResult output result) := by
  have hend : noticesOf output events result =
      visits.map Notice.ofVisit ++ [.ofResult output result] := by
    unfold noticesOf
    rw [h.notices]
    cases result <;> rfl
  rw [hend, List.flatMap_append, List.flatMap_map, List.flatMap_singleton]

theorem stdout (h : IsTold paths visits events result) (form : Form) (output : Bytes) :
    Output.stdout ((noticesOf output events result).flatMap form.render) =
      String.join (visits.map fun visit => Output.stdout (form.render (.ofVisit visit))) ++
        Output.stdout (form.render (.ofResult output result)) := by
  rw [h.render, Output.stdout_append, Output.stdout_flatMap]

theorem stderr (h : IsTold paths visits events result) (form : Form) (output : Bytes) :
    Output.stderr ((noticesOf output events result).flatMap form.render) =
      String.join (visits.map fun visit => Output.stderr (form.render (.ofVisit visit))) ++
        Output.stderr (form.render (.ofResult output result)) := by
  rw [h.render, Output.stderr_append, Output.stderr_flatMap]

end IsTold

/-- **Every run is told**, whatever its encoder, its destination, its writer and its inputs do. -/
theorem isTold_createOn {β δ ε ς : Type} [Destination δ ε] (writer : Writer β δ (Metered ς))
    (inputs : List (Input ε ς)) (elapsed : Duration) :
    let creation := createOn writer inputs elapsed
    IsTold (inputs.map (·.path)) creation.visits creation.events creation.result := by
  intro creation
  obtain ⟨hvisits, htotal⟩ := visits_createOn writer inputs elapsed
  have hvisited : creation.visits.map (·.path) <+: inputs.map (·.path) := by
    rw [hvisits]
    exact paths_visitAll writer inputs
  refine ⟨?_, hvisited, ?_⟩
  · rw [Creation.events, List.filterMap_append, Notice.filterMap_eventsFrom]
    cases creation.result <;> exact List.append_nil _
  · intro report hreport
    obtain ⟨visits, after, hall, -, hsame, -⟩ := of_createOn_eq_ok hreport
    obtain ⟨hlength, -⟩ := of_visitAll_none hall
    rw [hsame] at hvisited ⊢
    exact hvisited.eq_of_length (by rw [List.length_map, List.length_map, hlength])

/-- A run on a file system is told as well, also if it ends before its first input. -/
theorem isTold_createArchive (fs : FileSystem) (output : Bytes) (sources : List Bytes)
    (settings : Settings) (elapsed : Duration) :
    let archive := createArchive fs output sources settings elapsed
    IsTold sources archive.visits archive.events archive.result := by
  intro archive
  dsimp only [archive]
  rcases createArchive_cases fs output sources settings elapsed with
    ⟨e, hrefused⟩ | ⟨hvalid, target, opened, hcreate⟩
  · rw [hrefused]
    exact ⟨rfl, List.nil_prefix, nofun⟩
  · rw [createArchive_of_createFile hvalid hcreate rfl]
    have htold := isTold_createOn (outputWriter settings target opened)
      (FileSystem.inputs settings sources) elapsed
    rwa [FileSystem.map_path_inputs] at htold

/-- What a run of the program prints, if its arguments are understood. -/
theorem outputs_run (fs : FileSystem) {arguments : List Bytes} (elapsed : Duration)
    {parsed : Arguments} (h : Arguments.parse arguments = .ok parsed) :
    let archive := createArchive fs parsed.output parsed.files parsed.settings elapsed
    (run fs arguments elapsed).outputs = parsed.outputs archive.events archive.result := by
  rw [run, h]
  rfl

/-- A file of three bytes at the path `a`, and an output that was opened at `b`. -/
def openedBeside : FileSystem :=
  ⟨#[⟨.directory [([97], 1), ([98], 2)], 0o755⟩, ⟨.file (.ofBytes [1, 2, 3]), 0o644⟩,
    ⟨.file .empty, 0o644⟩], []⟩

/-- A run beside a single file succeeds, whatever its sources are, and begins with the output
opened. -/
theorem createArchive_beside (sources : List Bytes) (elapsed : Duration) :
    let archive := createArchive (.holding [97] [1, 2, 3]) [98] sources {} elapsed
    (∃ report, archive.result = .ok report) ∧
      archive.visits =
        (visitAll (outputWriter {} 2 openedBeside) (FileSystem.inputs {} sources)).1 := by
  intro archive
  have hcreate : (FileSystem.holding [97] [1, 2, 3]).createFile [98] = .ok (2, openedBeside) := by
    set_option maxRecDepth 100000 in cbv
  refine ⟨(createArchive_ok hcreate rfl rfl).imp fun _ h => h.1, ?_⟩
  dsimp only [archive]
  rw [createArchive_of_createFile rfl hcreate rfl]
  exact (visits_createOn _ _ _).1

/-- Such a run adds the file, and passes over a path that does not end in a name. -/
theorem visitAll_beside :
    (visitAll (outputWriter {} 2 openedBeside) (FileSystem.inputs {} [[97], [97, 47]])).1 =
      [⟨[97], .attempted [3] 3 (.ok ⟨112, 3, 1⟩)⟩, ⟨[97, 47], .skipped .noFileName⟩] := by
  set_option maxRecDepth 100000 in cbv

end CommandLine

end CpioArchive
