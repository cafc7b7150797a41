import CpioArchive.CommandLine.Run
import CpioArchive.Proofs.Endings
import CpioArchive.Proofs.SafeInputs

/-!
# Exit statuses

The exit status of the program is decided far from what went wrong, and stands for one stage of a
run: the arguments, the output, or the archive.

* `archive_of_success` — a run that succeeds on a regular file leaves its archive there;
* `CommandLine.Course` — how far a run of the program comes, with the status it ends with;
* `CommandLine.exit_status` — what each exit status says, and what the program has done by then.
-/

namespace CpioArchive

open Newc

/-! ## Archives in regular files -/

section Outputs

/-- A run does not succeed on a file that the system makes up. -/
theorem DiskFile.IsGenerated.createOn_ne_ok {file : DiskFile} (h : file.IsGenerated)
    (bufferSize : Nat) (inputs : List (Input FileSystem OpenFile)) (elapsed : Duration)
    (report : Report) :
    (createOn (Newc.writer (Metered OpenFile) bufferSize file) inputs elapsed).result ≠
      .ok report := by
  intro hresult
  obtain ⟨content, last, hheld, -, hlast, hflush⟩ :=
    DiskFile.IsGenerated.faithful.createOn_flushed h hresult
  -- The trailer would still have to be collected, but nothing is.
  rw [hlast.of_settle_eq_ok hflush] at hheld
  have htrailer := List.append_eq_nil_iff.1 (List.append_eq_nil_iff.1 hheld.symm).2
  exact trailerRecord_ne_nil htrailer.2

variable {fs opened : FileSystem} {output : Bytes} {sources : List Bytes} {settings : Settings}
variable {elapsed : Duration} {target : FileId} {node : Node} {creation : Creation DiskFile}
variable {report : Report}

/-- **A run that succeeds on a regular file leaves its archive there**, whatever became of its
inputs: the file ends with the trailer and has the length that the report states. -/
theorem archive_of_success (hopens : fs.Opens output target opened)
    (hnode : opened.node? target = some node) (hregular : node.kind = .regular)
    (hcreation : createOn (outputWriter settings target opened)
      (FileSystem.inputs settings sources) elapsed = creation)
    (hresult : creation.result = .ok report) :
    ∃ archive, creation.destination.close.node? target = some (.file archive) ∧
      trailerRecord <:+ archive.toBytes ∧ archive.toBytes.length = report.bytesWritten ∧
      FileSystem.Becomes target opened creation.destination.close := by
  subst hcreation
  let start : DiskFile := ⟨opened, target, 0, #[]⟩
  cases node with
  | generated made =>
    have hstart : start.IsGenerated := ⟨made, hnode⟩
    exact absurd hresult (hstart.createOn_ne_ok _ _ _ _)
  | file content =>
    obtain rfl := hopens.empty content hnode
    have hholds : start.Holds .empty := ⟨hnode, rfl⟩
    have hstart : start.IsStored start := ⟨.refl start, .empty, hholds⟩
    have F := (DiskFile.reliable start).toFaithful
    obtain ⟨bytes, last, hheld, hwritten, -⟩ := F.createOn_flushed hstart hresult
    have hreaches := Newc.createOn_reaches settings.bufferSize start
      (FileSystem.inputs settings sources) elapsed
    obtain ⟨archive, harchive, hbytes⟩ := (hreaches.good F hstart).close
    have hwrites := (DiskFile.Writes.of_reaches hreaches).trans (DiskFile.writes_settle _)
    have hwhole : archive.toBytes = bytes ++ trailerRecord := by
      rw [hbytes]
      exact hheld.trans (by rw [hholds.held_eq]; rfl)
    refine ⟨archive, harchive, ?_, ?_, hwrites.becomes⟩ <;> rw [hwhole]
    · exact List.suffix_append _ _
    · exact hwritten.symm
  | _ => cases hregular

end Outputs

namespace CommandLine

/-! ## Stages -/

/-- The buffer size is one that runs accept: 512 bytes to 16 MiB. -/
def Arguments.InRange (arguments : Arguments) : Prop :=
  512 ≤ arguments.settings.bufferSize ∧ arguments.settings.bufferSize ≤ 16 * 1024 * 1024

/-- The run that the arguments ask for, once their output is opened. -/
def Arguments.creation (arguments : Arguments) (target : FileId) (opened : FileSystem)
    (elapsed : Duration) : Creation DiskFile :=
  createOn (outputWriter arguments.settings target opened)
    (FileSystem.inputs arguments.settings arguments.files) elapsed

theorem Arguments.validate_eq (arguments : Arguments) :
    (arguments.InRange ∧ arguments.settings.validate = .ok ()) ∨
      ¬ arguments.InRange ∧ ∃ explanation,
        arguments.settings.validate = .error (.invalidSettings explanation) := by
  have hvalid : arguments.settings.isValid = true ↔ arguments.InRange := by
    rw [Settings.isValid, Bool.and_eq_true, decide_eq_true_eq, decide_eq_true_eq]
    rfl
  rw [← hvalid, Settings.validate]
  split
  next hin => exact .inl ⟨hin, rfl⟩
  next hout => exact .inr ⟨hout, _, rfl⟩

/-- A run fails with a status of its own, and with a fatal error. -/
theorem Arguments.exitCodeOf_creation (arguments : Arguments) (target : FileId)
    (opened : FileSystem) (elapsed : Duration) :
    (∃ report, (arguments.creation target opened elapsed).result = .ok report ∧
        exitCodeOf (arguments.creation target opened elapsed).result = 0) ∨
      ∃ e, (arguments.creation target opened elapsed).result = .error e ∧ e.isFatal = true ∧
        exitCodeOf (arguments.creation target opened elapsed).result = 70 := by
  cases hresult : (arguments.creation target opened elapsed).result with
  | ok report => exact .inl ⟨report, rfl, rfl⟩
  | error e =>
    obtain ⟨cause, rfl⟩ := Newc.createOn_error hresult
    exact .inr ⟨_, rfl, rfl, rfl⟩

/-- How far a run of the program comes, the status it ends with, and the files it leaves. -/
inductive Course (fs : FileSystem) (arguments : List Bytes) (elapsed : Duration) :
    Nat → FileSystem → Prop
  /-- The arguments are not understood. -/
  | misused {fault : Misuse} (hparse : Arguments.parse arguments = .error (.misuse fault)) :
      Course fs arguments elapsed 64 fs
  /-- The arguments ask for no archive. -/
  | informed {refusal : Refusal} (hparse : Arguments.parse arguments = .error refusal)
      (hmisuse : refusal.isMisuse = false) : Course fs arguments elapsed 0 fs
  /-- The buffer size is refused. -/
  | outOfRange {parsed : Arguments} (hparse : Arguments.parse arguments = .ok parsed)
      (hrange : ¬ parsed.InRange) : Course fs arguments elapsed 70 fs
  /-- The output cannot be created. -/
  | cannotOpen {parsed : Arguments} {cause : IoError}
      (hparse : Arguments.parse arguments = .ok parsed) (hrange : parsed.InRange)
      (hcreate : fs.createFile parsed.output = .error cause) : Course fs arguments elapsed 1 fs
  /-- The archive fails. -/
  | failed {parsed : Arguments} {target : FileId} {opened : FileSystem} {e : ArchiveError}
      (hparse : Arguments.parse arguments = .ok parsed) (hrange : parsed.InRange)
      (hcreate : fs.createFile parsed.output = .ok (target, opened))
      (hresult : (parsed.creation target opened elapsed).result = .error e)
      (hfatal : e.isFatal = true) :
      Course fs arguments elapsed 70 (parsed.creation target opened elapsed).destination.close
  /-- The archive succeeds. -/
  | succeeded {parsed : Arguments} {target : FileId} {opened : FileSystem} {report : Report}
      (hparse : Arguments.parse arguments = .ok parsed) (hrange : parsed.InRange)
      (hcreate : fs.createFile parsed.output = .ok (target, opened))
      (hresult : (parsed.creation target opened elapsed).result = .ok report) :
      Course fs arguments elapsed 0 (parsed.creation target opened elapsed).destination.close

/-- **The course of a run of the program.** -/
theorem run_course (fs : FileSystem) (arguments : List Bytes) (elapsed : Duration) :
    Course fs arguments elapsed (run fs arguments elapsed).exitCode
      (run fs arguments elapsed).files := by
  rw [run]
  cases hparse : Arguments.parse arguments with
  | error refusal =>
    cases refusal with
    | misuse fault => exact .misused hparse
    | help => exact .informed hparse rfl
    | version => exact .informed hparse rfl
  | ok parsed =>
    dsimp only [runWith]
    rcases parsed.validate_eq with ⟨hrange, hvalid⟩ | ⟨hrange, explanation, hinvalid⟩
    · cases hcreate : fs.createFile parsed.output with
      | error cause =>
        rw [createArchive, hvalid, DiskFile.create, hcreate]
        exact .cannotOpen hparse hrange hcreate
      | ok pair =>
        rw [createArchive_of_createFile hvalid hcreate rfl]
        dsimp only
        rcases parsed.exitCodeOf_creation pair.1 pair.2 elapsed with ⟨report, hresult, hcode⟩ |
          ⟨e, hresult, hfatal, hcode⟩
        · have hcourse := Course.succeeded hparse hrange hcreate hresult
          rwa [← hcode] at hcourse
        · have hcourse := Course.failed hparse hrange hcreate hresult hfatal
          rwa [← hcode] at hcourse
    · rw [createArchive, hinvalid]
      exact .outOfRange hparse hrange

/-! ## What each status says -/

namespace Course

variable {fs files : FileSystem} {arguments : List Bytes} {elapsed : Duration} {code : Nat}
variable (h : Course fs arguments elapsed code files)
include h

/-- There is no other status. -/
theorem code_cases : code = 64 ∨ code = 1 ∨ code = 70 ∨ code = 0 := by
  cases h <;> decide

/-- Only refused arguments end the program with the status for that. -/
theorem usage_iff :
    code = 64 ↔ ∃ fault, Arguments.parse arguments = .error (.misuse fault) := by
  cases h with
  | misused hparse => exact ⟨fun _ => ⟨_, hparse⟩, fun _ => rfl⟩
  | informed hparse hmisuse =>
    refine ⟨nofun, fun ⟨fault, hfault⟩ => ?_⟩
    cases hparse.symm.trans hfault
    cases hmisuse
  | outOfRange hparse hrange => simp [hparse]
  | cannotOpen hparse hrange hcreate => simp [hparse]
  | failed hparse hrange hcreate hresult hfatal => simp [hparse]
  | succeeded hparse hrange hcreate hresult => simp [hparse]

/-- Only an output that cannot be created ends the program with the status for that. -/
theorem cannotOpen_iff :
    code = 1 ↔ ∃ parsed cause, Arguments.parse arguments = .ok parsed ∧ parsed.InRange ∧
      fs.createFile parsed.output = .error cause := by
  cases h with
  | misused hparse => simp [hparse]
  | informed hparse hmisuse => simp [hparse]
  | outOfRange hparse hrange => simp [hparse, hrange]
  | cannotOpen hparse hrange hcreate => simp [hparse, hrange, hcreate]
  | failed hparse hrange hcreate hresult hfatal => simp [hparse, hcreate]
  | succeeded hparse hrange hcreate hresult => simp [hparse, hcreate]

/-- A buffer size that is refused and a run that fails end the program with the same status. -/
theorem incomplete_iff :
    code = 70 ↔ ∃ parsed, Arguments.parse arguments = .ok parsed ∧
      (¬ parsed.InRange ∨ parsed.InRange ∧ ∃ target opened e,
        fs.createFile parsed.output = .ok (target, opened) ∧
          (parsed.creation target opened elapsed).result = .error e ∧ e.isFatal = true) := by
  cases h with
  | misused hparse => simp [hparse]
  | informed hparse hmisuse => simp [hparse]
  | outOfRange hparse hrange => simp [hparse, hrange]
  | cannotOpen hparse hrange hcreate => simp [hparse, hrange, hcreate]
  | failed hparse hrange hcreate hresult hfatal =>
    simp [hparse, hrange, hcreate, hresult, hfatal]
  | succeeded hparse hrange hcreate hresult => simp [hparse, hrange, hcreate, hresult]

/-- As long as no buffer size was accepted, no file is touched. -/
theorem files_eq (hparsed : ∀ parsed, Arguments.parse arguments = .ok parsed → ¬ parsed.InRange) :
    files = fs := by
  cases h with
  | misused | informed | outOfRange | cannotOpen => rfl
  | failed hparse hrange => exact absurd hrange (hparsed _ hparse)
  | succeeded hparse hrange => exact absurd hrange (hparsed _ hparse)

/-- A run that ends with status 0 once its output is opened is one that succeeds, and its files are
those it leaves. -/
theorem of_zero {parsed : Arguments} {target : FileId} {opened : FileSystem}
    (hparse : Arguments.parse arguments = .ok parsed)
    (hcreate : fs.createFile parsed.output = .ok (target, opened)) (hzero : code = 0) :
    (∃ report, (parsed.creation target opened elapsed).result = .ok report) ∧
      files = (parsed.creation target opened elapsed).destination.close := by
  cases h with
  | misused | outOfRange | cannotOpen | failed => cases hzero
  | informed hrefused => cases hparse.symm.trans hrefused
  | succeeded hparse' _ hcreate' hresult =>
    cases hparse.symm.trans hparse'
    cases hcreate.symm.trans hcreate'
    exact ⟨⟨_, hresult⟩, rfl⟩

end Course

/-- **What each exit status says.**  It is 64 if and only if the arguments are not understood; 1 if
and only if they are, the buffer size is in range, and the output cannot be created; 70 if and only
if the buffer size is out of range or, once the output is opened, a fatal error ends the run; and 0
otherwise.  As long as the arguments do not lead to an accepted buffer size, no file is touched.  If
the status is 0 after a run whose output is a regular file, this file ends with the trailer and has
the length that the report states.

The last part does not depend on how files take what is written to them: on every destination that
keeps what it accepts, whichever writes it refuses, a run that would end with status 0 has left the
trailer at the end and as many bytes as it reports, and a flush that succeeded behind them. -/
theorem exit_status (fs : FileSystem) (arguments : List Bytes) (elapsed : Duration) :
    let program := run fs arguments elapsed
    (program.exitCode = 64 ∨ program.exitCode = 1 ∨ program.exitCode = 70 ∨
        program.exitCode = 0) ∧
      (program.exitCode = 64 ↔
        ∃ fault, Arguments.parse arguments = .error (.misuse fault)) ∧
      (program.exitCode = 1 ↔ ∃ parsed cause, Arguments.parse arguments = .ok parsed ∧
        parsed.InRange ∧ fs.createFile parsed.output = .error cause) ∧
      (program.exitCode = 70 ↔ ∃ parsed, Arguments.parse arguments = .ok parsed ∧
        (¬ parsed.InRange ∨ parsed.InRange ∧ ∃ target opened e,
          fs.createFile parsed.output = .ok (target, opened) ∧
            (parsed.creation target opened elapsed).result = .error e ∧ e.isFatal = true)) ∧
      ((∀ parsed, Arguments.parse arguments = .ok parsed → ¬ parsed.InRange) →
        program.files = fs) ∧
      (∀ parsed target opened node, Arguments.parse arguments = .ok parsed →
        fs.createFile parsed.output = .ok (target, opened) →
        opened.node? target = some node → node.kind = .regular → program.exitCode = 0 →
        ∃ report archive, (parsed.creation target opened elapsed).result = .ok report ∧
          program.files.node? target = some (.file archive) ∧
          trailerRecord <:+ archive.toBytes ∧ archive.toBytes.length = report.bytesWritten ∧
          (opened.find true parsed.output = .ok target →
            program.files.contentAt? parsed.output = some archive.toBytes)) ∧
      ∀ {δ ε ς : Type} [Destination δ ε] [Source ε ς] {good : δ → Prop} {held : δ → Bytes},
        Faithful good held → ∀ d, good d → ∀ bufferSize (inputs : List (Input ε ς)),
          let creation := createOn (Newc.writer (Metered ς) bufferSize d) inputs elapsed
          exitCodeOf creation.result = 0 →
            ∃ report content last, creation.result = .ok report ∧
              held creation.destination = held d ++ (content ++ trailerRecord) ∧
              report.bytesWritten = (content ++ trailerRecord).length ∧
              good last ∧ Destination.flush last = (.ok (), creation.destination) := by
  intro program
  have hcourse := run_course fs arguments elapsed
  refine ⟨hcourse.code_cases, hcourse.usage_iff, hcourse.cannotOpen_iff, hcourse.incomplete_iff,
    hcourse.files_eq, ?_, ?_⟩
  · intro parsed target opened node hparse hcreate hnode hregular hzero
    obtain ⟨⟨report, hresult⟩, hfiles⟩ := hcourse.of_zero hparse hcreate hzero
    obtain ⟨archive, harchive, htrailer, hlength, hbecomes⟩ :=
      archive_of_success (FileSystem.createFile_spec hcreate) hnode hregular rfl hresult
    rw [hfiles]
    refine ⟨report, archive, hresult, harchive, htrailer, hlength, fun hfind => ?_⟩
    have hfound := hbecomes.find hnode (.inl rfl) (FileSystem.locate_of_find hfind)
    rw [FileSystem.contentAt?, Arguments.creation, hfound]
    dsimp only
    rw [harchive]
  · intro δ ε ς _ _ good held F d hd bufferSize inputs creation hzero
    cases hresult : creation.result with
    | error e =>
      obtain ⟨cause, rfl⟩ := Newc.createOn_error hresult
      rw [hresult] at hzero
      cases hzero
    | ok report =>
      obtain ⟨content, last, hheld, hwritten, hlast, hflush⟩ := F.createOn_flushed hd hresult
      exact ⟨report, content, last, rfl, hheld, hwritten, hlast, hflush⟩

/-- One file is archived into a new file beside it. -/
theorem exit_status_single :
    let program := run (.holding [97] [1, 2, 3]) [[98], [97]] .zero
    program.exitCode = 0 ∧ ∃ archive, program.files.node? 2 = some (.file archive) ∧
      program.files.contentAt? [98] = some archive.toBytes ∧ trailerRecord <:+ archive.toBytes := by
  intro program
  let parsed : Arguments := ⟨[98], [[97]], false, false, false, none, false⟩
  let opened : FileSystem :=
    ⟨#[⟨.directory [([97], 1), ([98], 2)], 0o755⟩, ⟨.file (.ofBytes [1, 2, 3]), 0o644⟩,
      ⟨.file .empty, 0o644⟩], []⟩
  have hparse : Arguments.parse [[98], [97]] = .ok parsed := by decide +kernel
  have hcreate : (FileSystem.holding [97] [1, 2, 3]).createFile parsed.output =
      .ok (2, opened) := by
    set_option maxRecDepth 100000 in cbv
  have hzero : program.exitCode = 0 := by
    have hvalid : parsed.settings.validate = .ok () := rfl
    obtain ⟨report, hresult⟩ : ∃ report, (createArchive (.holding [97] [1, 2, 3]) parsed.output
        parsed.files parsed.settings .zero).result = .ok report :=
      (createArchive_ok hcreate rfl hvalid).imp fun _ h => h.1
    dsimp only [program]
    rw [run, hparse]
    exact congrArg exitCodeOf hresult
  have hfind : opened.find true parsed.output = .ok 2 := by
    set_option maxRecDepth 100000 in cbv
  obtain ⟨-, -, -, -, -, harchived, -⟩ :=
    exit_status (.holding [97] [1, 2, 3]) [[98], [97]] .zero
  obtain ⟨report, archive, -, harchive, htrailer, -, hcontent⟩ :=
    harchived parsed 2 opened (.file .empty) hparse hcreate rfl rfl hzero
  exact ⟨hzero, archive, harchive, hcontent hfind, htrailer⟩

end CommandLine

end CpioArchive
