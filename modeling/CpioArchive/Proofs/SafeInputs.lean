import Mathlib
import CpioArchive.Proofs.CleanRuns
import CpioArchive.Proofs.DiskFiles

/-!
# What a run does to its inputs

The output is emptied before the first input is opened, and nobody asks whether it is one of them.
Every other file is safe.

* `node?_createArchive`, `contentAt?_createArchive` — no file is changed but the one that the output
  path leads to, and every other path keeps leading to the same bytes;
* `inputs_safe` — with that, the archive of a clean run holds what the other files held before it;
* `inputs_destroyed` — an input that is the output is lost, and the report is clean.
-/

namespace CpioArchive

open Newc

namespace FileSystem

variable {fs now : FileSystem} {settings : Settings} {path : Bytes} {target : FileId}

/-! ## Files that are read -/

/-- A path that can be opened leads to what is opened, symbolic links followed or not. -/
theorem find_of_openForReading {followLast : Bool} {file : OpenFile} {node : Node}
    (h : fs.openForReading followLast path = .ok file) (hnode : fs.node? file.id = some node) :
    fs.find true path = .ok file.id := by
  rw [openForReading] at h
  split at h
  · cases h
  next id hfind =>
    split at h
    · cases h
    · cases h
    next hlink _ =>
      cases h
      have hkind : node.kind ≠ .symlink := by
        cases node with
        | symlink link => exact absurd hnode (hlink link)
        | _ => exact fun h => FileKind.noConfusion h
      exact (Becomes.refl id fs).find hnode (.inr hkind) (locate_of_find hfind)

theorem find_of_resolve {resolved : Resolved OpenFile}
    (h : fs.resolve settings path = .ok resolved) :
    fs.find true path = .ok resolved.content.id := by
  obtain ⟨name, file, -, hopen, hopened⟩ := of_resolve_eq_ok h
  obtain ⟨-, rfl, -, node, hnode, -⟩ := of_ofOpened_eq_ok hopened
  exact find_of_openForReading hopen hnode

/-- The bytes of a path are those of a node that is no directory. -/
theorem of_contentAt?_eq_some {bytes : Bytes} (h : fs.contentAt? path = some bytes) :
    ∃ id node, fs.find true path = .ok id ∧ fs.node? id = some node ∧ node.bytes? = some bytes ∧
      node.kind ≠ .directory := by
  rw [contentAt?] at h
  split at h
  · cases h
  next id hfind =>
    split at h
    next content hnode => exact ⟨id, _, hfind, hnode, h, nofun⟩
    next made hnode => exact ⟨id, _, hfind, hnode, h, nofun⟩
    · cases h

/-- **What a path contributes while another file is written** is what it led to before. -/
theorem body_of_contributes {record : Record} {bytes : Bytes}
    (h : Contributes (Becomes target fs) ⟨path, fun now => now.resolve settings path⟩ (some record))
    (hintact : record.IsIntact) (hbytes : fs.contentAt? path = some bytes)
    (hother : ∀ id node, fs.node? id = some node → fs.find true path = .ok id → id ≠ target) :
    record.body = bytes := by
  cases h with
  | @recorded now resolved header delivered ending hnow hresolve hheader hdelivers =>
    obtain ⟨id, node, hfind, hnode, hcontent, hkind⟩ := of_contentAt?_eq_some hbytes
    have hlater := hnow.find hnode (.inl rfl) (locate_of_find hfind)
    obtain rfl : id = resolved.content.id :=
      Except.ok.inj (hlater.symm.trans (find_of_resolve hresolve))
    have hne := hother _ _ hnode hfind
    have hsame : ∀ later, Becomes target fs later →
        later.node? resolved.content.id = some node := by
      intro later hbecomes
      obtain ⟨node', hnode', hsurvives⟩ := hbecomes.node hnode
      rw [hnode', hsurvives.eq_of_not hne hkind]
    have hended : ending = .ended := hintact.2
    subst hended
    have hdelivered := hdelivers.openFile_whole (resolve_spec hresolve).offset hsame
    rw [Record.body_of_isIntact hintact]
    exact Option.some.inj (hdelivered.symm.trans hcontent)

/-- The name of what a path contributes is that at its end. -/
theorem name_of_contributes {seen : FileSystem → Prop} {record : Record}
    (h : Contributes seen ⟨path, fun now => now.resolve settings path⟩ (some record)) :
    Path.fileName? path = some record.name := by
  cases h with
  | recorded _ hresolve _ _ => exact (resolve_spec hresolve).name

end FileSystem

/-! ## Runs -/

section Runs

variable {fs : FileSystem} {output : Bytes} {sources : List Bytes} {settings : Settings}
variable {elapsed : Duration}

/-- The writer of a run whose output was opened. -/
def outputWriter (settings : Settings) (target : FileId) (opened : FileSystem) :
    Writer CopyBuffer DiskFile (Metered OpenFile) :=
  Newc.writer (Metered OpenFile) settings.bufferSize ⟨opened, target, 0, #[]⟩

/-- The creation of an archive fails before anything is changed, or its output can be opened. -/
theorem createArchive_cases (fs : FileSystem) (output : Bytes) (sources : List Bytes)
    (settings : Settings) (elapsed : Duration) :
    (∃ e, createArchive fs output sources settings elapsed = .refused fs e) ∨
      settings.validate = .ok () ∧
        ∃ target opened, fs.createFile output = .ok (target, opened) := by
  rw [createArchive]
  cases settings.validate with
  | error e => exact .inl ⟨e, rfl⟩
  | ok _ =>
    rw [DiskFile.create]
    cases fs.createFile output with
    | error cause => exact .inl ⟨_, rfl⟩
    | ok file => exact .inr ⟨rfl, file.1, file.2, rfl⟩

/-- Once its output is opened, the creation of an archive is a run. -/
theorem createArchive_of_createFile {target : FileId} {opened : FileSystem}
    {creation : Creation DiskFile} (hvalid : settings.validate = .ok ())
    (hcreate : fs.createFile output = .ok (target, opened))
    (hcreation : createOn (outputWriter settings target opened)
      (FileSystem.inputs settings sources) elapsed = creation) :
    createArchive fs output sources settings elapsed =
      ⟨creation.result, creation.events, creation.visits, creation.destination.close⟩ := by
  rw [createArchive, hvalid, DiskFile.create, hcreate, ← hcreation]
  rfl

/-! ## Other files -/

/-- A run changes nothing at all, or it changes its output and leaves everything else alone. -/
theorem files_createArchive (fs : FileSystem) (output : Bytes) (sources : List Bytes)
    (settings : Settings) (elapsed : Duration) :
    (createArchive fs output sources settings elapsed).files = fs ∨
      ∃ target opened, fs.createFile output = .ok (target, opened) ∧
        FileSystem.Becomes target fs
          (createArchive fs output sources settings elapsed).files := by
  rcases createArchive_cases fs output sources settings elapsed with ⟨e, hrun⟩ |
    ⟨hvalid, target, opened, hcreate⟩
  · rw [hrun]
    exact .inl rfl
  · have hwrites := (DiskFile.Writes.of_reaches (Newc.createOn_reaches settings.bufferSize
      ⟨opened, target, 0, #[]⟩ (FileSystem.inputs settings sources) elapsed)).trans
        (DiskFile.writes_settle _)
    rw [createArchive_of_createFile hvalid hcreate rfl]
    exact .inr ⟨target, opened, hcreate,
      (FileSystem.createFile_spec hcreate).becomes.trans hwrites.becomes⟩

/-- **A run changes no file but its output**, whatever comes of it. -/
theorem node?_createArchive {id : FileId} {node : Node} (hnode : fs.node? id = some node)
    (hkind : node.kind ≠ .directory) (houtput : fs.find true output ≠ .ok id) :
    (createArchive fs output sources settings elapsed).files.node? id = some node := by
  rcases files_createArchive fs output sources settings elapsed with hsame |
    ⟨target, opened, hcreate, hbecomes⟩
  · rw [hsame, hnode]
  · obtain ⟨later, hlater, hsurvives⟩ := hbecomes.node hnode
    have hne := (FileSystem.createFile_spec hcreate).ne hnode houtput
    rw [hlater, hsurvives.eq_of_not hne hkind]

/-- **Paths that do not lead to the output keep leading to the same bytes.** -/
theorem contentAt?_createArchive {path bytes : Bytes} (hbytes : fs.contentAt? path = some bytes)
    (houtput : fs.find true path ≠ fs.find true output) :
    (createArchive fs output sources settings elapsed).files.contentAt? path = some bytes := by
  obtain ⟨id, node, hfind, hnode, -, hkind⟩ := FileSystem.of_contentAt?_eq_some hbytes
  have hother : fs.find true output ≠ .ok id := fun h => houtput (hfind.trans h.symm)
  have hnode' : (createArchive fs output sources settings elapsed).files.node? id = some node :=
    node?_createArchive hnode hkind hother
  rcases files_createArchive fs output sources settings elapsed with hsame |
    ⟨target, opened, hcreate, hbecomes⟩
  · rw [hsame, hbytes]
  · have hfind' := hbecomes.find hnode (.inl rfl) (FileSystem.locate_of_find hfind)
    rw [FileSystem.contentAt?, hfind] at hbytes
    rw [FileSystem.contentAt?, hfind']
    dsimp only at hbytes ⊢
    rw [hnode']
    rwa [hnode] at hbytes

/-! ## The archive -/

section Stored

variable {target : FileId} {opened : FileSystem}
variable (hcreate : fs.createFile output = .ok (target, opened))
variable (hempty : opened.node? target = some (.file .empty))
include hcreate hempty

/-- **On a stored file every run succeeds**, and its visits decide whether it is clean. -/
theorem createArchive_ok (hvalid : settings.validate = .ok ()) :
    ∃ report, (createArchive fs output sources settings elapsed).result = .ok report ∧
      (report.isClean = true ↔
        ∀ visit ∈ (visitAll (outputWriter settings target opened)
          (FileSystem.inputs settings sources)).1, visit.IsClean) := by
  let start : DiskFile := ⟨opened, target, 0, #[]⟩
  have hstart : start.IsStored start := ⟨.refl start, .empty, hempty, rfl⟩
  obtain ⟨report, hresult, -⟩ := (DiskFile.reliable start).createOn_ok hstart settings.bufferSize
    (FileSystem.inputs settings sources) elapsed
  obtain ⟨visits, after, hvisits, -, -, bytesWritten, hreport⟩ := of_createOn_eq_ok hresult
  rw [createArchive_of_createFile hvalid hcreate rfl]
  refine ⟨report, hresult, ?_⟩
  rw [outputWriter, hvisits, hreport, Report.isClean_ofVisits]

/-- **The archive of a clean run** on a stored file: what the inputs contributed while the output
was written, and the trailer. -/
theorem archive_of_clean_run {report : Report}
    (hresult : (createArchive fs output sources settings elapsed).result = .ok report)
    (hclean : report.isClean = true) :
    ∃ archive visits records,
      (createArchive fs output sources settings elapsed).files.node? target =
          some (.file archive) ∧
        archive.toBytes = (records.map Record.bytes).flatten ++ trailerRecord ∧
        visits = (visitAll (outputWriter settings target opened)
          (FileSystem.inputs settings sources)).1 ∧
        (∀ visit ∈ visits, visit.IsClean) ∧
        Accounts (FileSystem.Becomes target fs) (FileSystem.inputs settings sources) visits
          records := by
  have hvalid : settings.validate = .ok () := by
    rcases createArchive_cases fs output sources settings elapsed with ⟨e, hrun⟩ | ⟨hvalid, -⟩
    · rw [hrun] at hresult
      cases hresult
    · exact hvalid
  rw [createArchive_of_createFile hvalid hcreate rfl] at hresult ⊢
  let start : DiskFile := ⟨opened, target, 0, #[]⟩
  have hholds : start.Holds .empty := ⟨hempty, rfl⟩
  have hstart : start.IsStored start := ⟨.refl start, .empty, hholds⟩
  have hheld : start.held = [] := hholds.held_eq.trans rfl
  have henvironment : ∀ {d : DiskFile}, start.IsStored d →
      FileSystem.Becomes target fs (Destination.environment d) :=
    fun hd => (FileSystem.createFile_spec hcreate).becomes.trans hd.writes.becomes
  have F := (DiskFile.reliable start).toFaithful
  obtain ⟨hvisits, records, haccounts, hafter⟩ :=
    F.accounts_of_clean henvironment hstart rfl hresult hclean
  have hreaches := Newc.createOn_reaches settings.bufferSize start
    (FileSystem.inputs settings sources) elapsed
  obtain ⟨archive, harchive, hbytes⟩ := (hreaches.good F hstart).close
  refine ⟨archive, _, records, harchive, ?_, (visits_createOn _ _ _).1, hvisits, haccounts⟩
  rw [hbytes, hafter, hheld, List.nil_append]

end Stored

/-- A name that no path ends in is the name of no record. -/
theorem name_ne_of_forall₂ {records : List Record} {name : Bytes}
    (h : List.Forall₂ (fun path record => Path.fileName? path = some record.name) sources records)
    (hnames : ∀ path ∈ sources, Path.fileName? path ≠ some name) :
    ∀ record ∈ records, record.name ≠ name := by
  induction h with
  | nil => exact nofun
  | cons hrecord _ ih =>
    obtain ⟨hname, hrest⟩ := List.forall_mem_cons.1 hnames
    refine List.forall_mem_cons.2 ⟨?_, ih hrest⟩
    rintro rfl
    exact hname hrecord

/-- **Inputs are safe unless they are the output.**  Whatever comes of a run, no file is changed but
the one that the output path leads to (a directory can gain the new output), and every other path to
a regular file keeps leading to the same bytes.  If the run succeeds with a clean report and the
output is a stored file, the archive has one record for each path, in order, with the name at the
end of the path; and if the path led to a file other than the output before the run, the record has
the bytes that this file held then. -/
theorem inputs_safe (fs : FileSystem) (output : Bytes) (sources : List Bytes) (settings : Settings)
    (elapsed : Duration) :
    let run := createArchive fs output sources settings elapsed
    (∀ id node, fs.node? id = some node → node.kind ≠ .directory →
        fs.find true output ≠ .ok id → run.files.node? id = some node) ∧
      (∀ path bytes, fs.contentAt? path = some bytes →
        fs.find true path ≠ fs.find true output → run.files.contentAt? path = some bytes) ∧
      ∀ report, run.result = .ok report → report.isClean = true →
        ∃ target opened, fs.createFile output = .ok (target, opened) ∧
          ∀ content, opened.node? target = some (.file content) →
            ∃ archive records, run.files.node? target = some (.file archive) ∧
              archive.toBytes = (records.map Record.bytes).flatten ++ trailerRecord ∧
              ((∀ path ∈ sources, Path.fileName? path ≠ some trailerName) →
                readArchive archive.toBytes = .ok (records.map Record.entry)) ∧
              List.Forall₂ (fun path record => Path.fileName? path = some record.name ∧
                  ∀ bytes, fs.contentAt? path = some bytes →
                    fs.find true path ≠ fs.find true output → record.body = bytes)
                sources records := by
  intro run
  refine ⟨fun id node => node?_createArchive, fun path bytes => contentAt?_createArchive,
    fun report hresult hclean => ?_⟩
  rcases createArchive_cases fs output sources settings elapsed with ⟨e, hrun⟩ |
    ⟨-, target, opened, hcreate⟩
  · rw [show run = .refused fs e from hrun] at hresult
    cases hresult
  · refine ⟨target, opened, hcreate, fun content hstored => ?_⟩
    have hopens := FileSystem.createFile_spec hcreate
    obtain rfl := hopens.empty content hstored
    obtain ⟨archive, visits, records, harchive, hbytes, -, hvisits, haccounts⟩ :=
      archive_of_clean_run hcreate hstored hresult hclean
    have hrecords := haccounts.forall₂_of_isClean hvisits
    rw [FileSystem.inputs, List.forall₂_map_left_iff] at hrecords
    have hnamed := hrecords.imp fun path record h => FileSystem.name_of_contributes h.1
    refine ⟨archive, records, harchive, hbytes, fun hnames => ?_, ?_⟩
    · rw [hbytes]
      exact Record.readEntries_records haccounts.isWritable (name_ne_of_forall₂ hnamed hnames) rfl
    · refine hrecords.imp fun path record hrecord => ⟨FileSystem.name_of_contributes hrecord.1, ?_⟩
      intro bytes hcontent hother
      refine FileSystem.body_of_contributes hrecord.1 hrecord.2 hcontent ?_
      intro id node hnode hfind
      exact hopens.ne hnode fun houtput => hother (hfind.trans houtput.symm)

/-- An archive of one file, in a new file beside it. -/
theorem inputs_safe_single :
    let run := createArchive (.holding [97] [1, 2, 3]) [98] [[97]] {} .zero
    run.files.node? 1 = some (.file (.ofBytes [1, 2, 3])) ∧
      ∃ (report : Report) (archive : FileContent) (record : Record),
        run.result = .ok report ∧ report.isClean = true ∧
          run.files.node? 2 = some (.file archive) ∧
          archive.toBytes = record.bytes ++ trailerRecord ∧ record.body = [1, 2, 3] := by
  intro run
  let opened : FileSystem :=
    ⟨#[⟨.directory [([97], 1), ([98], 2)], 0o755⟩, ⟨.file (.ofBytes [1, 2, 3]), 0o644⟩,
      ⟨.file .empty, 0o644⟩], []⟩
  have hcreate : (FileSystem.holding [97] [1, 2, 3]).createFile [98] = .ok (2, opened) := by
    set_option maxRecDepth 100000 in cbv
  have hvisits : (visitAll (outputWriter {} 2 opened) (FileSystem.inputs {} [[97]])).1 =
      [⟨[97], .attempted [3] 3 (.ok ⟨112, 3, 1⟩)⟩] := by
    set_option maxRecDepth 100000 in cbv
  have houtput : (FileSystem.holding [97] [1, 2, 3]).find true [98] = .error .noSuchFile := by
    set_option maxRecDepth 100000 in cbv
  have hcontent : (FileSystem.holding [97] [1, 2, 3]).contentAt? [97] = some [1, 2, 3] := by
    set_option maxRecDepth 100000 in cbv
  have hsource : (FileSystem.holding [97] [1, 2, 3]).find true [97] = .ok 1 := by
    set_option maxRecDepth 100000 in cbv
  obtain ⟨report, hresult, hiff⟩ : ∃ report, run.result = .ok report ∧ (report.isClean = true ↔
      ∀ visit ∈ (visitAll (outputWriter {} 2 opened) (FileSystem.inputs {} [[97]])).1,
        visit.IsClean) := createArchive_ok hcreate rfl rfl
  have hclean : report.isClean = true := by
    rw [hiff, hvisits]
    exact List.forall_mem_singleton.2 ⟨rfl, rfl, rfl⟩
  obtain ⟨hspared, -, harchived⟩ :=
    inputs_safe (.holding [97] [1, 2, 3]) [98] [[97]] {} .zero
  obtain ⟨target, opened', hcreate', hstored⟩ := harchived report hresult hclean
  obtain ⟨rfl, rfl⟩ : 2 = target ∧ opened = opened' :=
    Prod.mk.inj (Except.ok.inj (hcreate.symm.trans hcreate'))
  obtain ⟨archive, records, harchive, hbytes, -, hrecords⟩ := hstored _ rfl
  have hnew : (FileSystem.holding [97] [1, 2, 3]).find true [98] ≠ .ok 1 := by
    rw [houtput]
    intro h
    cases h
  have hother : (FileSystem.holding [97] [1, 2, 3]).find true [97] ≠
      (FileSystem.holding [97] [1, 2, 3]).find true [98] := by
    rw [hsource]
    exact hnew.symm
  refine ⟨hspared 1 _ rfl (by decide) hnew, report, archive, ?_⟩
  cases hrecords with
  | @cons _ record _ _ hrecord hnil =>
    cases hnil
    refine ⟨record, hresult, hclean, harchive, by simpa using hbytes, ?_⟩
    exact hrecord.2 _ hcontent hother

/-- **An input that is the output is lost.**  The file at the path is emptied and then archived;
what is left of it is an archive with an empty entry, and the report is clean. -/
theorem inputs_destroyed :
    let fs : FileSystem := .holding [97] [1, 2, 3]
    let run := createArchive fs [97] [[97]] {} .zero
    fs.find true [97] = .ok 1 ∧ fs.node? 1 = some (.file (.ofBytes [1, 2, 3])) ∧
      ∃ (report : Report) (archive : FileContent) (record : Record),
        run.result = .ok report ∧ report.isClean = true ∧
          run.files.node? 1 = some (.file archive) ∧ archive.toBytes ≠ [1, 2, 3] ∧
          archive.toBytes = record.bytes ++ trailerRecord ∧ record.body = [] := by
  intro fs run
  let opened : FileSystem :=
    ⟨#[⟨.directory [([97], 1)], 0o755⟩, ⟨.file .empty, 0o644⟩], []⟩
  have hcreate : fs.createFile [97] = .ok (1, opened) := by
    dsimp only [fs]
    set_option maxRecDepth 100000 in cbv
  have hvisits : (visitAll (outputWriter {} 1 opened) (FileSystem.inputs {} [[97]])).1 =
      [⟨[97], .attempted [] 0 (.ok ⟨112, 0, 0⟩)⟩] := by
    set_option maxRecDepth 100000 in cbv
  have hfind : fs.find true [97] = .ok 1 := by
    dsimp only [fs]
    set_option maxRecDepth 100000 in cbv
  obtain ⟨report, hresult, hiff⟩ : ∃ report, run.result = .ok report ∧ (report.isClean = true ↔
      ∀ visit ∈ (visitAll (outputWriter {} 1 opened) (FileSystem.inputs {} [[97]])).1,
        visit.IsClean) := createArchive_ok hcreate rfl rfl
  have hclean : report.isClean = true := by
    rw [hiff, hvisits]
    exact List.forall_mem_singleton.2 ⟨rfl, rfl, rfl⟩
  obtain ⟨archive, visits, records, harchive, hbytes, rfl, -, haccounts⟩ :=
    archive_of_clean_run hcreate rfl hresult hclean
  have hwhole : archive.toBytes ≠ [1, 2, 3] := by
    intro hsame
    have hlength := congrArg List.length (hbytes.symm.trans hsame)
    rw [List.length_append, show trailerRecord.length = 124 by decide +kernel] at hlength
    simp only [List.length_cons, List.length_nil] at hlength
    omega
  rw [show (visitAll (outputWriter {} 1 opened) (FileSystem.inputs {} [[97]])).1 = _ from hvisits]
    at haccounts
  cases haccounts with
  | blank _ hvisit _ => exact absurd rfl hvisit.skipText?
  | @recorded _ _ _ _ reads record _ _ hvisit hrest =>
    cases hrest
    have hsize : 0 = record.metadata.size := (Outcome.attempted.inj hvisit).2.1
    refine ⟨hfind, rfl, report, archive, record, hresult, hclean, harchive, hwhole,
      by simpa using hbytes, ?_⟩
    rw [Record.body, ← hsize, fitted_zero]

end Runs

end CpioArchive
