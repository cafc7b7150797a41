import CpioArchive.Proofs.Files
import CpioArchive.Proofs.Reading
import CpioArchive.Proofs.Runs
import CpioArchive.Proofs.Sinks

/-!
# Clean runs

A run over files that do not change meanwhile, whose report is clean, left an archive with one
entry for each path.  Whether the archive can be read hangs on one thing more: the encoder takes
any name, and also that of the trailer.

* `FileSystem.archived?` — the entry that a path is to become;
* `clean_run_reads_back` — the archive of a clean run gives these entries back if no path ends in
  the name of the trailer, and cannot be read if one does;
* `clean_run_unreadable` — such a run exists;
* `Reliable.isClean_of_archivable` — on a reliable destination, stored files make a clean run.
-/

namespace CpioArchive

open Newc

namespace FileSystem

/-- The entry that a path is to become: the name at the end of the path, the mode and the content
of the file, one link, and nothing else. -/
def archived? (fs : FileSystem) (settings : Settings) (path : Bytes) : Option Entry := do
  let name ← Path.fileName? path
  let resolved ← (fs.resolve settings path).toOption
  let node ← fs.node? resolved.content.id
  let content ← node.bytes?
  return {
    header :=
      { inode := 0, mode := resolved.status.mode, uid := 0, gid := 0, linkCount := 1,
        modificationTime := 0, contentSize := content.length, deviceMajor := 0, deviceMinor := 0,
        specialMajor := 0, specialMinor := 0, name }
    content }

/-- The path leads to the same file in both file systems, and the file is the same in both. -/
structure Keeps (fs now : FileSystem) (settings : Settings) (path : Bytes) : Prop where
  resolve : now.resolve settings path = fs.resolve settings path
  node : ∀ resolved, fs.resolve settings path = .ok resolved →
    now.node? resolved.content.id = fs.node? resolved.content.id

/-- All the paths lead to the same files, and the files are the same. -/
def KeepsAll (fs : FileSystem) (settings : Settings) (paths : List Bytes) (now : FileSystem) :
    Prop :=
  ∀ path ∈ paths, fs.Keeps now settings path

/-- The path leads to a stored file for which a header can be written. -/
def IsArchivable (fs : FileSystem) (settings : Settings) (path : Bytes) : Prop :=
  ∃ resolved content, fs.resolve settings path = .ok resolved ∧
    fs.node? resolved.content.id = some (.file content) ∧
    (Header.ofMetadata resolved.name resolved.status.normalize).IsWritable

variable {fs : FileSystem} {settings : Settings} {path : Bytes}

theorem archived?_eq {resolved : Resolved OpenFile} {node : Node} {content : Bytes}
    (hresolve : fs.resolve settings path = .ok resolved)
    (hnode : fs.node? resolved.content.id = some node) (hcontent : node.bytes? = some content) :
    fs.archived? settings path =
      some ⟨⟨0, resolved.status.mode, 0, 0, 1, 0, content.length, 0, 0, 0, 0, resolved.name⟩,
        content⟩ := by
  rw [archived?, (resolve_spec hresolve).name, hresolve]
  simp only [Except.toOption, Option.bind_eq_bind, Option.bind_some, hnode, hcontent,
    Option.pure_def]

/-- An entry is called what the path ends in, and is a regular file. -/
theorem of_archived?_eq_some {entry : Entry} (h : fs.archived? settings path = some entry) :
    Path.fileName? path = some entry.header.name ∧
      FileKind.ofMode entry.header.mode = .regular := by
  simp only [archived?, Option.bind_eq_bind, Option.bind_eq_some_iff, Option.pure_def] at h
  obtain ⟨name, hname, resolved, hresolved, node, -, content, -, hentry⟩ := h
  cases hresolve : fs.resolve settings path with
  | error reason =>
    rw [hresolve] at hresolved
    cases hresolved
  | ok found =>
    rw [hresolve] at hresolved
    cases hresolved
    cases hentry
    exact ⟨hname, (resolve_spec hresolve).kind⟩

/-- **What a path gives a clean run** is the entry that it is to become. -/
theorem entry_of_contributes {seen : FileSystem → Prop}
    (hunchanged : ∀ now, seen now → fs.Keeps now settings path) {record : Record}
    (h : Contributes seen ⟨path, fun now => now.resolve settings path⟩ (some record))
    (hintact : record.IsIntact) : fs.archived? settings path = some record.entry := by
  cases h with
  | @recorded now resolved header bytes ending hseen hresolve hheader hdelivers =>
    have hkept : fs.resolve settings path = .ok resolved :=
      (hunchanged now hseen).resolve.symm.trans hresolve
    obtain ⟨-, hoffset, -, node, hnode, -⟩ := resolve_spec hkept
    have hsame : ∀ later, seen later → later.node? resolved.content.id = some node :=
      fun later hlater => by rw [(hunchanged later hlater).node resolved hkept, hnode]
    obtain ⟨hlength, rfl⟩ := hintact
    have hcontent := hdelivers.openFile_whole hoffset hsame
    rw [archived?_eq hkept hnode hcontent, Record.entry, Record.body_of_isIntact ⟨hlength, rfl⟩,
      hlength]
    rfl

/-- A stored file contributes an intact record. -/
theorem IsArchivable.isIntact {seen : FileSystem → Prop} (h : fs.IsArchivable settings path)
    (hunchanged : ∀ now, seen now → fs.Keeps now settings path) {contribution : Option Record}
    (hcontributes :
      Contributes seen ⟨path, fun now => now.resolve settings path⟩ contribution) :
    ∃ record, contribution = some record ∧ record.IsIntact := by
  obtain ⟨resolved, content, hresolve, hnode, hwritable⟩ := h
  cases hcontributes with
  | @passedOver now reason hseen hother =>
    have hkept : fs.resolve settings path = .error reason :=
      (hunchanged now hseen).resolve.symm.trans hother
    rw [hresolve] at hkept
    cases hkept
  | @refused now found e hseen hother hheader =>
    have hkept : fs.resolve settings path = .ok found :=
      (hunchanged now hseen).resolve.symm.trans hother
    rw [hresolve] at hkept
    cases hkept
    rw [hwritable.encode] at hheader
    cases hheader
  | @recorded now found header bytes ending hseen hother hheader hdelivers =>
    have hkept : fs.resolve settings path = .ok found :=
      (hunchanged now hseen).resolve.symm.trans hother
    rw [hresolve] at hkept
    cases hkept
    have hsame : ∀ later, seen later →
        later.node? resolved.content.id = some (.file content) :=
      fun later hlater => by rw [(hunchanged later hlater).node resolved hresolve, hnode]
    obtain ⟨-, hoffset, -, node, hnode', hsize⟩ := resolve_spec hresolve
    obtain rfl : node = .file content := Option.some.inj (hnode'.symm.trans hnode)
    obtain rfl := hdelivers.ended_of_file hsame
    obtain rfl := Option.some.inj (hdelivers.openFile_whole hoffset hsame)
    refine ⟨_, rfl, ?_, rfl⟩
    dsimp only
    rw [content.length_toBytes]
    exact hsize.symm

theorem keepsAll_self (paths : List Bytes) : fs.KeepsAll settings paths fs :=
  fun _ _ => ⟨rfl, fun _ _ => rfl⟩

/-! ### A single file -/

/-- A file system with one file, in the root directory. -/
def holding (name content : Bytes) : FileSystem :=
  ⟨#[⟨.directory [(name, 1)], 0o755⟩, ⟨.file (.ofBytes content), 0o644⟩], []⟩

/-- A name that is a path on its own. -/
structure IsPlain (name : Bytes) : Prop where
  components : Path.components name = [.named name]
  fileName? : Path.fileName? name = some name
  nul_not_mem : nul ∉ name
  length_le : name.length ≤ longestName

theorem IsPlain.ne_nil {name : Bytes} (h : IsPlain name) : name ≠ [] := by
  rintro rfl
  cases h.fileName?

theorem find_holding {name : Bytes} (h : IsPlain name) (content : Bytes) :
    (holding name content).find true name = .ok 1 := by
  have hlength := h.length_le
  have hshort : ¬ longestPath < name.length := by
    rw [longestName] at hlength
    rw [longestPath]
    omega
  have hmember : (holding name content).member? root name = some 1 := by
    change List.lookup name [(name, 1)] = some 1
    rw [List.lookup_cons_self]
  have hfollow : (holding name content).follow ⟨true, false⟩ mostSymlinks [] [.named name] =
      .ok (.present 1) := by
    rw [follow]
    dsimp only [List.headD]
    rw [if_neg (fun hcreating => Bool.false_ne_true hcreating.1), if_neg (Nat.not_lt.2 hlength),
      hmember]
    rfl
  rw [find, locate, if_neg h.nul_not_mem, if_neg h.ne_nil, if_neg hshort, h.components,
    show (holding name content).workingDirectory = [] from rfl, ite_self, hfollow]

theorem isArchivable_holding {name content : Bytes} (h : IsPlain name)
    (hcontent : content.length ≤ Field.largest) :
    (holding name content).IsArchivable {} name := by
  have hopen : (holding name content).lookup.openFile true name = .ok ⟨1, 0⟩ := by
    change (holding name content).openForReading true name = _
    rw [openForReading, find_holding h]
    rfl
  have hresolve : (holding name content).resolve {} name =
      .ok ⟨name, name, ⟨content.toArray.size, 8 * 4096 + 0o644, 0, 0, 0, 1, 0, 1, 0, 0, 0⟩,
        ⟨1, 0⟩⟩ := by
    rw [resolve, Resolved.ofPath, Resolved.ofPathAcross, h.fileName?]
    dsimp only [Resolved.refuseSymlink]
    rw [if_pos rfl]
    dsimp only
    rw [hopen]
    exact if_pos (show FileKind.ofMode (8 * 4096 + 0o644) = .regular by decide)
  have hlength := h.length_le
  refine ⟨_, .ofBytes content, hresolve, rfl, h.ne_nil, ?_, ?_⟩
  · rw [longestName] at hlength
    rw [Newc.longestName, Field.largest]
    change name.length ≤ _
    omega
  · rw [Header.Fits]
    simp only [Header.fields, Header.ofMetadata, Status.normalize, Metadata.bare,
      List.forall_mem_cons, List.size_toArray, List.not_mem_nil, false_implies, implies_true,
      and_true, Option.getD_none]
    exact ⟨by decide, by decide, by decide, by decide, by decide, by decide, hcontent,
      by decide, by decide, by decide, by decide⟩

theorem isPlain_trailerName : IsPlain trailerName where
  components := by decide
  fileName? := by decide
  nul_not_mem := by decide
  length_le := by decide

end FileSystem

section Runs

variable {δ : Type} [Destination δ FileSystem] {good : δ → Prop} {held : δ → Bytes}
variable {fs : FileSystem} {settings : Settings} {paths : List Bytes}

/-- **All visits clean**: one record for each input, intact and contributed by it. -/
theorem Accounts.forall₂_of_isClean {ε ς : Type} [Source ε ς] {seen : ε → Prop}
    {inputs : List (Input ε ς)} {visits : List Visit} {records : List Record}
    (h : Accounts seen inputs visits records) (hclean : ∀ visit ∈ visits, visit.IsClean) :
    List.Forall₂
      (fun input record => Contributes seen input (some record) ∧ record.IsIntact)
      inputs records := by
  induction h with
  | nil => exact .nil
  | blank _ hvisit _ _ => exact absurd (hclean _ (.head _)).skipText? hvisit.skipText?
  | recorded hinput hvisit _ ih =>
    have hintact := Record.isIntact_of_isClean (hclean _ (.head _)) hvisit
    exact .cons ⟨hinput, hintact⟩ (ih fun visit hmem => hclean visit (.tail _ hmem))

/-- Each record is then the entry that its path is to become, if the files did not change. -/
theorem Accounts.entries_eq {seen : FileSystem → Prop}
    (hunchanged : ∀ now, seen now → fs.KeepsAll settings paths now)
    {visits : List Visit} {records : List Record}
    (h : Accounts seen (FileSystem.inputs settings paths) visits records)
    (hclean : ∀ visit ∈ visits, visit.IsClean) :
    (records.map Record.entry).map some = paths.map (fs.archived? settings) := by
  have hrecords := h.forall₂_of_isClean hclean
  rw [FileSystem.inputs, List.forall₂_map_left_iff] at hrecords
  clear h
  induction hrecords with
  | nil => rfl
  | @cons path record paths records hrecord _ ih =>
    have hpath : ∀ now, seen now → fs.Keeps now settings path :=
      fun now hnow => hunchanged now hnow path (.head _)
    have hrest : ∀ now, seen now → fs.KeepsAll settings paths now :=
      fun now hnow other hmem => hunchanged now hnow other (.tail _ hmem)
    rw [List.map_cons, List.map_cons, List.map_cons, ih hrest,
      FileSystem.entry_of_contributes hpath hrecord.1 hrecord.2]

/-- Inputs that all contribute intact records make clean visits. -/
theorem Accounts.isClean {ε ς : Type} [Source ε ς] {seen : ε → Prop} {inputs : List (Input ε ς)}
    {visits : List Visit} {records : List Record} (h : Accounts seen inputs visits records)
    (hinputs : ∀ input ∈ inputs, ∀ contribution, Contributes seen input contribution →
      ∃ record, contribution = some record ∧ record.IsIntact) :
    ∀ visit ∈ visits, visit.IsClean := by
  induction h with
  | nil => exact nofun
  | blank hinput _ _ _ =>
    obtain ⟨record, hrecord, -⟩ := hinputs _ (.head _) _ hinput
    cases hrecord
  | recorded hinput hvisit _ ih =>
    obtain ⟨record, hrecord, hintact⟩ := hinputs _ (.head _) _ hinput
    obtain rfl := Option.some.inj hrecord
    refine List.forall_mem_cons.2 ⟨Record.isClean_of_isIntact hintact hvisit, ?_⟩
    exact ih fun input hmem => hinputs input (.tail _ hmem)

/-- Entries that are those of the paths are so one by one. -/
theorem exists_archived? {entries : List Entry}
    (h : entries.map some = paths.map (fs.archived? settings)) :
    (∀ entry ∈ entries, ∃ path ∈ paths, fs.archived? settings path = some entry) ∧
      ∀ path ∈ paths, ∃ entry ∈ entries, fs.archived? settings path = some entry := by
  constructor
  · intro entry hentry
    have hmem : some entry ∈ entries.map some := List.mem_map_of_mem hentry
    rw [h, List.mem_map] at hmem
    exact hmem
  · intro path hpath
    have hmem : fs.archived? settings path ∈ paths.map (fs.archived? settings) :=
      List.mem_map_of_mem hpath
    rw [← h, List.mem_map] at hmem
    obtain ⟨entry, hentry, heq⟩ := hmem
    exact ⟨entry, hentry, heq.symm⟩

/-- What a clean run leaves behind: one record for each path, and the trailer. -/
theorem Faithful.clean_run (F : Faithful good held)
    (hunchanged : ∀ {d : δ}, good d → fs.KeepsAll settings paths (Destination.environment d))
    {d : δ} (hd : good d) {bufferSize : Nat} {elapsed : Duration} {report : Report}
    {creation : Creation δ}
    (hcreation : CpioArchive.createOn (Newc.writer (Metered OpenFile) bufferSize d)
      (FileSystem.inputs settings paths) elapsed = creation)
    (hresult : creation.result = .ok report) (hclean : report.isClean = true) :
    ∃ records : List Record, (∀ record ∈ records, record.header.IsWritable) ∧
      (records.map Record.entry).map some = paths.map (fs.archived? settings) ∧
      held creation.destination =
        held d ++ ((records.map Record.bytes).flatten ++ trailerRecord) := by
  obtain ⟨hvisits, records, haccounts, hheld⟩ :=
    F.accounts_of_clean hunchanged hd hcreation hresult hclean
  exact ⟨records, haccounts.isWritable, haccounts.entries_eq (fun _ hnow => hnow) hvisits, hheld⟩

/-- **Stored files make a clean run** on a reliable destination. -/
theorem Reliable.isClean_of_archivable (R : Reliable good held)
    (hunchanged : ∀ {d : δ}, good d → fs.KeepsAll settings paths (Destination.environment d))
    {d : δ} (hd : good d) (hpaths : ∀ path ∈ paths, fs.IsArchivable settings path)
    (bufferSize : Nat) (elapsed : Duration) :
    ∃ report, (createOn (Newc.writer (Metered OpenFile) bufferSize d)
        (FileSystem.inputs settings paths) elapsed).result = .ok report ∧
      report.isClean = true := by
  obtain ⟨report, hresult, hpadded⟩ :=
    R.createOn_ok hd bufferSize (FileSystem.inputs settings paths) elapsed
  obtain ⟨records, haccounts, -, hreport⟩ :=
    R.toFaithful.createOn hunchanged hd rfl hresult hpadded
  refine ⟨report, hresult, ?_⟩
  rw [hreport, Report.isClean_ofVisits]
  refine haccounts.isClean ?_
  rw [FileSystem.inputs, List.forall_mem_map]
  intro path hpath contribution hcontributes
  exact (hpaths path hpath).isIntact (fun now hnow => hnow path hpath) hcontributes

/-- A path that ends in the name of the trailer spoils the archive of a clean run. -/
theorem readArchive_of_trailerName {records : List Record}
    (hwritable : ∀ record ∈ records, record.header.IsWritable)
    (hentries : (records.map Record.entry).map some = paths.map (fs.archived? settings))
    {path : Bytes} (hpath : path ∈ paths) (hname : Path.fileName? path = some trailerName) :
    ∃ e, readArchive ((records.map Record.bytes).flatten ++ trailerRecord) = .error e := by
  obtain ⟨entry, hentry, harchived⟩ := (exists_archived? hentries).2 path hpath
  obtain ⟨record, hrecord, rfl⟩ := List.mem_map.1 hentry
  refine Record.readEntries_trailerName hwritable ⟨record, hrecord, ?_⟩ rfl
  rw [(FileSystem.of_archived?_eq_some harchived).1] at hname
  exact Option.some.inj hname

/-- **The archive of a clean run gives back one entry for each path**, in order, if no path ends
in the name of the trailer.  If one does, the archive cannot be read, although the report is
clean. -/
theorem clean_run_reads_back (F : Faithful good held) (fs : FileSystem) (settings : Settings)
    (paths : List Bytes)
    (hunchanged : ∀ {d : δ}, good d → fs.KeepsAll settings paths (Destination.environment d))
    {d : δ} (hd : good d) (bufferSize : Nat) (elapsed : Duration) {report : Report}
    (hresult : (createOn (Newc.writer (Metered OpenFile) bufferSize d)
      (FileSystem.inputs settings paths) elapsed).result = .ok report)
    (hclean : report.isClean = true) :
    ∃ archive,
      held (createOn (Newc.writer (Metered OpenFile) bufferSize d)
        (FileSystem.inputs settings paths) elapsed).destination = held d ++ archive ∧
      ((∀ path ∈ paths, Path.fileName? path ≠ some trailerName) →
        ∃ entries, readArchive archive = .ok entries ∧
          entries.map some = paths.map (fs.archived? settings) ∧
          ∀ entry ∈ entries, FileKind.ofMode entry.header.mode = .regular) ∧
      ((∃ path ∈ paths, Path.fileName? path = some trailerName) →
        ∃ e, readArchive archive = .error e) := by
  obtain ⟨records, hwritable, hentries, hheld⟩ := F.clean_run hunchanged hd rfl hresult hclean
  have hmem := (exists_archived? hentries).1
  refine ⟨_, hheld, ?_, ?_⟩
  · intro hnames
    refine ⟨records.map Record.entry, ?_, hentries, ?_⟩
    · refine Record.readEntries_records hwritable (fun record hrecord hname => ?_) rfl
      obtain ⟨path, hpath, harchived⟩ := hmem record.entry (List.mem_map_of_mem hrecord)
      refine hnames path hpath ?_
      rw [(FileSystem.of_archived?_eq_some harchived).1]
      exact congrArg some hname
    · intro entry hentry
      obtain ⟨path, -, harchived⟩ := hmem entry hentry
      exact (FileSystem.of_archived?_eq_some harchived).2
  · intro ⟨path, hpath, hname⟩
    exact readArchive_of_trailerName hwritable hentries hpath hname

/-- Surroundings that are a file system keep all paths as they are. -/
theorem keepsAll_of_surrounded {δ φ : Type} [Destination δ φ] {good : δ → Prop}
    {d : Surrounded δ FileSystem} (hd : Surrounded.Keeps good fs d) :
    fs.KeepsAll settings paths (Destination.environment d) := by
  rw [show Destination.environment d = d.surroundings from rfl, hd.2]
  exact FileSystem.keepsAll_self paths

/-- One file with three bytes: a clean run that can be read back. -/
theorem clean_run_reads_back_single :
    let fs : FileSystem := .holding [97] [1, 2, 3]
    let creation := createOn (Newc.writer (Metered OpenFile) 512 (⟨Sink.empty, fs⟩ : Surrounded ..))
      (FileSystem.inputs {} [[97]]) .zero
    ∃ report entry, creation.result = .ok report ∧ report.isClean = true ∧
      readArchive creation.destination.destination.data.toList = .ok [entry] ∧
      fs.archived? {} [97] = some entry := by
  intro fs creation
  have hgood : Surrounded.Keeps Sink.Unlimited fs ⟨Sink.empty, fs⟩ :=
    ⟨Sink.unlimited_empty, rfl⟩
  have R := Sink.reliable.surrounded fs
  have hplain : FileSystem.IsPlain [97] :=
    ⟨by decide, by decide, by decide, by decide⟩
  have hpaths : ∀ path ∈ [[97]], fs.IsArchivable {} path :=
    List.forall_mem_singleton.2 (FileSystem.isArchivable_holding hplain (by decide))
  obtain ⟨report, hresult, hclean⟩ :=
    R.isClean_of_archivable keepsAll_of_surrounded hgood hpaths 512 .zero
  obtain ⟨archive, harchive, hread, -⟩ :=
    clean_run_reads_back R.toFaithful fs {} [[97]] keepsAll_of_surrounded hgood 512 .zero hresult
      hclean
  obtain ⟨entries, hentries, harchived, -⟩ := hread (by decide)
  obtain ⟨entry, rfl, hentry⟩ := List.map_eq_singleton_iff.1 harchived
  refine ⟨report, entry, hresult, hclean, ?_, hentry.symm⟩
  rw [harchive]
  exact hentries

/-- **A clean run whose archive cannot be read**: its only file has the name of the trailer. -/
theorem clean_run_unreadable :
    let fs : FileSystem := .holding trailerName [1, 2, 3]
    let creation := createOn (Newc.writer (Metered OpenFile) 512 (⟨Sink.empty, fs⟩ : Surrounded ..))
      (FileSystem.inputs {} [trailerName]) .zero
    ∃ report e, creation.result = .ok report ∧ report.isClean = true ∧
      readArchive creation.destination.destination.data.toList = .error e := by
  intro fs creation
  have hgood : Surrounded.Keeps Sink.Unlimited fs ⟨Sink.empty, fs⟩ :=
    ⟨Sink.unlimited_empty, rfl⟩
  have R := Sink.reliable.surrounded fs
  have hpaths : ∀ path ∈ [trailerName], fs.IsArchivable {} path :=
    List.forall_mem_singleton.2
      (FileSystem.isArchivable_holding FileSystem.isPlain_trailerName (by decide))
  obtain ⟨report, hresult, hclean⟩ :=
    R.isClean_of_archivable keepsAll_of_surrounded hgood hpaths 512 .zero
  obtain ⟨records, hwritable, hentries, hheld⟩ :=
    R.toFaithful.clean_run keepsAll_of_surrounded hgood rfl hresult hclean
  obtain ⟨e, he⟩ := readArchive_of_trailerName hwritable hentries (.head _)
    FileSystem.isPlain_trailerName.fileName?
  refine ⟨report, e, hresult, hclean, ?_⟩
  rw [hheld]
  exact he

end Runs

end CpioArchive
