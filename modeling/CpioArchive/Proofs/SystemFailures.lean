import CpioArchive.Proofs.Reasons

/-!
# Failures of the operating system

The operating system reports a failure by its number, and the text of a number is one line.  On a
file system that keeps to this, every call fails plainly, whatever the paths are and whatever is
written, and so every reason of a run is one line.

* `FileSystem.ReportsNumbers` — such a file system, and that writing and creating files keep it so;
* `FileSystem.failsPlainly_lookup`, `DiskFile.failsPlainly` — how its paths and its files fail;
* `createArchive_plain` — every reason of a run is one line.
-/

namespace CpioArchive

/-! ## Nodes and paths -/

namespace FileSystem

/-- The system reports its failures by number: so does every file that it makes up. -/
def ReportsNumbers (fs : FileSystem) : Prop :=
  ∀ id made cause, fs.node? id = some (.generated made) → made.content = .error cause →
    ∃ number, cause = .system number

variable {fs : FileSystem}

/-- Files that are changed or added are not made up by the system. -/
theorem ReportsNumbers.modifyNode (h : fs.ReportsNumbers) (id : FileId) {change : Node → Node}
    (hchange : ∀ node made, change node = .generated made → node = .generated made) :
    (fs.modifyNode id change).ReportsNumbers := by
  intro other made cause hnode hcontent
  rw [node?_modifyNode] at hnode
  split at hnode
  · obtain ⟨node, hold, hnew⟩ := Option.map_eq_some_iff.1 hnode
    rw [hchange node made hnew] at hold
    exact h other made cause hold hcontent
  · exact h other made cause hnode hcontent

theorem ReportsNumbers.modifyContent (h : fs.ReportsNumbers) (id : FileId)
    (change : FileContent → FileContent) : (fs.modifyContent id change).ReportsNumbers := by
  refine h.modifyNode id fun node made hmade => ?_
  cases node <;> first | exact hmade | cases hmade

theorem ReportsNumbers.create (h : fs.ReportsNumbers) (directory : FileId) (name : Bytes)
    (content : FileContent) (permissions : Nat) :
    (fs.create directory name ⟨.file content, permissions⟩).2.ReportsNumbers := by
  have hpush : ReportsNumbers
      { fs with inodes := fs.inodes.push ⟨.file content, permissions⟩ } := by
    intro id made cause hnode hcontent
    rw [node?, Array.getElem?_push] at hnode
    split at hnode
    · cases hnode
    · exact h id made cause hnode hcontent
  refine hpush.modifyNode directory fun node made hmade => ?_
  cases node <;> first | exact hmade | cases hmade

theorem ReportsNumbers.createFile (h : fs.ReportsNumbers) {path : Bytes} {id : FileId}
    {opened : FileSystem} (hcreate : fs.createFile path = .ok (id, opened)) :
    opened.ReportsNumbers := by
  rw [FileSystem.createFile] at hcreate
  split at hcreate
  · cases hcreate
  · cases hcreate
    exact h.create _ _ _ _
  · split at hcreate
    · cases hcreate
    · cases hcreate
    · split at hcreate <;> cases hcreate
      exact h
    · cases hcreate
      exact h.modifyContent _ _

/-- A node is not read for a reason on one line. -/
theorem ReportsNumbers.isLine_of_read (h : fs.ReportsNumbers) {id : FileId} {node : Node}
    (hnode : fs.node? id = some node) {offset limit : Nat} {cause : IoError}
    (hread : node.read offset limit = .error cause) : Text.IsLine cause.message := by
  cases node with
  | generated made =>
    rw [Node.read] at hread
    split at hread
    · cases hread
      exact IoError.isLine_system 12
    · cases hcontent : made.content with
      | ok bytes =>
        rw [hcontent] at hread
        cases hread
      | error failure =>
        rw [hcontent] at hread
        cases hread
        obtain ⟨number, rfl⟩ := h id made _ hnode hcontent
        exact IoError.isLine_system number
  | directory members =>
    cases hread
    exact IoError.isLine_system 21
  | _ => cases hread

/-- A path cannot be followed for a reason on one line. -/
theorem isLine_of_follow {errand : Errand} {links : Nat} {trail : List FileId}
    {steps : List Path.Component} {cause : IoError}
    (h : fs.follow errand links trail steps = .error cause) : Text.IsLine cause.message := by
  fun_induction FileSystem.follow fs errand links trail steps with
  | case1 => cases h
  | case2 links trail rest ih => exact ih h
  | case3 links trail rest ih => exact ih h
  | case4 links trail rest ih => exact ih h
  | case9 links trail name rest directory _ _ member _ members _ ih => exact ih h
  | case12 trail name rest directory _ _ member _ link _ _ links ih => exact ih h
  | _ => cases h <;> exact IoError.isLine_system _

theorem isLine_of_find {followLast : Bool} {path : Bytes} {cause : IoError}
    (h : fs.find followLast path = .error cause) : Text.IsLine cause.message := by
  rw [find] at h
  split at h
  · cases h
  · cases h
    exact IoError.isLine_system 2
  next hlocate =>
    cases h
    rw [locate] at hlocate
    split at hlocate
    · cases hlocate
      exact Text.isLine_ofList rfl
    · split at hlocate
      · cases hlocate
        exact IoError.isLine_system 2
      · split at hlocate
        · cases hlocate
          exact IoError.isLine_system 36
        · exact isLine_of_follow hlocate

theorem isLine_of_openForReading {followLast : Bool} {path : Bytes} {cause : IoError}
    (h : fs.openForReading followLast path = .error cause) : Text.IsLine cause.message := by
  rw [openForReading] at h
  split at h
  next hfind =>
    cases h
    exact isLine_of_find hfind
  · split at h <;> cases h
    · exact IoError.isLine_system 40
    · exact IoError.isLine_system 6

theorem failsPlainly_lookup (fs : FileSystem) : fs.lookup.FailsPlainly where
  kindOf {path cause} h := by
    dsimp only [lookup] at h
    cases hfind : fs.find false path with
    | ok id =>
      rw [hfind] at h
      cases h
    | error failure =>
      rw [hfind] at h
      cases h
      exact isLine_of_find hfind
  openFile h := isLine_of_openForReading h
  statusOf {file cause} h := by
    dsimp only [lookup, statusOf] at h
    split at h <;> cases h
    exact IoError.isLine_system 9

end FileSystem

/-! ## Open files -/

namespace DiskFile

variable {file : DiskFile} (h : file.files.ReportsNumbers)
include h

/-- What is passed on is refused with a text on one line. -/
theorem put_plain (bytes : Bytes) : (file.put bytes).2.files.ReportsNumbers ∧
    ∀ cause, (file.put bytes).1 = .error cause → Text.IsLine cause.message := by
  obtain ⟨files, target, offset, pending⟩ := file
  rw [put]
  split
  next refused hrefused =>
    refine ⟨h, ?_⟩
    rintro cause ⟨⟩
    rw [FileSystem.refusal?] at hrefused
    split at hrefused <;> cases hrefused <;> exact IoError.isLine_system _
  · refine ⟨h.modifyContent target _, ?_⟩
    rintro cause ⟨⟩

theorem settle_plain : file.settle.2.files.ReportsNumbers ∧
    ∀ cause, file.settle.1 = .error cause → Text.IsLine cause.message := by
  rw [settle]
  split
  · refine ⟨h, ?_⟩
    rintro cause ⟨⟩
  · have hput := put_plain h file.pending.toList
    rcases hanswer : file.put file.pending.toList with ⟨cause | _, next⟩ <;> rw [hanswer] at hput
    · exact hput
    · refine ⟨hput.1, ?_⟩
      rintro cause ⟨⟩

theorem write_plain (bytes : Bytes) : (file.write bytes).2.files.ReportsNumbers ∧
    ∀ cause, (file.write bytes).1 = .failed cause → Text.IsLine cause.message := by
  rw [write]
  split
  · refine ⟨h, ?_⟩
    rintro cause ⟨⟩
  have hfirst : (if capacity - file.pending.size < bytes.length then file.settle
        else (.ok (), file)).2.files.ReportsNumbers ∧
      ∀ cause, (if capacity - file.pending.size < bytes.length then file.settle
        else (.ok (), file)).1 = .error cause → Text.IsLine cause.message := by
    split
    · exact settle_plain h
    · refine ⟨h, ?_⟩
      rintro cause ⟨⟩
  split
  next cause next hanswer =>
    rw [hanswer] at hfirst
    refine ⟨hfirst.1, ?_⟩
    rintro _ ⟨⟩
    exact hfirst.2 _ rfl
  next next hanswer =>
    rw [hanswer] at hfirst
    split
    · have hput := put_plain hfirst.1 bytes
      split
      next hanswer =>
        rw [hanswer] at hput
        refine ⟨hput.1, ?_⟩
        rintro cause ⟨⟩
      next hanswer =>
        rw [hanswer] at hput
        refine ⟨hput.1, ?_⟩
        rintro _ ⟨⟩
        exact hput.2 _ rfl
    · refine ⟨hfirst.1, ?_⟩
      rintro cause ⟨⟩

omit h in
/-- **Open files fail with texts on one line**, if the system reports its failures by number. -/
theorem failsPlainly :
    FailsPlainly OpenFile fun file : DiskFile => file.files.ReportsNumbers where
  call {file next} hlead hfile := by
    cases hlead with
    | @write _ bytes outcome hwrite =>
      have hkept := (write_plain hfile bytes).1
      rwa [show file.write bytes = (outcome, next) from hwrite] at hkept
    | flush => exact (settle_plain hfile).1
  write hfile hwrite := (write_plain hfile _).2 _ (congrArg Prod.fst hwrite)
  read {file source next limit cause} hfile hread := by
    change source.read file.files limit = _ at hread
    rw [OpenFile.read] at hread
    split at hread
    · cases hread
      exact IoError.isLine_system 9
    next node hnode =>
      split at hread <;> cases hread
      next hfailed => exact hfile.isLine_of_read hnode hfailed

end DiskFile

/-! ## Runs -/

/-- **Every reason of a run is one line**, if the system reports its failures by number: whatever
the files are called, and whatever becomes of them. -/
theorem createArchive_plain {fs : FileSystem} (h : fs.ReportsNumbers) (output : Bytes)
    (sources : List Bytes) (settings : Settings) (elapsed : Duration) :
    ∀ visit ∈ (createArchive fs output sources settings elapsed).visits, visit.IsPlain := by
  rcases createArchive_cases fs output sources settings elapsed with
    ⟨e, hrefused⟩ | ⟨hvalid, target, opened, hcreate⟩
  · rw [hrefused]
    exact nofun
  · rw [createArchive_of_createFile hvalid hcreate rfl]
    dsimp only
    rw [(visits_createOn _ _ _).1]
    refine DiskFile.failsPlainly.counted.visitAll rfl (h.createFile hcreate) ?_
    intro input hinput
    obtain ⟨path, -, rfl⟩ := List.mem_map.1 hinput
    exact fun fs reason hresolve => (FileSystem.failsPlainly_lookup fs).ofPath hresolve

end CpioArchive
