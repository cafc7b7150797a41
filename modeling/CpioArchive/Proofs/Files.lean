import CpioArchive.Creation.Archive
import CpioArchive.Proofs.Delivery

/-!
# What files deliver

* `FileContent.read_eq` — a read gives the bytes of the file from its offset on;
* `Delivers.openFile` — an open file whose node does not change delivers, if it comes to an
  end, everything from its offset on;
* `FileSystem.resolve_spec` — what a path resolves to, if it resolves.
-/

namespace CpioArchive

namespace FileContent

/-- Reading is taking bytes out of the content, stored or not. -/
theorem read_eq (content : FileContent) (offset limit : Nat) :
    content.read offset limit = (content.toBytes.drop offset).take limit := by
  have hstored := content.size_stored_le
  rw [← Array.length_toList] at hstored
  rw [read, toBytes, Array.toList_extract, List.extract_eq_take_drop]
  have hpart : (content.stored.toList.drop offset).take
      (min (offset + limit) content.size - offset) =
        (content.stored.toList.drop offset).take limit := by
    rw [List.take_eq_take_iff, List.length_drop]
    omega
  rw [hpart, List.drop_append, List.take_append, nuls, nuls, List.drop_replicate,
    List.take_replicate, List.length_take, List.length_drop, Array.length_toList]
  rw [Array.length_toList] at hstored
  congr 2
  omega

end FileContent

namespace Node

/-- All that can be read from a node, if anything can be. -/
def bytes? : Node → Option Bytes
  | file content => some content.toBytes
  | generated made => made.content.toOption
  | directory _ => none
  | _ => some []

theorem of_read_eq_ok {node : Node} {offset limit : Nat} {chunk : Bytes}
    (h : node.read offset limit = .ok chunk) :
    ∃ content, node.bytes? = some content ∧ chunk = (content.drop offset).take limit := by
  cases node with
  | file content =>
    cases h
    exact ⟨_, rfl, content.read_eq offset limit⟩
  | generated made =>
    rw [read] at h
    split at h
    · cases h
    · rw [bytes?]
      cases hcontent : made.content with
      | error e =>
        rw [hcontent] at h
        cases h
      | ok content =>
        rw [hcontent] at h
        cases h
        exact ⟨content, rfl, rfl⟩
  | directory members => cases h
  | symlink target =>
    cases h
    exact ⟨[], rfl, by simp⟩
  | _ =>
    cases h
    exact ⟨[], rfl, by simp⟩

end Node

/-- One read that delivers something, or the end. -/
theorem OpenFile.of_read_eq_done {fs : FileSystem} {file next : OpenFile} {limit : Nat}
    {chunk : Bytes} {node : Node} (hnode : fs.node? file.id = some node)
    (h : Source.read fs file limit = (.done chunk, next)) :
    next = ⟨file.id, file.offset + chunk.length⟩ ∧
      ∃ content, node.bytes? = some content ∧ chunk = (content.drop file.offset).take limit := by
  change OpenFile.read fs file limit = _ at h
  rw [OpenFile.read, hnode] at h
  dsimp only at h
  split at h
  · cases h
    exact ⟨rfl, Node.of_read_eq_ok ‹_›⟩
  · cases h

/-- **An open file that comes to an end has delivered the rest of its content**, as long as its
node does not change. -/
theorem Delivers.openFile {seen : FileSystem → Prop} {file : OpenFile} {bytes : Bytes}
    {node : Node} (h : Delivers seen file bytes .ended)
    (hnode : ∀ fs, seen fs → fs.node? file.id = some node) :
    ∃ content, node.bytes? = some content ∧ bytes = content.drop file.offset := by
  generalize hending : Ending.ended = ending at h
  induction h with
  | @ended fs file next limit hseen hlimit hread =>
    obtain ⟨-, content, hcontent, hchunk⟩ := OpenFile.of_read_eq_done (hnode fs hseen) hread
    refine ⟨content, hcontent, ?_⟩
    rcases List.take_eq_nil_iff.1 hchunk.symm with hzero | hnil
    · omega
    · exact hnil.symm
  | failed => cases hending
  | @again fs file next limit cause bytes ending hseen hlimit hread hrest ih =>
    change OpenFile.read fs file limit = _ at hread
    rw [OpenFile.read, hnode fs hseen] at hread
    dsimp only at hread
    split at hread <;> cases hread
  | @more fs file next limit chunk bytes ending hseen hlimit hne hread hrest ih =>
    obtain ⟨rfl, content, hcontent, hchunk⟩ := OpenFile.of_read_eq_done (hnode fs hseen) hread
    obtain ⟨content', hcontent', hbytes⟩ := ih hnode hending
    obtain rfl : content = content' := Option.some.inj (hcontent.symm.trans hcontent')
    refine ⟨content, hcontent, ?_⟩
    have hprefix : chunk = (content.drop file.offset).take chunk.length := by
      rw [hchunk, List.length_take, List.take_eq_take_iff]
      omega
    calc chunk ++ bytes
        = (content.drop file.offset).take chunk.length ++
            (content.drop file.offset).drop chunk.length := by
          rw [← hprefix, hbytes, List.drop_drop]
      _ = content.drop file.offset := List.take_append_drop _ _

/-- Opened at its beginning, it has delivered all of its content. -/
theorem Delivers.openFile_whole {seen : FileSystem → Prop} {file : OpenFile} {bytes : Bytes}
    {node : Node} (h : Delivers seen file bytes .ended) (hoffset : file.offset = 0)
    (hnode : ∀ fs, seen fs → fs.node? file.id = some node) : node.bytes? = some bytes := by
  obtain ⟨content, hcontent, rfl⟩ := h.openFile hnode
  rw [hcontent, hoffset, List.drop_zero]

/-- A stored file whose node does not change never fails to come to an end. -/
theorem Delivers.ended_of_file {seen : FileSystem → Prop} {file : OpenFile} {bytes : Bytes}
    {ending : Ending} {content : FileContent} (h : Delivers seen file bytes ending)
    (hnode : ∀ fs, seen fs → fs.node? file.id = some (.file content)) : ending = .ended := by
  induction h with
  | ended => rfl
  | @failed fs file next limit cause hseen hlimit hread =>
    change OpenFile.read fs file limit = _ at hread
    rw [OpenFile.read, hnode fs hseen] at hread
    cases hread
  | @again fs file next limit cause bytes ending hseen hlimit hread hrest ih =>
    change OpenFile.read fs file limit = _ at hread
    rw [OpenFile.read, hnode fs hseen] at hread
    cases hread
  | @more fs file next limit chunk bytes ending hseen hlimit hne hread hrest ih =>
    obtain ⟨rfl, -⟩ := OpenFile.of_read_eq_done (hnode fs hseen) hread
    exact ih hnode

namespace FileSystem

/-- What holds of a path that resolves. -/
structure ResolvesTo (fs : FileSystem) (path : Bytes) (resolved : Resolved OpenFile) : Prop where
  name : Path.fileName? path = some resolved.name
  /-- The file is read from its beginning. -/
  offset : resolved.content.offset = 0
  kind : resolved.status.kind = .regular
  /-- The size in the status is that of the node. -/
  node : ∃ node, fs.node? resolved.content.id = some node ∧ resolved.status.size = node.size

theorem offset_of_openForReading {fs : FileSystem} {followLast : Bool} {path : Bytes}
    {file : OpenFile} (h : fs.openForReading followLast path = .ok file) : file.offset = 0 := by
  rw [openForReading] at h
  repeat' split at h
  all_goals cases h
  rfl

theorem of_ofOpened_eq_ok {fs : FileSystem} {path name : Bytes} {file : OpenFile}
    {resolved : Resolved OpenFile}
    (h : Resolved.ofOpened fs.lookup path name file = .ok resolved) :
    resolved.name = name ∧ resolved.content = file ∧ resolved.status.kind = .regular ∧
      ∃ node, fs.node? file.id = some node ∧ resolved.status.size = node.size := by
  rw [Resolved.ofOpened, show fs.lookup.statusOf file = fs.statusOf file from rfl, statusOf,
    status?] at h
  rw [node?]
  cases hinode : fs.inodes[file.id]? with
  | none =>
    rw [hinode] at h
    cases h
  | some inode =>
    rw [hinode, Option.map_some] at h
    dsimp only at h
    split at h
    next hkind =>
      cases h
      exact ⟨rfl, rfl, hkind, inode.node, rfl, rfl⟩
    · cases h

/-- A path resolves by being opened. -/
theorem of_resolve_eq_ok {fs : FileSystem} {settings : Settings} {path : Bytes}
    {resolved : Resolved OpenFile} (h : fs.resolve settings path = .ok resolved) :
    ∃ name file, Path.fileName? path = some name ∧
      fs.openForReading settings.followSymlinks path = .ok file ∧
      Resolved.ofOpened fs.lookup path name file = .ok resolved := by
  rw [resolve, Resolved.ofPath, Resolved.ofPathAcross] at h
  cases hname : Path.fileName? path with
  | none =>
    rw [hname] at h
    cases h
  | some name =>
    rw [hname] at h
    dsimp only at h
    split at h
    · cases h
    · split at h
      · cases h
      next file hopen => exact ⟨name, file, rfl, hopen, h⟩

theorem resolve_spec {fs : FileSystem} {settings : Settings} {path : Bytes}
    {resolved : Resolved OpenFile} (h : fs.resolve settings path = .ok resolved) :
    fs.ResolvesTo path resolved := by
  obtain ⟨name, file, hname, hopen, hopened⟩ := of_resolve_eq_ok h
  obtain ⟨rfl, rfl, hkind, hnode⟩ := of_ofOpened_eq_ok hopened
  exact ⟨hname, offset_of_openForReading hopen, hkind, hnode⟩

end FileSystem

end CpioArchive
