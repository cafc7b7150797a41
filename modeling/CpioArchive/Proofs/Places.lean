import CpioArchive.FileSystem.Edit

/-!
# Where paths lead while a file is written

While one file is written, every other file stays what it is, and a directory can only gain members.
So whatever a path led to before, it leads to afterwards.

* `FileSystem.Becomes` — what may change while a file is written, or created;
* `FileSystem.Becomes.find` — paths keep leading where they led;
* `FileSystem.createFile_spec` — what creating a file does to the file system.
-/

namespace CpioArchive

/-- What may become of a node: a stored file may be given another content if it is the one that is
written, a directory may gain members, and nothing else changes. -/
inductive Node.Becomes (isWritten : Prop) : Node → Node → Prop
  | same (node : Node) : Becomes isWritten node node
  | rewritten (h : isWritten) (content content' : FileContent) :
      Becomes isWritten (.file content) (.file content')
  | gained (members more : List (Bytes × FileId)) :
      Becomes isWritten (.directory members) (.directory (members ++ more))

namespace Node.Becomes

variable {isWritten : Prop} {node middle later : Node}

theorem trans (h : Becomes isWritten node middle) (h' : Becomes isWritten middle later) :
    Becomes isWritten node later := by
  cases h with
  | same => exact h'
  | rewritten hwritten content content' =>
    cases h' with
    | same => exact .rewritten hwritten content content'
    | rewritten _ _ content'' => exact .rewritten hwritten content content''
  | gained members more =>
    cases h' with
    | same => exact .gained members more
    | gained _ more' =>
      rw [List.append_assoc]
      exact .gained members (more ++ more')

theorem kind_eq (h : Becomes isWritten node later) : later.kind = node.kind := by
  cases h <;> rfl

/-- A node that is not written and not a directory stays what it is. -/
theorem eq_of_not (h : Becomes isWritten node later) (hwritten : ¬ isWritten)
    (hkind : node.kind ≠ .directory) : later = node := by
  cases h with
  | same => rfl
  | rewritten h => exact absurd h hwritten
  | gained => exact absurd rfl hkind

end Node.Becomes

namespace FileSystem

/-! ## Nodes after a change -/

theorem node?_modifyNode (fs : FileSystem) (id other : FileId) (change : Node → Node) :
    (fs.modifyNode id change).node? other =
      if id = other then (fs.node? other).map change else fs.node? other := by
  rw [node?, modifyNode, Array.getElem?_modify, node?]
  split
  · rw [Option.map_map, Option.map_map]
    rfl
  · rfl

theorem node?_modifyContent_self {fs : FileSystem} {id : FileId} {content : FileContent}
    (h : fs.node? id = some (.file content)) (change : FileContent → FileContent) :
    (fs.modifyContent id change).node? id = some (.file (change content)) := by
  rw [modifyContent, node?_modifyNode, if_pos rfl, h]
  rfl

/-- A new node is found under its identity. -/
theorem node?_create (fs : FileSystem) (directory : FileId) (name : Bytes) (content : FileContent)
    (permissions : Nat) :
    (fs.create directory name ⟨.file content, permissions⟩).2.node? fs.inodes.size =
      some (.file content) := by
  have hpush : node? { fs with inodes := fs.inodes.push ⟨.file content, permissions⟩ }
      fs.inodes.size = some (.file content) := by
    rw [node?, Array.getElem?_push_size]
    rfl
  rw [create]
  dsimp only
  rw [link, node?_modifyNode, hpush]
  split <;> rfl

/-! ## What may change -/

/-- What may become of a file system while the file `target` is written: there may be new nodes, and
nodes that there are become what they may. -/
structure Becomes (target : FileId) (fs now : FileSystem) : Prop where
  workingDirectory : now.workingDirectory = fs.workingDirectory
  node : ∀ {id : FileId} {node : Node}, fs.node? id = some node →
    ∃ later, now.node? id = some later ∧ node.Becomes (id = target) later

variable {target : FileId} {fs middle now : FileSystem}

namespace Becomes

theorem refl (target : FileId) (fs : FileSystem) : Becomes target fs fs :=
  ⟨rfl, fun hnode => ⟨_, hnode, .same _⟩⟩

theorem trans (h : Becomes target fs middle) (h' : Becomes target middle now) :
    Becomes target fs now where
  workingDirectory := h'.workingDirectory.trans h.workingDirectory
  node hnode := by
    obtain ⟨between, hbetween, hfirst⟩ := h.node hnode
    obtain ⟨later, hlater, hsecond⟩ := h'.node hbetween
    exact ⟨later, hlater, hfirst.trans hsecond⟩

/-- Changing a node in a way in which it may change. -/
theorem modifyNode (fs : FileSystem) (id : FileId) {change : Node → Node}
    (hchange : ∀ node : Node, node.Becomes (id = target) (change node)) :
    Becomes target fs (fs.modifyNode id change) where
  workingDirectory := rfl
  node {other node} hnode := by
    rw [node?_modifyNode]
    split
    next heq =>
      subst heq
      exact ⟨change node, by rw [hnode, Option.map_some], hchange node⟩
    · exact ⟨node, hnode, .same node⟩

/-- Writing a file changes nothing but its content. -/
theorem modifyContent (fs : FileSystem) (target : FileId) (change : FileContent → FileContent) :
    Becomes target fs (fs.modifyContent target change) := by
  refine modifyNode fs target fun node => ?_
  cases node with
  | file content => exact .rewritten rfl content (change content)
  | _ => exact .same _

/-- A new node leaves the others alone, and a new name only adds to its directory. -/
theorem create (fs : FileSystem) (target directory : FileId) (name : Bytes) (inode : Inode) :
    Becomes target fs (fs.create directory name inode).2 := by
  have hpush : Becomes target fs { fs with inodes := fs.inodes.push inode } := by
    refine ⟨rfl, fun {id node} hnode => ⟨node, ?_, .same node⟩⟩
    obtain ⟨held, hheld, rfl⟩ := Option.map_eq_some_iff.1 hnode
    have hlt : id < fs.inodes.size := (Array.getElem?_eq_some_iff.1 hheld).1
    rw [node?, Array.getElem?_push_lt hlt, ← Array.getElem?_eq_getElem hlt, hheld]
    rfl
  rw [FileSystem.create]
  dsimp only
  rw [link]
  refine hpush.trans (modifyNode _ directory fun node => ?_)
  cases node with
  | directory members => exact .gained members _
  | _ => exact .same _

/-! ## Paths -/

theorem member? (h : Becomes target fs now) {directory id : FileId} {name : Bytes}
    (hmember : fs.member? directory name = some id) : now.member? directory name = some id := by
  rw [FileSystem.member?] at hmember ⊢
  cases hnode : fs.node? directory with
  | none =>
    rw [hnode] at hmember
    cases hmember
  | some node =>
    obtain ⟨later, hlater, hbecomes⟩ := h.node hnode
    rw [hnode] at hmember
    rw [hlater]
    cases hbecomes with
    | same => exact hmember
    | rewritten => cases hmember
    | gained members more =>
      dsimp only at hmember ⊢
      rw [List.lookup_append, hmember]
      rfl

end Becomes

section Steps

variable {trail : List FileId} {name : Bytes} {id : FileId}

/-- A step by name to a member of a directory, where links are followed. -/
theorem follow_member {creating : Bool} {rest : List Path.Component}
    (hcreating : ¬ (creating ∧ rest = [.asDirectory])) (hlength : ¬ longestName < name.length)
    (hmember : fs.member? (trail.headD root) name = some id) (links : Nat) :
    fs.follow ⟨true, creating⟩ links trail (.named name :: rest) =
      match fs.node? id with
      | some (.directory _) => fs.follow ⟨true, creating⟩ links (id :: trail) rest
      | some (.symlink target) =>
        match links with
        | 0 => .error .tooManySymlinks
        | links + 1 =>
          fs.follow ⟨true, creating⟩ links (if Path.isAbsolute target then [] else trail)
            (Path.components target ++ rest)
      | _ => if rest = [] then .ok (.present id) else .error .notADirectory := by
  rw [FileSystem.follow]
  dsimp only
  rw [if_neg hcreating, if_neg hlength, hmember]
  dsimp only
  cases fs.node? id with
  | none => rfl
  | some node =>
    cases node with
    | symlink target => exact if_neg fun h => Bool.false_ne_true h.2.symm
    | _ => rfl

variable (hlength : ¬ longestName < name.length)
variable (hmember : fs.member? (trail.headD root) name = some id)
include hlength hmember

/-- A step by name into a directory. -/
theorem follow_directory {members : List (Bytes × FileId)}
    (hnode : fs.node? id = some (.directory members)) (links : Nat) (rest : List Path.Component) :
    fs.follow ⟨true, false⟩ links trail (.named name :: rest) =
      fs.follow ⟨true, false⟩ links (id :: trail) rest := by
  rw [follow_member (fun h => Bool.false_ne_true h.1) hlength hmember, hnode]

/-- A step by name to a symbolic link. -/
theorem follow_symlink {link : Bytes} (hnode : fs.node? id = some (.symlink link)) (links : Nat)
    (rest : List Path.Component) :
    fs.follow ⟨true, false⟩ (links + 1) trail (.named name :: rest) =
      fs.follow ⟨true, false⟩ links (if Path.isAbsolute link then [] else trail)
        (Path.components link ++ rest) := by
  rw [follow_member (fun h => Bool.false_ne_true h.1) hlength hmember, hnode]

/-- A last step by name, to something that leads no further. -/
theorem follow_last {node : Node} (hnode : fs.node? id = some node)
    (hdirectory : node.kind ≠ .directory) (hlink : node.kind ≠ .symlink) (links : Nat) :
    fs.follow ⟨true, false⟩ links trail [.named name] = .ok (.present id) := by
  rw [follow_member (fun h => Bool.false_ne_true h.1) hlength hmember, hnode]
  cases node with
  | directory => exact absurd rfl hdirectory
  | symlink => exact absurd rfl hlink
  | _ => rfl

end Steps

/-- **Paths keep leading to the nodes they led to.**  It does not matter what they were followed
for, as long as no symbolic link at their end was taken for itself. -/
theorem Becomes.follow (h : Becomes target fs now) {errand : Errand} {links : Nat}
    {trail : List FileId} {steps : List Path.Component} {id : FileId} {node : Node}
    (hnode : fs.node? id = some node)
    (hlast : errand.followLast = true ∨ node.kind ≠ .symlink)
    (hfollow : fs.follow errand links trail steps = .ok (.present id)) :
    now.follow ⟨true, false⟩ links trail steps = .ok (.present id) := by
  fun_induction FileSystem.follow fs errand links trail steps with
  | case1 links trail =>
    rw [FileSystem.follow]
    exact hfollow
  | case2 links trail rest ih =>
    rw [FileSystem.follow]
    exact ih hfollow
  | case3 links trail rest ih =>
    rw [FileSystem.follow]
    exact ih hfollow
  | case4 links trail rest ih =>
    rw [FileSystem.follow]
    exact ih hfollow
  | case9 links trail name rest directory _ hlength member hmember members hdirectory ih =>
    obtain ⟨later, hlater, hbecomes⟩ := h.node hdirectory
    cases hbecomes with
    | same =>
      rw [follow_directory hlength (h.member? hmember) hlater]
      exact ih hfollow
    | gained =>
      rw [follow_directory hlength (h.member? hmember) hlater]
      exact ih hfollow
  | case10 links trail name rest directory _ hlength member hmember link hlink hstop =>
    -- A symbolic link that stands for itself at the end of the path is not what was asked for.
    cases hfollow
    obtain rfl : node = .symlink link := Option.some.inj (hnode.symm.trans hlink)
    rw [hstop.2] at hlast
    rcases hlast with hlast | hlast
    · cases hlast
    · exact absurd rfl hlast
  | case12 trail name rest directory _ hlength member hmember link hlink _ links ih =>
    obtain ⟨later, hlater, hbecomes⟩ := h.node hlink
    cases hbecomes
    rw [follow_symlink hlength (h.member? hmember) hlater]
    exact ih hfollow
  | case13 links trail name directory hlength member hmember hdirectory hlink _ =>
    cases hfollow
    obtain ⟨later, hlater, hbecomes⟩ := h.node hnode
    refine follow_last hlength (h.member? hmember) hlater ?_ ?_ links <;> rw [hbecomes.kind_eq]
    · cases node with
      | directory members => exact (hdirectory members hnode).elim
      | _ => nofun
    · cases node with
      | symlink link => exact (hlink link hnode).elim
      | _ => nofun
  | _ => cases hfollow

theorem Becomes.find (h : Becomes target fs now) {errand : Errand} {path : Bytes} {id : FileId}
    {node : Node} (hnode : fs.node? id = some node)
    (hlast : errand.followLast = true ∨ node.kind ≠ .symlink)
    (hlocate : fs.locate errand path = .ok (.present id)) : now.find true path = .ok id := by
  rw [FileSystem.find, locate]
  rw [locate] at hlocate
  split at hlocate
  · cases hlocate
  · split at hlocate
    · cases hlocate
    · split at hlocate
      · cases hlocate
      next hnul hnil hlong =>
        rw [if_neg hnul, if_neg hnil, if_neg hlong, h.workingDirectory,
          h.follow hnode hlast hlocate]

theorem locate_of_find {followLast : Bool} {path : Bytes} {id : FileId}
    (h : fs.find followLast path = .ok id) :
    fs.locate ⟨followLast, false⟩ path = .ok (.present id) := by
  rw [FileSystem.find] at h
  split at h
  next hlocate =>
    cases h
    exact hlocate
  · cases h
  · cases h

/-! ## Creating files -/

/-- What holds of a file that was opened for writing. -/
structure Opens (fs : FileSystem) (path : Bytes) (target : FileId) (opened : FileSystem) :
    Prop where
  becomes : Becomes target fs opened
  /-- It is the file that the path leads to, or it is new. -/
  found : fs.find true path = .ok target ∨ fs.node? target = none
  /-- A stored file is empty. -/
  empty : ∀ content, opened.node? target = some (.file content) → content = .empty

/-- A node that was there and that the path does not lead to is another one. -/
theorem Opens.ne {path : Bytes} {opened : FileSystem} (h : fs.Opens path target opened)
    {id : FileId} {node : Node} (hnode : fs.node? id = some node)
    (hother : fs.find true path ≠ .ok id) : id ≠ target := by
  rintro rfl
  rcases h.found with hfound | hnew
  · exact hother hfound
  · rw [hnode] at hnew
    cases hnew

/-- **Creating a file empties the file that the path leads to, or makes a new one**, and leaves
everything else alone. -/
theorem createFile_spec {path : Bytes} {opened : FileSystem}
    (h : fs.createFile path = .ok (target, opened)) : fs.Opens path target opened := by
  rw [createFile] at h
  split at h
  · cases h
  next directory name _ =>
    cases h
    exact
      { becomes := .create fs _ directory name _
        found := .inr (Option.map_eq_none_iff.2 (Array.getElem?_eq_none_iff.2 (Nat.le_refl _)))
        empty := fun content hcontent => by
          have hnew := node?_create fs directory name .empty filePermissions
          cases hnew.symm.trans hcontent
          rfl }
  next id hlocate =>
    have hfound : fs.find true path = .ok id ∨ fs.node? id = none := by
      cases hnode : fs.node? id with
      | none => exact .inr rfl
      | some node => exact .inl ((Becomes.refl id fs).find hnode (.inl rfl) hlocate)
    split at h
    · cases h
    · cases h
    next made hmade =>
      split at h <;> cases h
      refine ⟨.refl target fs, hfound, fun content hcontent => ?_⟩
      rw [hmade] at hcontent
      cases hcontent
    · cases h
      refine ⟨.modifyContent fs target _, hfound, fun content hcontent => ?_⟩
      rw [modifyContent, node?_modifyNode, if_pos rfl] at hcontent
      obtain ⟨node, -, hnode⟩ := Option.map_eq_some_iff.1 hcontent
      cases node <;> cases hnode
      rfl

end FileSystem

end CpioArchive
