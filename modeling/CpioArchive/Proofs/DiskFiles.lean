import CpioArchive.Creation.Archive
import CpioArchive.Proofs.Places
import CpioArchive.Proofs.Reaching

/-!
# Writing to files

A file that is open for writing changes nothing in its file system but itself.  A stored file keeps
all that is written to it: what is collected and not yet passed on stands behind what is there.

* `DiskFile.Writes.of_reaches` — no call on an open file changes another file;
* `DiskFile.reliable` — a stored file takes everything;
* `DiskFile.IsStored.close` — once it is closed, everything is there;
* `DiskFile.IsGenerated.faithful` — a file that the system makes up takes nothing: all that is
  written to it stays collected, until a write or a flush fails.
-/

namespace CpioArchive

namespace FileContent

theorem toList_filledTo {stored : Array UInt8} {length : Nat} (h : stored.size ≤ length) :
    (filledTo stored length).toList = stored.toList ++ nuls (length - stored.size) := by
  rw [filledTo]
  split
  · simp
  · rw [show length - stored.size = 0 by omega]
    simp [nuls]

/-- What is stored after some bytes were put at the end of a content. -/
theorem stored_write (content : FileContent) {bytes : Bytes} (hne : bytes ≠ []) :
    (content.write content.size bytes).stored.toList = content.toBytes ++ bytes := by
  obtain ⟨stored, size, hle⟩ := content
  rw [write, if_neg (by simpa using hne)]
  dsimp only
  rw [if_neg (Nat.not_lt.2 hle), Array.extract_eq_empty_of_le (by omega), Array.append_empty,
    Array.appendList_eq_append, Array.toList_appendList, toList_filledTo hle]
  rfl

theorem size_write (content : FileContent) (bytes : Bytes) :
    (content.write content.size bytes).size = content.size + bytes.length := by
  by_cases hne : bytes = []
  · subst hne
    rfl
  · have hstored := congrArg List.length (content.stored_write hne)
    rw [List.length_append, length_toBytes, Array.length_toList] at hstored
    rw [write, if_neg (by simpa using hne)] at hstored ⊢
    dsimp only at hstored ⊢
    rw [hstored]
    exact Nat.max_eq_right (Nat.le_add_right _ _)

/-- **Bytes put at the end of a content** stand behind it. -/
theorem toBytes_write (content : FileContent) (bytes : Bytes) :
    (content.write content.size bytes).toBytes = content.toBytes ++ bytes := by
  by_cases hne : bytes = []
  · subst hne
    exact (List.append_nil _).symm
  · have hstored := content.stored_write hne
    have hsize : (content.write content.size bytes).stored.size =
        (content.write content.size bytes).size := by
      rw [size_write, ← Array.length_toList, hstored, List.length_append, length_toBytes]
    rw [toBytes, hstored, hsize, Nat.sub_self]
    exact List.append_nil _

end FileContent

namespace DiskFile

/-! ## One file among others -/

/-- The same file is open, and nothing else in the file system has changed. -/
structure Writes (file next : DiskFile) : Prop where
  target : next.target = file.target
  becomes : FileSystem.Becomes file.target file.files next.files

theorem Writes.refl (file : DiskFile) : file.Writes file := ⟨rfl, .refl _ _⟩

theorem Writes.trans {file middle next : DiskFile} (h : file.Writes middle)
    (h' : middle.Writes next) : file.Writes next :=
  ⟨h'.target.trans h.target, h.becomes.trans (h.target ▸ h'.becomes)⟩

theorem writes_put (file : DiskFile) (bytes : Bytes) : file.Writes (file.put bytes).2 := by
  obtain ⟨files, target, offset, pending⟩ := file
  rw [put]
  split
  · exact .refl _
  · exact ⟨rfl, .modifyContent files target _⟩

theorem writes_settle (file : DiskFile) : file.Writes file.settle.2 := by
  have hput := file.writes_put file.pending.toList
  rw [settle]
  split
  · exact .refl _
  · split
    next hanswer =>
      rw [hanswer] at hput
      exact ⟨hput.target, hput.becomes⟩
    next hanswer =>
      rw [hanswer] at hput
      exact hput

/-- Collecting bytes leaves the file alone. -/
theorem writes_collect (file : DiskFile) (pending : Array UInt8) :
    file.Writes { file with pending := pending } :=
  ⟨rfl, .refl _ _⟩

theorem writes_write (file : DiskFile) (bytes : Bytes) : file.Writes (file.write bytes).2 := by
  rw [write]
  split
  · exact file.writes_collect _
  · have hfirst : file.Writes (if capacity - file.pending.size < bytes.length then file.settle
        else (.ok (), file)).2 := by
      split
      · exact file.writes_settle
      · exact .refl file
    split
    next hsettled =>
      rw [hsettled] at hfirst
      exact hfirst
    next middle hsettled =>
      rw [hsettled] at hfirst
      have hput := hfirst.trans (middle.writes_put bytes)
      split
      · split
        next hanswer =>
          rw [hanswer] at hput
          exact hput
        next hanswer =>
          rw [hanswer] at hput
          exact hput
      · exact hfirst.trans (middle.writes_collect _)

/-- **No call on an open file changes another file.** -/
theorem Writes.of_reaches {file next : DiskFile} (h : Reaches file next) : file.Writes next := by
  have hcall : ∀ {middle last : DiskFile}, Leads middle last → file.Writes middle →
      file.Writes last := by
    intro middle last hlead hmiddle
    refine hmiddle.trans ?_
    cases hlead with
    | @write _ bytes outcome hwrite =>
      have hwrites := middle.writes_write bytes
      rwa [show middle.write bytes = (outcome, last) from hwrite] at hwrites
    | flush => exact middle.writes_settle
  exact h.preserves hcall (.refl file)

/-! ## Stored files -/

/-- The file is a stored one with this content, and the next bytes go to its end. -/
structure Holds (file : DiskFile) (content : FileContent) : Prop where
  node : file.files.node? file.target = some (.file content)
  offset : file.offset = content.size

variable {file : DiskFile} {content : FileContent}

/-- A stored file takes what is passed on to it. -/
theorem Holds.put (h : file.Holds content) (bytes : Bytes) :
    ∃ next content', file.put bytes = (.ok (), next) ∧ next.Holds content' ∧
      content'.toBytes = content.toBytes ++ bytes ∧ next.pending = file.pending := by
  obtain ⟨files, target, offset, pending⟩ := file
  obtain ⟨hnode, rfl⟩ := h
  dsimp only at hnode
  have hrefusal : files.refusal? target = none := by rw [FileSystem.refusal?, hnode]
  rw [DiskFile.put, hrefusal]
  refine ⟨_, _, rfl, ⟨FileSystem.node?_modifyContent_self hnode _, ?_⟩, ?_, rfl⟩
  · exact (content.size_write bytes).symm
  · exact content.toBytes_write bytes

/-- What was collected for a stored file can be passed on. -/
theorem Holds.settle (h : file.Holds content) :
    ∃ next content', file.settle = (.ok (), next) ∧ next.Holds content' ∧
      content'.toBytes = content.toBytes ++ file.pending.toList ∧ next.pending = #[] := by
  rw [DiskFile.settle]
  split
  next hempty =>
    rw [Array.isEmpty_iff] at hempty
    exact ⟨file, content, rfl, h, by simp [hempty], hempty⟩
  · obtain ⟨next, content', hput, hholds, hbytes, -⟩ := h.put file.pending.toList
    rw [hput]
    exact ⟨_, content', rfl, ⟨hholds.node, hholds.offset⟩, hbytes, rfl⟩

/-- **A stored file takes everything**: what was written stands behind what was written before,
partly in the file and partly collected. -/
theorem Holds.write (h : file.Holds content) (bytes : Bytes) :
    ∃ next content', file.write bytes = (.done bytes.length, next) ∧ next.Holds content' ∧
      content'.toBytes ++ next.pending.toList =
        content.toBytes ++ file.pending.toList ++ bytes := by
  rw [DiskFile.write]
  split
  · refine ⟨_, content, rfl, ⟨h.node, h.offset⟩, ?_⟩
    simp
  · -- Bytes are passed on at once only if nothing is left that was collected before.
    have hfirst : ∃ next content',
        (if capacity - file.pending.size < bytes.length then file.settle else (.ok (), file)) =
          (.ok (), next) ∧ next.Holds content' ∧
        content'.toBytes ++ next.pending.toList = content.toBytes ++ file.pending.toList ∧
        (capacity ≤ bytes.length → next.pending = #[]) := by
      split
      · obtain ⟨next, content', hsettle, hholds, hbytes, hpending⟩ := h.settle
        refine ⟨next, content', hsettle, hholds, ?_, fun _ => hpending⟩
        rw [hpending, hbytes]
        exact List.append_nil _
      · refine ⟨file, content, rfl, h, rfl, fun hlarge => Array.size_eq_zero_iff.1 ?_⟩
        have hcapacity : 0 < capacity := by decide
        omega
    obtain ⟨middle, content', hmiddle, hholds, hbytes, hpending⟩ := hfirst
    rw [hmiddle]
    dsimp only
    split
    next hlarge =>
      obtain ⟨next, content'', hput, hholds', hbytes', hpending'⟩ := hholds.put bytes
      rw [hput]
      refine ⟨next, content'', rfl, hholds', ?_⟩
      rw [hpending hlarge] at hpending' hbytes
      rw [hpending', hbytes', ← hbytes]
      simp
    · refine ⟨_, content', rfl, ⟨hholds.node, hholds.offset⟩, ?_⟩
      rw [← hbytes]
      simp

/-- What a stored file is going to hold: what it holds, and what was collected for it. -/
def held (file : DiskFile) : Bytes :=
  match file.files.node? file.target with
  | some (.file content) => content.toBytes ++ file.pending.toList
  | _ => []

theorem Holds.held_eq (h : file.Holds content) :
    file.held = content.toBytes ++ file.pending.toList := by
  rw [held, h.node]

/-- The files that come of writing to a stored one. -/
structure IsStored (start file : DiskFile) : Prop where
  writes : start.Writes file
  holds : ∃ content, file.Holds content

/-- One call on a stored file. -/
theorem IsStored.write {start next : DiskFile} (h : start.IsStored file) {bytes : Bytes}
    {outcome : Attempt Nat} (hwrite : Destination.write file bytes = (outcome, next)) :
    outcome = .done bytes.length ∧ start.IsStored next ∧ next.held = file.held ++ bytes := by
  obtain ⟨hwrites, content, hholds⟩ := h
  obtain ⟨after, content', hafter, hholds', hbytes⟩ := hholds.write bytes
  obtain ⟨rfl, rfl⟩ := Prod.mk.injEq .. ▸ hafter.symm.trans hwrite
  refine ⟨rfl, ⟨hwrites.trans (.of_reaches (.write hwrite)), content', hholds'⟩, ?_⟩
  rw [hholds'.held_eq, hholds.held_eq, hbytes]

theorem IsStored.flush {start : DiskFile} (h : start.IsStored file) :
    (Destination.flush file).1 = .ok () ∧ start.IsStored (Destination.flush file).2 ∧
      (Destination.flush file).2.held = file.held := by
  obtain ⟨hwrites, content, hholds⟩ := h
  obtain ⟨after, content', hafter, hholds', hbytes, hpending⟩ := hholds.settle
  have hflush : Destination.flush file = (.ok (), after) := hafter
  refine ⟨by rw [hflush], ⟨hwrites.trans (.of_reaches (.flush file)), content', ?_⟩, ?_⟩
  · rw [hflush]
    exact hholds'
  · rw [hflush, hholds'.held_eq, hholds.held_eq, hbytes, hpending]
    exact List.append_nil _

/-- **Stored files are reliable destinations.** -/
theorem reliable (start : DiskFile) : Reliable start.IsStored held where
  good_write hd hwrite := (hd.write hwrite).2.1
  good_flush hd := hd.flush.2.1
  held_done hd hwrite := by
    obtain ⟨houtcome, -, hheld⟩ := hd.write hwrite
    cases houtcome
    rw [hheld, List.take_length]
  held_interrupted hd hwrite := by cases (hd.write hwrite).1
  held_failed hd hwrite := by cases (hd.write hwrite).1
  held_flush hd := hd.flush.2.2
  accepts hd hne hwrite := by
    cases (hd.write hwrite).1
    exact fun hzero => hne (List.eq_nil_of_length_eq_zero hzero)
  never_fails hd _ hwrite := by cases (hd.write hwrite).1
  flushes hd := hd.flush.1

/-- **Once a stored file is closed, it holds everything.** -/
theorem IsStored.close {start : DiskFile} (h : start.IsStored file) :
    ∃ content, file.close.node? start.target = some (.file content) ∧
      content.toBytes = file.held := by
  obtain ⟨hwrites, content, hholds⟩ := h
  obtain ⟨after, content', hafter, hholds', hbytes, hpending⟩ := hholds.settle
  have hsettle := file.writes_settle
  rw [hafter] at hsettle
  refine ⟨content', ?_, ?_⟩
  · rw [DiskFile.close, hafter, ← hwrites.target, ← hsettle.target]
    exact hholds'.node
  · rw [hbytes, hholds.held_eq]

/-! ## Files that take nothing -/

/-- The file is one that the system makes up. -/
def IsGenerated (file : DiskFile) : Prop :=
  ∃ made, file.files.node? file.target = some (.generated made)

theorem IsGenerated.put (h : file.IsGenerated) (bytes : Bytes) :
    file.put bytes = (.error .deviceFailure, file) := by
  obtain ⟨made, hnode⟩ := h
  obtain ⟨files, target, offset, pending⟩ := file
  dsimp only at hnode
  have hrefusal : files.refusal? target = some .deviceFailure := by
    rw [FileSystem.refusal?, hnode]
  rw [DiskFile.put, hrefusal]

/-- Nothing that was collected for such a file can be passed on. -/
theorem IsGenerated.settle (h : file.IsGenerated) :
    file.settle = (if file.pending.isEmpty then .ok () else .error .deviceFailure, file) := by
  rw [DiskFile.settle, h.put]
  split <;> rfl

/-- What is written to such a file is collected, or refused as a whole. -/
theorem IsGenerated.write (h : file.IsGenerated) (bytes : Bytes) :
    file.write bytes = (.failed .deviceFailure, file) ∨
      file.write bytes =
        (.done bytes.length, { file with pending := file.pending.appendList bytes }) := by
  rw [DiskFile.write, h.settle]
  by_cases hroom : bytes.length < capacity - file.pending.size
  · rw [if_pos hroom]
    exact .inr rfl
  · rw [if_neg hroom]
    by_cases hsettle : capacity - file.pending.size < bytes.length ∧ file.pending.isEmpty = false
    · rw [if_pos hsettle.1, hsettle.2]
      exact .inl rfl
    · have hpassed : (if capacity - file.pending.size < bytes.length then
          (if file.pending.isEmpty then Except.ok () else .error IoError.deviceFailure, file)
        else (.ok (), file)) = (.ok (), file) := by
        split
        next hfull =>
          have hempty : file.pending.isEmpty = true := by
            simpa using fun hempty => hsettle ⟨hfull, hempty⟩
          rw [if_pos hempty]
        · rfl
      rw [hpassed]
      dsimp only
      rw [h.put]
      split
      · exact .inl rfl
      · exact .inr rfl

/-- **A file that the system makes up keeps what is written to it collected**, and no more. -/
theorem IsGenerated.faithful : Faithful IsGenerated (·.pending.toList) where
  good_write {file next bytes outcome} hd hwrite := by
    rcases hd.write bytes with heq | heq <;>
      cases (show file.write bytes = _ from hwrite).symm.trans heq <;> exact hd
  good_flush {file} hd := by
    rw [show Destination.flush file = _ from hd.settle]
    exact hd
  held_done {file next bytes count} hd hwrite := by
    rcases hd.write bytes with heq | heq <;>
      cases (show file.write bytes = _ from hwrite).symm.trans heq
    rw [List.take_length, Array.appendList_eq_append, Array.toList_appendList]
  held_interrupted {file next bytes cause} hd hwrite := by
    rcases hd.write bytes with heq | heq <;>
      cases (show file.write bytes = _ from hwrite).symm.trans heq
  held_failed {file next bytes cause} hd hwrite := by
    rcases hd.write bytes with heq | heq <;>
      cases (show file.write bytes = _ from hwrite).symm.trans heq
    rfl
  held_flush {file} hd := by rw [show Destination.flush file = _ from hd.settle]

/-- Behind a flush that succeeds nothing is left to be passed on. -/
theorem IsGenerated.of_settle_eq_ok {next : DiskFile} (h : file.IsGenerated)
    (hsettle : file.settle = (.ok (), next)) : next.pending.toList = [] := by
  rw [h.settle] at hsettle
  by_cases hempty : file.pending.isEmpty = true
  · rw [if_pos hempty] at hsettle
    cases hsettle
    simpa using hempty
  · rw [if_neg hempty] at hsettle
    cases hsettle

end DiskFile

end CpioArchive
