import CpioArchive.Proofs.Records

/-!
# Newc writers

A writer adds to its encoder only the phase it is in.  `Writer.Stands` says which one that is,
and where the destination is.

* `Writer.append_accepting` — an accepting writer lets its encoder write an entry;
* `Writer.append_refused` — an entry whose header cannot be written leaves the writer as it is;
* `Writer.append_spec` — every other entry becomes a record, and the writer goes on unless
  its result is fatal;
* `Writer.finish_spec` — an accepting writer closes its archive as `closeArchive` does;
* `Faithful.closeArchive`, `Reliable.closeArchive_ok` — the trailer arrives behind the rest.
-/

namespace CpioArchive

open Newc

section Closing

variable {δ ε : Type} [Destination δ ε] {good : δ → Prop} {held : δ → Bytes}

/-- Writes the trailer and flushes. -/
def closeArchive (d : δ) : Except ArchiveError Unit × δ :=
  match writeAll d trailerRecord with
  | (.error cause, d) => (.error (.io cause), d)
  | (.ok (), d) =>
    match Destination.flush d with
    | (.error cause, d) => (.error (.io cause), d)
    | (.ok (), d) => (.ok (), d)

/-- An archive that is closed ends with its trailer, and with a flush that succeeded. -/
theorem of_closeArchive_eq_ok {d next : δ} (h : closeArchive d = (.ok (), next)) :
    ∃ written, writeAll d trailerRecord = (.ok (), written) ∧
      Destination.flush written = (.ok (), next) := by
  rw [closeArchive] at h
  rcases hwrite : writeAll d trailerRecord with ⟨cause | _, written⟩ <;> rw [hwrite] at h
  · cases h
  · dsimp only at h
    rcases hflush : Destination.flush written with ⟨cause | _, flushed⟩ <;> rw [hflush] at h <;>
      cases h
    exact ⟨written, rfl, hflush⟩

/-- An archive that cannot be closed ends with a failed write or a failed flush. -/
theorem closeArchive_error {d : δ} {e : ArchiveError} (h : (closeArchive d).1 = .error e) :
    ∃ cause, e = .io cause := by
  rw [closeArchive] at h
  rcases hwrite : writeAll d trailerRecord with ⟨cause | _, written⟩ <;> rw [hwrite] at h
  · cases h
    exact ⟨cause, rfl⟩
  · dsimp only at h
    rcases hflush : Destination.flush written with ⟨cause | _, flushed⟩ <;> rw [hflush] at h <;>
      cases h
    exact ⟨cause, rfl⟩

/-- An archive that is closed holds the trailer. -/
theorem Faithful.closeArchive (F : Faithful good held) {d next : δ} (hd : good d)
    (h : closeArchive d = (.ok (), next)) : good next ∧ held next = held d ++ trailerRecord := by
  obtain ⟨written, hwrite, hflush⟩ := of_closeArchive_eq_ok h
  obtain ⟨hgood, accepted, -, hheld, hall⟩ := F.writeAll hd trailerRecord
  rw [hwrite] at hgood hheld hall
  obtain rfl := hall rfl
  have hgood' := F.good_flush hgood
  have hheld' := F.held_flush hgood
  rw [hflush] at hgood' hheld'
  exact ⟨hgood', hheld'.trans hheld⟩

theorem Reliable.closeArchive_ok (R : Reliable good held) {d : δ} (hd : good d) :
    ∃ closed, CpioArchive.closeArchive d = (.ok (), closed) := by
  obtain ⟨written, hwrite, hgood⟩ := R.writeAll_ok hd trailerRecord
  have hflush : Destination.flush written = (.ok (), (Destination.flush written).2) :=
    Prod.ext (R.flushes hgood) rfl
  rw [CpioArchive.closeArchive, hwrite]
  dsimp only
  rw [hflush]
  exact ⟨_, rfl⟩

end Closing

/-! ## Appending -/

/-- A header that cannot be written costs its entry only. -/
theorem severity_of_encode {header : Header} {e : ArchiveError} (h : header.encode = .error e) :
    e.severity = .skip ∧ e.isContentFailure = false := by
  rw [Header.encode] at h
  repeat' split at h
  all_goals cases h
  all_goals exact ⟨rfl, rfl⟩

/-- The phase of an accepting writer after an entry. -/
def Phase.after (result : Except ArchiveError RecordSize) : Phase :=
  match result with
  | .ok _ => .accepting
  | .error e => if e.isFatal then .poisoned else .accepting

/-- A record on the destination leaves the writer accepting. -/
theorem Record.after_outcome (record : Record) : Phase.after record.outcome = .accepting := by
  rcases record.outcome_cases with ⟨size, hok⟩ | ⟨e, he, -, hskip⟩
  · rw [hok, Phase.after]
  · rw [he, Phase.after, ArchiveError.isFatal, hskip]
    rfl

/-- The phase of an accepting writer after the archive was closed. -/
def Phase.afterClosing (result : Except ArchiveError Unit) : Phase :=
  match result with
  | .ok _ => .finished
  | .error _ => .poisoned

namespace Writer

variable {δ ε ς : Type} [Destination δ ε] [Source ε ς] {seen : ε → Prop}
variable {good : Counted δ → Prop} {held : Counted δ → Bytes}
variable {writer : Writer CopyBuffer δ ς} {d : Counted δ}

/-- A newc writer in the given phase, with its destination at `d`. -/
structure Stands (writer : Writer CopyBuffer δ ς) (phase : Phase) (d : Counted δ) : Prop where
  encoder : writer.encoder = Newc.encoder (Counted δ) ς
  phase : writer.phase = phase
  destination : writer.destination = d

theorem stands_writer (bufferSize : Nat) (d : δ) :
    (Newc.writer ς bufferSize d).Stands .accepting (.fresh d) := ⟨rfl, rfl, rfl⟩

/-- **An accepting writer lets its encoder write an entry**, and goes on where this leaves the
destination unless the result is fatal. -/
theorem append_accepting (hwriter : writer.Stands .accepting d) (name : Bytes)
    (metadata : Metadata) (source : ς) :
    ∃ buffer, let entry := encodeEntry buffer d name metadata source
      (writer.append name metadata source).1 = entry.1 ∧
        (writer.append name metadata source).2.1.Stands (.after entry.1) entry.2.destination := by
  obtain ⟨encoder, buffer, destination, entries, phase⟩ := writer
  obtain ⟨rfl, rfl, rfl⟩ := hwriter
  refine ⟨buffer, ?_⟩
  rw [append]
  dsimp only [Newc.encoder]
  generalize encodeEntry buffer destination name metadata source = entry
  obtain ⟨result, buffer', destination', source'⟩ := entry
  refine ⟨rfl, rfl, ?_, rfl⟩
  cases result with
  | ok size => rfl
  | error e =>
    dsimp only
    rw [account, Phase.after]
    split <;> rfl

/-- An entry whose header cannot be written leaves the writer as it is. -/
theorem append_refused (hwriter : writer.Stands .accepting d) {name : Bytes}
    {metadata : Metadata} (source : ς) {e : ArchiveError}
    (h : (Header.ofMetadata name metadata).encode = .error e) :
    writer.append name metadata source = (.error e, writer, source) := by
  obtain ⟨encoder, buffer, destination, entries, phase⟩ := writer
  obtain ⟨rfl, rfl, rfl⟩ := hwriter
  have hskip := (severity_of_encode h).1
  rw [append]
  dsimp only [Newc.encoder]
  rw [encodeEntry_refused buffer destination source h]
  simp [account, ArchiveError.isFatal, hskip]

/-- **Every other entry becomes a record**, and the writer goes on unless the result is
fatal. -/
theorem append_spec (F : Faithful good held)
    (henvironment : ∀ {d : Counted δ}, good d → seen (Destination.environment d)) (hd : good d)
    (hwriter : writer.Stands .accepting d) {name : Bytes} {metadata : Metadata} (source : ς)
    {header : Bytes} (h : (Header.ofMetadata name metadata).encode = .ok header) :
    ∃ bytes ending pieces, Delivers seen source bytes ending ∧
      pieces.flatten = (Record.mk name metadata bytes ending).header.image ++
        (Record.mk name metadata bytes ending).body ∧
      (writer.append name metadata source).1 =
        (writeRecord d pieces ⟨name, metadata, bytes, ending⟩).1 ∧
      (writer.append name metadata source).2.1.Stands
        (.after (writer.append name metadata source).1)
        (writeRecord d pieces ⟨name, metadata, bytes, ending⟩).2 := by
  obtain ⟨buffer, hresult, hstands⟩ := append_accepting hwriter name metadata source
  obtain ⟨bytes, ending, pieces, hdelivers, hflatten, hentry⟩ :=
    encodeEntry_spec F henvironment hd buffer source h
  refine ⟨bytes, ending, pieces, hdelivers, hflatten, ?_⟩
  rw [hresult, ← hentry]
  exact ⟨rfl, hstands⟩

/-! ## Closing -/

/-- **An accepting writer closes its archive as `closeArchive` does.** -/
theorem finish_spec (hwriter : writer.Stands .accepting d) :
    (writer.finish).1 = (closeArchive d).1 ∧
      (writer.finish).2.Stands (.afterClosing (closeArchive d).1) (closeArchive d).2 := by
  obtain ⟨encoder, buffer, destination, entries, phase⟩ := writer
  obtain ⟨rfl, rfl, rfl⟩ := hwriter
  rw [finish, closeArchive]
  dsimp only [Newc.encoder]
  rw [encodeTrailer]
  rcases writeAll destination trailerRecord with ⟨cause | _, written⟩
  · exact ⟨rfl, rfl, rfl, rfl⟩
  · dsimp only
    rw [show written.flush = Destination.flush written from rfl]
    rcases Destination.flush written with ⟨cause | _, flushed⟩ <;> exact ⟨rfl, rfl, rfl, rfl⟩

/-- A writer that can close its archive is finished then. -/
theorem finish_of_closeArchive {last : Counted δ} (hwriter : writer.Stands .accepting d)
    (hclose : closeArchive d = (.ok (), last)) :
    ∃ finished, writer.finish = (.ok (), finished) ∧ finished.Stands .finished last := by
  obtain ⟨hfinish, hstands⟩ := finish_spec hwriter
  rw [hclose] at hfinish hstands
  exact ⟨writer.finish.2, Prod.ext hfinish rfl, hstands⟩

theorem release_of_finished (hwriter : writer.Stands .finished d) : writer.release = d.inner := by
  obtain ⟨encoder, buffer, destination, entries, phase⟩ := writer
  obtain ⟨rfl, rfl, rfl⟩ := hwriter
  rfl

theorem release_of_poisoned (hwriter : writer.Stands .poisoned d) :
    writer.release = (Destination.flush d).2.inner := by
  obtain ⟨encoder, buffer, destination, entries, phase⟩ := writer
  obtain ⟨rfl, rfl, rfl⟩ := hwriter
  rfl

end Writer

end CpioArchive
