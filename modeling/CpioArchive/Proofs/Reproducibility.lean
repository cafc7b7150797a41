import CpioArchive.Proofs.Sites

/-!
# Reproducibility

Of an input only its record has a part in the archive, in the outcome of the run, and in what the
report counts.  `replay` is the run that knows nothing else: it has no host, no paths, no statuses
and no buffer.

* `visitAll_eq_replay` — visiting sites is replaying their records, on every destination that
  cannot tell pieces apart;
* `createOn_eq_replayRun` — so is a whole run;
* `reproducible` — two runs over sites with the same essence leave the same sink behind and come
  to the same end.
-/

namespace CpioArchive

open Newc

/-! ## What is counted -/

/-- What a report counts of the visits. -/
structure Totals where
  added : Nat
  failed : Nat
  accounted : Nat
  deriving DecidableEq

/-- The totals of some visits. -/
def Totals.ofVisits (visits : List Visit) : Totals where
  added := visits.countP (·.isAdded)
  failed := visits.countP (·.isContentFailure)
  accounted := visits.foldr (fun visit total => visit.accountedBytes + total) 0

/-- The totals that a report states. -/
def Report.totals (report : Report) : Totals :=
  ⟨report.filesAdded, report.entriesFailed, report.bytesRead⟩

/-- A blank visit counts for nothing. -/
theorem Totals.ofVisits_blank {visit : Visit} (h : visit.IsBlank) (visits : List Visit) :
    ofVisits (visit :: visits) = ofVisits visits := by
  rw [ofVisits, ofVisits, List.countP_cons, List.countP_cons, List.foldr_cons, h.isAdded,
    h.isContentFailure, h.accountedBytes, Nat.zero_add]
  rfl

/-- Only the outcome of a visit counts, and of that neither the path nor the reads. -/
theorem Totals.ofVisits_attempted {visit visit' : Visit} {reads reads' : List Nat}
    {declared : Nat} {result : Except ArchiveError RecordSize} {visits visits' : List Visit}
    (h : visit.outcome = .attempted reads declared result)
    (h' : visit'.outcome = .attempted reads' declared result)
    (hrest : ofVisits visits = ofVisits visits') :
    ofVisits (visit :: visits) = ofVisits (visit' :: visits') := by
  simp only [ofVisits, Totals.mk.injEq] at hrest
  simp only [ofVisits, Totals.mk.injEq, List.countP_cons, List.foldr_cons]
  rw [hrest.1, hrest.2.1, hrest.2.2]
  cases result <;> simp only [Visit.isAdded, Visit.isContentFailure, Visit.accountedBytes, h, h',
    and_self]

/-! ## Replaying records -/

section Replay

variable {δ ε : Type} [Destination δ ε]

/-- Writes records in order, up to the first fatal error, and remembers a visit for each. -/
def replay (d : δ) : List Record → List Visit × Option ArchiveError × δ
  | [] => ([], none, d)
  | record :: rest =>
    let (result, d) := writeRecord d [record.header.image ++ record.body] record
    let visit : Visit := ⟨record.name, .attempted [] record.metadata.size result⟩
    match visit.fatal? with
    | some e => ([visit], some e, d)
    | none =>
      let (visits, failure, d) := replay d rest
      (visit :: visits, failure, d)

/-- Replays records on a destination and closes the archive. -/
def replayRun (d : δ) (records : List Record) : Except ArchiveError (Totals × Nat) × δ :=
  match replay (Counted.fresh d) records with
  | (_, some e, d) => (.error e, (Destination.flush d).2.inner)
  | (visits, none, d) =>
    match closeArchive d with
    | (.error e, d) => (.error e, (Destination.flush d).2.inner)
    | (.ok (), d) => (.ok (.ofVisits visits, d.position), d.inner)

/-- **Visiting sites is replaying their records**, on every destination that cannot tell pieces
apart. -/
theorem visitAll_eq_replay {good : Counted δ → Prop} {held : Counted δ → Bytes}
    (S : Seamless good) (F : Faithful good held) {d : Counted δ} (hd : good d)
    {writer : Writer CopyBuffer δ (Metered Script)} (hwriter : writer.Stands .accepting d)
    (settings : Settings) (sites : List Site) :
    let visited := visitAll writer (sites.map (·.input settings))
    let replayed := replay d (sites.filterMap (·.record? settings))
    Totals.ofVisits visited.1 = Totals.ofVisits replayed.1 ∧ visited.2.1 = replayed.2.1 ∧
      visited.2.2.Stands (.ofFailure replayed.2.1) replayed.2.2 := by
  induction sites generalizing writer d with
  | nil => exact ⟨rfl, rfl, hwriter⟩
  | cons site sites ih =>
    rw [List.map_cons]
    rcases visit_spec F always_environment hd hwriter (site.input settings) with ⟨hinput, hblank, hsame⟩ |
      ⟨record, reads, pieces, hinput, hflatten, hattempted, hstands⟩
    · obtain ⟨htotals, hrest⟩ := ih hd hwriter
      rw [List.filterMap_cons, ← Site.contributes_input hinput]
      generalize hvisits : visitAll writer (sites.map (·.input settings)) = visited
        at htotals hrest
      obtain ⟨visits, failure, after⟩ := visited
      rw [← hsame] at hvisits
      rw [visitAll_cons hblank.fatal? hvisits]
      exact ⟨(Totals.ofVisits_blank hblank visits).trans htotals, hrest⟩
    · rw [List.filterMap_cons, ← Site.contributes_input hinput]
      dsimp only
      rw [replay]
      have hwhole : [record.header.image ++ record.body].flatten =
          record.header.image ++ record.body := List.flatten_singleton
      have hgood := (F.writeRecord hd hwhole).1
      rw [S.writeRecord F hd hflatten] at hattempted hstands
      generalize writeRecord d [record.header.image ++ record.body] record = written
        at hgood hattempted hstands ⊢
      obtain ⟨result, next⟩ := written
      dsimp only at hgood hattempted hstands ⊢
      generalize hreplayed : Visit.mk record.name (.attempted [] record.metadata.size result) =
        replayed
      have hreplayed' : replayed.outcome = .attempted [] record.metadata.size result := by
        rw [← hreplayed]
      have hfatal := Visit.fatal?_attempted hattempted hreplayed'
      rw [Phase.after_eq_ofFailure hreplayed'] at hstands
      cases hfailure : replayed.fatal? with
      | some e =>
        rw [hfailure] at hfatal hstands
        rw [visitAll_fatal hfatal]
        exact ⟨Totals.ofVisits_attempted hattempted hreplayed' rfl, rfl, hstands⟩
      | none =>
        rw [hfailure] at hfatal hstands
        obtain ⟨htotals, hrest⟩ := ih hgood hstands
        generalize hvisits : visitAll (visit writer (site.input settings)).2
          (sites.map (·.input settings)) = visited at htotals hrest
        obtain ⟨visits, failure, after⟩ := visited
        rw [visitAll_cons hfatal hvisits]
        exact ⟨Totals.ofVisits_attempted hattempted hreplayed' htotals, hrest⟩

/-- **A run over sites is a replay of their records**, on every destination that cannot tell
pieces apart: what it leaves behind, how it ends and what it counts. -/
theorem createOn_eq_replayRun {good : δ → Prop} {held : δ → Bytes} (S : Seamless good)
    (F : Faithful good held) {d : δ} (hd : good d) (bufferSize : Nat) (settings : Settings)
    (sites : List Site) (elapsed : Duration) :
    let creation := createOn (Newc.writer (Metered Script) bufferSize d)
      (sites.map (·.input settings)) elapsed
    (creation.result.map fun report => (report.totals, report.bytesWritten),
        creation.destination) =
      replayRun d (sites.filterMap (·.record? settings)) := by
  have S' : Seamless (Counted.Tracks good held (held d).length) := S.counted F _
  have F' := F.counted (held d).length
  obtain ⟨htotals, hfailure, hstands⟩ := visitAll_eq_replay S' F' (Counted.tracks_fresh hd)
    (Writer.stands_writer bufferSize d) settings sites
  rw [replayRun]
  generalize replay (Counted.fresh d) (sites.filterMap (·.record? settings)) = replayed
    at htotals hfailure hstands ⊢
  obtain ⟨replayedVisits, failure, last⟩ := replayed
  rcases hvisited : visitAll (Newc.writer (Metered Script) bufferSize d)
    (sites.map (·.input settings)) with ⟨visits, failure', after⟩
  rw [hvisited] at htotals hfailure hstands
  obtain rfl : failure' = failure := hfailure
  cases failure' with
  | some e =>
    rw [createOn_of_fatal hvisited, Writer.release_of_poisoned hstands]
    rfl
  | none =>
    dsimp only
    rcases hclose : closeArchive last with ⟨e | _, closed⟩
    · rw [createOn_of_closeArchive_error hvisited hstands hclose]
      rfl
    · rw [createOn_of_visitAll hvisited hstands hclose]
      dsimp only
      rw [← show Totals.ofVisits visits = Totals.ofVisits replayedVisits from htotals]
      rfl

end Replay

/-! ## Two runs -/

/-- What reproducible archives depend on: the name, the mode and the size of a file, and what it
delivers. -/
structure Essence where
  name : Bytes
  mode : Nat
  size : Nat
  delivered : Bytes × Ending
  deriving DecidableEq

/-- The essence of a site.  A site that does not resolve, or whose header cannot be written, has
none. -/
def Site.essence? (settings : Settings) (site : Site) : Option Essence :=
  match site.resolved settings with
  | .error _ => none
  | .ok ⟨_, name, status, content⟩ =>
    match (Header.ofMetadata name status.normalize).encode with
    | .error _ => none
    | .ok _ => some ⟨name, status.mode, status.size, content.delivered⟩

/-- The record that an essence makes up. -/
def Essence.record (essence : Essence) : Record :=
  ⟨essence.name, .bare essence.size essence.mode, essence.delivered.1, essence.delivered.2⟩

/-- A record depends on the essence of its site and on nothing else. -/
theorem Site.map_record_essence? (settings : Settings) (site : Site) :
    (site.essence? settings).map Essence.record = site.record? settings := by
  rw [essence?, record?]
  rcases site.resolved settings with _ | ⟨_, name, status, content⟩
  · rfl
  · dsimp only
    cases (Header.ofMetadata name status.normalize).encode <;> rfl

theorem Site.filterMap_record? (settings : Settings) (sites : List Site) :
    sites.filterMap (·.record? settings) =
      (sites.filterMap (·.essence? settings)).map Essence.record := by
  rw [List.map_filterMap]
  simp only [map_record_essence?]

/-- **Two runs over sites with the same essence, on the same sink, leave the same sink behind and
come to the same end**: both succeed, with the same counts, or both fail with the same error.
Nothing else of the files has a part in that, nor have the inputs that get no record, the
settings or the sizes of the buffers; and the sink may fail at any offset, for good or once. -/
theorem reproducible (sink : Sink) (bufferSize₁ bufferSize₂ : Nat) (settings₁ settings₂ : Settings)
    (sites₁ sites₂ : List Site) (elapsed₁ elapsed₂ : Duration)
    (hessence : sites₁.filterMap (·.essence? settings₁) = sites₂.filterMap (·.essence? settings₂)) :
    let creation₁ := createOn (Newc.writer (Metered Script) bufferSize₁ sink)
      (sites₁.map (·.input settings₁)) elapsed₁
    let creation₂ := createOn (Newc.writer (Metered Script) bufferSize₂ sink)
      (sites₂.map (·.input settings₂)) elapsed₂
    creation₁.destination = creation₂.destination ∧
      match creation₁.result, creation₂.result with
      | .ok report₁, .ok report₂ =>
        report₁.filesAdded = report₂.filesAdded ∧
          report₁.entriesFailed = report₂.entriesFailed ∧
          report₁.bytesRead = report₂.bytesRead ∧ report₁.bytesWritten = report₂.bytesWritten
      | .error e₁, .error e₂ => e₁ = e₂
      | _, _ => False := by
  intro creation₁ creation₂
  have hrun₁ := createOn_eq_replayRun Sink.seamless Sink.faithful (d := sink) trivial bufferSize₁
    settings₁ sites₁ elapsed₁
  have hrun₂ := createOn_eq_replayRun Sink.seamless Sink.faithful (d := sink) trivial bufferSize₂
    settings₂ sites₂ elapsed₂
  rw [Site.filterMap_record?, hessence, ← Site.filterMap_record?, ← hrun₂, Prod.mk.injEq] at hrun₁
  obtain ⟨hresult, hdestination⟩ := hrun₁
  refine ⟨hdestination, ?_⟩
  change creation₁.result.map _ = creation₂.result.map _ at hresult
  generalize creation₁.result = result₁ at hresult ⊢
  generalize creation₂.result = result₂ at hresult ⊢
  rcases result₁ with e₁ | report₁ <;> rcases result₂ with e₂ | report₂ <;>
    simp only [Except.map, reduceCtorEq, Except.error.injEq, Except.ok.injEq, Prod.mk.injEq,
      Report.totals, Totals.mk.injEq] at hresult
  · exact hresult
  · obtain ⟨⟨hadded, hfailed, hread⟩, hwritten⟩ := hresult
    exact ⟨hadded, hfailed, hread, hwritten⟩

/-- A file, and the same bytes in somebody else's file in another directory, read in two parts and
behind a path that is passed over; on a sink that fails inside the record. -/
theorem reproducible_elsewhere :
    let sink : Sink := { failOnceAt := some 113, interrupts := 2 }
    let sites₁ := [Site.ofFile [97] (.regular 3 0o644) ⟨[.deliver [1, 2, 3]]⟩]
    let sites₂ := [Site.ofFile [98, 47] (.regular 5 0o600) ⟨[.refuse .noSuchFile]⟩,
      Site.ofFile [98, 47, 97] { Status.regular 3 0o644 with uid := 1000, modificationTime := 7 }
        ⟨[.deliver [1], .refuse .interrupted, .deliver [2, 3]]⟩]
    sites₁.filterMap (·.essence? {}) = sites₂.filterMap (·.essence? {}) ∧
      (createOn (Newc.writer (Metered Script) 512 sink)
          (sites₁.map (·.input {})) .zero).destination =
        (createOn (Newc.writer (Metered Script) 4096 sink)
          (sites₂.map (·.input {})) .zero).destination := by
  intro sink sites₁ sites₂
  have hessence : sites₁.filterMap (·.essence? {}) = sites₂.filterMap (·.essence? {}) := by decide
  exact ⟨hessence, (reproducible sink 512 4096 {} {} sites₁ sites₂ .zero .zero hessence).1⟩

end CpioArchive
