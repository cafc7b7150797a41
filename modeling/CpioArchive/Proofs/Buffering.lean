import CpioArchive.Proofs.Events

/-!
# The copy buffer is invisible

How a file is read depends on the size of the buffer, on what the buffer held before, and on how
the file hands out its bytes.  None of that has a part in a run, except in how often it counts the
bytes that it read.

A `rehearsal` is the run that knows of each input only its `Outline`; it has no buffer, reads no
file and counts nothing.

* `visitAll_eq_rehearseAll`, `createOn_eq_rehearsal` — but for its counts, a run is a rehearsal, on
  every destination that cannot tell pieces apart;
* `bytesByInput_createOn` — the counts of an input add up to what its file delivers, if the run goes
  through all its inputs;
* `buffer_invisible` — so two runs over sites with the same outlines agree.
-/

namespace CpioArchive

open Newc

/-! ## Visits without their counts -/

namespace Visit

/-- The visit without the counts that were reported while its file was read. -/
def muted : Visit → Visit
  | ⟨path, .skipped reason⟩ => ⟨path, .skipped reason⟩
  | ⟨path, .attempted _ declared result⟩ => ⟨path, .attempted [] declared result⟩

section

variable (visit : Visit)

@[simp] theorem path_muted : visit.muted.path = visit.path := by
  obtain ⟨path, _ | _⟩ := visit <;> rfl

@[simp] theorem reads_muted : visit.muted.reads = [] := by
  obtain ⟨path, _ | _⟩ := visit <;> rfl

@[simp] theorem closingEvent_muted : visit.muted.closingEvent = visit.closingEvent := by
  obtain ⟨path, _ | ⟨_, _, _ | _⟩⟩ := visit <;> rfl

@[simp] theorem fatal?_muted : visit.muted.fatal? = visit.fatal? := by
  obtain ⟨path, _ | ⟨_, _, _ | _⟩⟩ := visit <;> rfl

@[simp] theorem isAdded_muted : visit.muted.isAdded = visit.isAdded := by
  obtain ⟨path, _ | ⟨_, _, _ | _⟩⟩ := visit <;> rfl

@[simp] theorem isContentFailure_muted : visit.muted.isContentFailure = visit.isContentFailure := by
  obtain ⟨path, _ | ⟨_, _, _ | _⟩⟩ := visit <;> rfl

@[simp] theorem skipText?_muted : visit.muted.skipText? = visit.skipText? := by
  obtain ⟨path, _ | ⟨_, _, _ | _⟩⟩ := visit <;> rfl

@[simp] theorem warning?_muted : visit.muted.warning? = visit.warning? := by
  obtain ⟨path, _ | ⟨_, _, _ | _⟩⟩ := visit <;> rfl

@[simp] theorem accountedBytes_muted : visit.muted.accountedBytes = visit.accountedBytes := by
  obtain ⟨path, _ | ⟨_, _, _ | _⟩⟩ := visit <;> rfl

end

end Visit

/-- No report tells how its files were read. -/
theorem Report.ofVisits_muted (visits : List Visit) (bytesWritten : Nat) (elapsed : Duration) :
    Report.ofVisits (visits.map Visit.muted) bytesWritten elapsed =
      .ofVisits visits bytesWritten elapsed := by
  simp [ofVisits, List.countP_map, List.filterMap_map, List.foldr_map, Function.comp_def]

/-- The report without the time that the run took. -/
def Report.timeless (report : Report) : Report := { report with duration := .zero }

namespace Event

/-- The event counts bytes that were read. -/
def isCount : Event → Bool
  | bytesRead _ => true
  | _ => false

/-- Adds up counts, from the last event of a run back to the first; where an input is taken up, its
total is complete. -/
def tally : Event → Nat × List Nat → Nat × List Nat
  | bytesRead count, (total, totals) => (count + total, totals)
  | started .., (total, totals) => (0, total :: totals)
  | _, state => state

end Event

/-- How many bytes the events count for each input, in order. -/
def bytesByInput (events : List Event) : List Nat := (events.foldr Event.tally (0, [])).2

namespace Creation

/-- The run without its counts, and without the time that it took. -/
def muted {δ : Type} (creation : Creation δ) : Creation δ where
  visits := creation.visits.map Visit.muted
  total := creation.total
  result := creation.result.map Report.timeless
  destination := creation.destination

theorem filter_eventsFrom (total number : Nat) (visits : List Visit) :
    (eventsFrom total number visits).filter (!·.isCount) =
      eventsFrom total number (visits.map Visit.muted) := by
  induction visits generalizing number with
  | nil => rfl
  | cons visit rest ih =>
    have hcounts : (visit.reads.map Event.bytesRead).filter (!·.isCount) = [] := by
      rw [List.filter_eq_nil_iff]
      intro event hevent
      obtain ⟨count, -, rfl⟩ := List.mem_map.1 hevent
      exact Bool.false_ne_true
    have hclosing : (!visit.closingEvent.isCount) = true := by
      obtain ⟨path, _ | ⟨_, _, e | _⟩⟩ := visit
      · rfl
      · rw [Visit.closingEvent]
        dsimp only
        split <;> rfl
      · rfl
    have hlast : [visit.closingEvent].filter (!·.isCount) = [visit.closingEvent] :=
      List.filter_cons_of_pos hclosing
    rw [eventsFrom, List.filter_append, ih, List.map_cons, eventsFrom, Visit.events, Visit.events,
      List.filter_cons_of_pos rfl, List.filter_append, hcounts, hlast]
    simp

/-- **The events of a run, but for its counts**, are those of the run without them. -/
theorem events_muted {δ : Type} (creation : Creation δ) :
    creation.muted.events = creation.events.filter (!·.isCount) := by
  obtain ⟨visits, total, result, destination⟩ := creation
  rw [events, events, List.filter_append, filter_eventsFrom]
  cases result <;> rfl

theorem tally_events (visit : Visit) (total number : Nat) (totals : List Nat) :
    (visit.events total number).foldr Event.tally (0, totals) = (0, totalOf visit.reads :: totals) := by
  have hcounts : ∀ counts : List Nat, (counts.map Event.bytesRead).foldr Event.tally (0, totals) =
      (totalOf counts, totals) := by
    intro counts
    induction counts with
    | nil => rfl
    | cons count counts ih =>
      rw [List.map_cons, List.foldr_cons, ih]
      rfl
  have hclosing : visit.closingEvent.tally (0, totals) = (0, totals) := by
    obtain ⟨path, _ | ⟨_, _, e | _⟩⟩ := visit
    · rfl
    · rw [Visit.closingEvent]
      dsimp only
      split <;> rfl
    · rfl
  rw [Visit.events, List.foldr_cons, List.foldr_append, List.foldr_cons, List.foldr_nil, hclosing,
    hcounts]
  rfl

theorem bytesByInput_events {δ : Type} (creation : Creation δ) :
    bytesByInput creation.events = creation.visits.map (totalOf ·.reads) := by
  have hvisits : ∀ (total number : Nat) (visits : List Visit),
      (eventsFrom total number visits).foldr Event.tally (0, []) =
        (0, visits.map (totalOf ·.reads)) := by
    intro total number visits
    induction visits generalizing number with
    | nil => rfl
    | cons visit rest ih => rw [eventsFrom, List.foldr_append, ih, tally_events, List.map_cons]
  rw [bytesByInput, events, List.foldr_append]
  cases creation.result <;> exact congrArg Prod.snd (hvisits _ _ _)

end Creation

/-! ## Rehearsals -/

/-- What a run can learn of an input, except how its file is read. -/
structure Outline where
  path : Bytes
  /-- Why there is no file, or its name, its status and what it delivers. -/
  file : Except SkipReason (Bytes × Status × Bytes × Ending)

/-- The outline of a site. -/
def Site.outline (settings : Settings) (site : Site) : Outline :=
  ⟨site.path, (site.resolved settings).map fun resolved =>
    (resolved.name, resolved.status, resolved.content.delivered)⟩

/-- How many bytes are read for an input, if no write fails. -/
def Outline.readable (outline : Outline) : Nat :=
  match outline.file with
  | .error _ => 0
  | .ok (name, status, delivered, _) =>
    match (Header.ofMetadata name status.normalize).encode with
    | .error _ => 0
    | .ok _ => delivered.length

section Rehearsals

variable {δ ε : Type} [Destination δ ε]

/-- Visits an input of which only the outline is known. -/
def rehearse (d : δ) (outline : Outline) : Visit × δ :=
  match outline.file with
  | .error reason => (⟨outline.path, .skipped reason⟩, d)
  | .ok (name, status, delivered, ending) =>
    match (Header.ofMetadata name status.normalize).encode with
    | .error e => (⟨outline.path, .attempted [] status.normalize.size (.error e)⟩, d)
    | .ok _ =>
      let record : Record := ⟨name, status.normalize, delivered, ending⟩
      let (result, d) := writeRecord d [record.header.image ++ record.body] record
      (⟨outline.path, .attempted [] status.normalize.size result⟩, d)

/-- Visits inputs in order, up to the first fatal error. -/
def rehearseAll (d : δ) : List Outline → List Visit × Option ArchiveError × δ
  | [] => ([], none, d)
  | outline :: rest =>
    let (visit, d) := rehearse d outline
    match visit.fatal? with
    | some e => ([visit], some e, d)
    | none =>
      let (visits, failure, d) := rehearseAll d rest
      (visit :: visits, failure, d)

/-- Rehearses a run. -/
def rehearsal (d : δ) (outlines : List Outline) : Creation δ :=
  match rehearseAll (Counted.fresh d) outlines with
  | (visits, some e, d) => ⟨visits, outlines.length, .error e, (Destination.flush d).2.inner⟩
  | (visits, none, d) =>
    match closeArchive d with
    | (.error e, d) => ⟨visits, outlines.length, .error e, (Destination.flush d).2.inner⟩
    | (.ok (), d) => ⟨visits, outlines.length, .ok (.ofVisits visits d.position .zero), d.inner⟩

variable {good : Counted δ → Prop} {held : Counted δ → Bytes}
variable {d : Counted δ} {writer : Writer CopyBuffer δ (Metered Script)}

/-- What is read of the source of an entry is what it delivers, unless a write fails. -/
theorem Writer.append_drained {source : Metered Script} (hwriter : writer.Stands .accepting d)
    {name : Bytes} {metadata : Metadata} {header : Bytes}
    (hheader : (Header.ofMetadata name metadata).encode = .ok header)
    (hwhole : ∀ cause, (writer.append name metadata source).1 ≠ .error (.io cause)) :
    ∃ bytes, ReadsTo ε source bytes (writer.append name metadata source).2.2 ∧
      bytes = source.inner.delivered.1 := by
  obtain ⟨encoder, buffer, destination, entries, phase⟩ := writer
  obtain ⟨rfl, rfl, rfl⟩ := hwriter
  obtain ⟨bytes, hreads, hdelivers⟩ := encodeEntry_reads buffer destination name metadata source
  obtain ⟨ending, hdelivers⟩ := hdelivers ⟨header, hheader⟩ hwhole
  exact ⟨bytes, hreads, by rw [hdelivers.inner.script]⟩

/-- **What the counts of a visit add up to**, if it lets the run go on. -/
theorem totalOf_reads_visit (hwriter : writer.Stands .accepting d) (settings : Settings)
    (site : Site) (hfatal : (visit writer (site.input settings)).1.fatal? = none) :
    totalOf (visit writer (site.input settings)).1.reads = (site.outline settings).readable := by
  have hseen : ∀ environment : ε,
      (site.input settings).resolve environment = site.resolved settings := fun _ => rfl
  rw [Outline.readable, Site.outline]
  cases hresolved : site.resolved settings with
  | error reason =>
    rw [visit_of_error ((hseen _).trans hresolved)]
    rfl
  | ok resolved =>
    have hresolve := (hseen (Destination.environment writer.destination)).trans hresolved
    rcases happend : writer.append resolved.name resolved.status.normalize
      (.start resolved.content Metered.usualThreshold) with ⟨result, after, source⟩
    rw [visit_of_ok hresolve happend] at hfatal ⊢
    dsimp only [Except.map]
    cases hheader : (Header.ofMetadata resolved.name resolved.status.normalize).encode with
    | error e =>
      rw [Writer.append_refused hwriter _ hheader] at happend
      cases happend
      rfl
    | ok header =>
      have hwhole : ∀ cause, result ≠ .error (.io cause) := by
        rintro cause rfl
        cases hfatal
      obtain ⟨read, hreads, hread⟩ :=
        Writer.append_drained hwriter hheader (by rw [happend]; exact hwhole)
      rw [happend] at hreads
      have hread : read = resolved.content.delivered.1 := hread
      dsimp only [Visit.reads]
      rw [hreads.close.2, Metered.close_start, hread]
      exact Nat.zero_add _

/-- **But for its counts, a visit is a rehearsal**, on every destination that cannot tell pieces
apart. -/
theorem visit_eq_rehearse (S : Seamless good) (F : Faithful good held) (hd : good d)
    (hwriter : writer.Stands .accepting d) (settings : Settings) (site : Site) :
    let visited := visit writer (site.input settings)
    let rehearsed := rehearse d (site.outline settings)
    visited.1.muted = rehearsed.1 ∧ good rehearsed.2 ∧
      visited.2.Stands (.ofFailure visited.1.fatal?) rehearsed.2 ∧
      (visited.1.fatal? = none → totalOf visited.1.reads = (site.outline settings).readable) := by
  intro visited rehearsed
  have hreads := totalOf_reads_visit hwriter settings site
  suffices hvisited : visited.1.muted = rehearsed.1 ∧ good rehearsed.2 ∧
      visited.2.Stands (.ofFailure visited.1.fatal?) rehearsed.2 from
    ⟨hvisited.1, hvisited.2.1, hvisited.2.2, hreads⟩
  subst visited rehearsed
  have hseen : ∀ environment : ε,
      (site.input settings).resolve environment = site.resolved settings := fun _ => rfl
  cases hresolved : site.resolved settings with
  | error reason =>
    have houtline : site.outline settings = ⟨site.path, .error reason⟩ := by
      rw [Site.outline, hresolved]
      rfl
    rw [visit_of_error ((hseen _).trans hresolved), houtline]
    exact ⟨rfl, hd, hwriter⟩
  | ok resolved =>
    have houtline : site.outline settings =
        ⟨site.path, .ok (resolved.name, resolved.status, resolved.content.delivered)⟩ := by
      rw [Site.outline, hresolved]
      rfl
    have hresolve := (hseen (Destination.environment writer.destination)).trans hresolved
    rw [houtline, rehearse]
    dsimp only
    cases hheader : (Header.ofMetadata resolved.name resolved.status.normalize).encode with
    | error e =>
      have hskip := (severity_of_encode hheader).1
      have hfatal : Phase.ofFailure (Visit.mk site.path
          (.attempted [] resolved.status.normalize.size (.error e))).fatal? = .accepting := by
        dsimp only [Visit.fatal?]
        rw [ArchiveError.isFatal, hskip]
        rfl
      rw [visit_of_ok hresolve (Writer.append_refused hwriter _ hheader)]
      exact ⟨rfl, hd, hfatal ▸ hwriter⟩
    | ok header =>
      obtain ⟨bytes, ending, pieces, hdelivers, hflatten, hresult, hstands⟩ :=
        Writer.append_spec F always_environment hd hwriter
          (Metered.start resolved.content Metered.usualThreshold) hheader
      have hdelivered : resolved.content.delivered = (bytes, ending) := hdelivers.inner.script
      have hgood := (F.writeRecord hd hflatten).1
      rw [S.writeRecord F hd hflatten] at hresult hstands hgood
      rw [hdelivered]
      dsimp only
      generalize writeRecord d _ (Record.mk resolved.name resolved.status.normalize bytes ending) =
        written at hresult hstands hgood ⊢
      rcases happend : writer.append resolved.name resolved.status.normalize
        (.start resolved.content Metered.usualThreshold) with ⟨result, after, source⟩
      rw [happend] at hresult hstands
      obtain ⟨result', next⟩ := written
      obtain rfl : result = result' := hresult
      rw [visit_of_ok hresolve happend]
      have hphase : Phase.after result = .ofFailure (Visit.mk site.path
          (.attempted source.close resolved.status.normalize.size result)).fatal? :=
        Phase.after_eq_ofFailure rfl
      exact ⟨rfl, hgood, hphase ▸ hstands⟩

/-- **But for their counts, visits are rehearsals.** -/
theorem visitAll_eq_rehearseAll (S : Seamless good) (F : Faithful good held) (hd : good d)
    (hwriter : writer.Stands .accepting d) (settings : Settings) (sites : List Site) :
    let visited := visitAll writer (sites.map (·.input settings))
    let rehearsed := rehearseAll d (sites.map (·.outline settings))
    visited.1.map Visit.muted = rehearsed.1 ∧ visited.2.1 = rehearsed.2.1 ∧
      visited.2.2.Stands (.ofFailure rehearsed.2.1) rehearsed.2.2 ∧
      (visited.2.1 = none → visited.1.map (totalOf ·.reads) =
        (sites.map (·.outline settings)).map Outline.readable) := by
  induction sites generalizing writer d with
  | nil => exact ⟨rfl, rfl, hwriter, fun _ => rfl⟩
  | cons site sites ih =>
    obtain ⟨hmuted, hgood, hstands, htotal⟩ := visit_eq_rehearse S F hd hwriter settings site
    have hfatal : (rehearse d (site.outline settings)).1.fatal? =
        (visit writer (site.input settings)).1.fatal? := by
      rw [← hmuted, Visit.fatal?_muted]
    simp only [List.map_cons]
    rw [rehearseAll]
    dsimp only
    rw [hfatal]
    cases hfailure : (visit writer (site.input settings)).1.fatal? with
    | some e =>
      rw [hfailure] at hstands
      rw [visitAll_fatal hfailure]
      exact ⟨congrArg (fun visit => [visit]) hmuted, rfl, hstands, nofun⟩
    | none =>
      rw [hfailure] at hstands
      obtain ⟨hvisits, hend, hlast, htotals⟩ := ih hgood hstands
      rw [visitAll_cons hfailure rfl]
      refine ⟨List.cons_eq_cons.2 ⟨hmuted, hvisits⟩, hend, hlast, fun hnone => ?_⟩
      exact List.cons_eq_cons.2 ⟨htotal hfailure, htotals hnone⟩

section Writes

variable (hwrites : ∀ {d : Counted δ}, good d → ∀ bytes,
  ∃ next, writeAll d bytes = (.ok (), next) ∧ good next)

include hwrites

/-- Where no write fails, every record is written. -/
theorem writeRecord_of_writes (hd : good d) (bytes : Bytes) (record : Record) :
    ∃ next, writeRecord d [bytes] record = (record.outcome, next) ∧ good next := by
  obtain ⟨next, hfirst, hgood⟩ := hwrites hd bytes
  obtain ⟨last, hpadding, hgood'⟩ := hwrites hgood record.padding
  refine ⟨last, ?_, hgood'⟩
  rw [writeRecord, writePieces, hfirst]
  dsimp only
  rw [writePieces]
  dsimp only
  rw [hpadding]

theorem rehearse_of_writes (hd : good d) (outline : Outline) :
    (rehearse d outline).1.fatal? = none ∧ good (rehearse d outline).2 := by
  obtain ⟨path, reason | ⟨name, status, delivered, ending⟩⟩ := outline
  · exact ⟨rfl, hd⟩
  · rw [rehearse]
    dsimp only
    cases hheader : (Header.ofMetadata name status.normalize).encode with
    | error e =>
      refine ⟨?_, hd⟩
      dsimp only [Visit.fatal?]
      rw [ArchiveError.isFatal, (severity_of_encode hheader).1]
      rfl
    | ok header =>
      dsimp only
      obtain ⟨next, hwrite, hgood⟩ := writeRecord_of_writes hwrites hd _
        (Record.mk name status.normalize delivered ending)
      rw [hwrite]
      exact ⟨Record.fatal?_eq_none ⟨name, status.normalize, delivered, ending⟩ rfl, hgood⟩

/-- Where no write fails, no rehearsal ends early. -/
theorem rehearseAll_of_writes (hd : good d) (outlines : List Outline) :
    (rehearseAll d outlines).2.1 = none := by
  induction outlines generalizing d with
  | nil => rfl
  | cons outline outlines ih =>
    obtain ⟨hfatal, hgood⟩ := rehearse_of_writes hwrites hd outline
    rw [rehearseAll]
    dsimp only
    rw [hfatal]
    exact ih hgood

end Writes

/-- **But for its counts and its time, a run is a rehearsal**, whatever its buffer holds. -/
theorem createOn_eq_rehearsal {good : δ → Prop} {held : δ → Bytes} (S : Seamless good)
    (F : Faithful good held) {d : δ} (hd : good d) (buffer : CopyBuffer) (settings : Settings)
    (sites : List Site) (elapsed : Duration) :
    (createOn (.fresh (Newc.encoder (Counted δ) (Metered Script)) buffer d)
      (sites.map (·.input settings)) elapsed).muted =
        rehearsal d (sites.map (·.outline settings)) := by
  have hwriter : (Writer.fresh (Newc.encoder (Counted δ) (Metered Script)) buffer d).Stands
      .accepting (.fresh d) := ⟨rfl, rfl, rfl⟩
  obtain ⟨hvisits, hfailure, hstands, -⟩ := visitAll_eq_rehearseAll (S.counted F _)
    (F.counted (held d).length) (Counted.tracks_fresh hd) hwriter settings sites
  rw [rehearsal, List.length_map]
  generalize rehearseAll (Counted.fresh d) (sites.map (·.outline settings)) = rehearsed
    at hvisits hfailure hstands ⊢
  obtain ⟨rehearsedVisits, failure, last⟩ := rehearsed
  rcases hvisited : visitAll (Writer.fresh (Newc.encoder (Counted δ) (Metered Script)) buffer d)
    (sites.map (·.input settings)) with ⟨visits, failure', after⟩
  rw [hvisited] at hvisits hfailure hstands
  obtain rfl : failure' = failure := hfailure
  obtain rfl : visits.map Visit.muted = rehearsedVisits := hvisits
  have htotal : (sites.map (·.input (ε := ε) settings)).length = sites.length := List.length_map _
  cases failure' with
  | some e =>
    rw [createOn_of_fatal hvisited, Writer.release_of_poisoned hstands, htotal]
    rfl
  | none =>
    dsimp only
    rcases hclose : closeArchive last with ⟨e | _, closed⟩
    · rw [createOn_of_closeArchive_error hvisited hstands hclose, htotal]
      rfl
    · rw [createOn_of_visitAll hvisited hstands hclose, htotal]
      dsimp only
      rw [Report.ofVisits_muted]
      rfl

/-- **The counts of an input add up to what its file delivers**, if the run goes through all its
inputs, whatever the buffer holds. -/
theorem bytesByInput_createOn {good : δ → Prop} {held : δ → Bytes} (S : Seamless good)
    (F : Faithful good held) {d : δ} (hd : good d) (buffer : CopyBuffer) (settings : Settings)
    (sites : List Site) (elapsed : Duration)
    (hfailure : (rehearseAll (Counted.fresh d) (sites.map (·.outline settings))).2.1 = none) :
    bytesByInput (createOn (.fresh (Newc.encoder (Counted δ) (Metered Script)) buffer d)
      (sites.map (·.input settings)) elapsed).events =
        (sites.map (·.outline settings)).map Outline.readable := by
  have hwriter : (Writer.fresh (Newc.encoder (Counted δ) (Metered Script)) buffer d).Stands
      .accepting (.fresh d) := ⟨rfl, rfl, rfl⟩
  obtain ⟨-, hend, -, htotals⟩ := visitAll_eq_rehearseAll (S.counted F _)
    (F.counted (held d).length) (Counted.tracks_fresh hd) hwriter settings sites
  rw [Creation.bytesByInput_events, (visits_createOn _ _ _).1, htotals (hend.trans hfailure)]

/-- A run that tells of no fatal error goes through all its inputs, and so does its rehearsal. -/
theorem rehearseAll_of_events {good : δ → Prop} {held : δ → Bytes} (S : Seamless good)
    (F : Faithful good held) {d : δ} (hd : good d) (buffer : CopyBuffer) (settings : Settings)
    (sites : List Site) (elapsed : Duration)
    (h : ∀ path e, .failed path e ∈ (createOn
      (.fresh (Newc.encoder (Counted δ) (Metered Script)) buffer d)
      (sites.map (·.input settings)) elapsed).events → e.isFatal = false) :
    (rehearseAll (Counted.fresh d) (sites.map (·.outline settings))).2.1 = none := by
  have hwriter : (Writer.fresh (Newc.encoder (Counted δ) (Metered Script)) buffer d).Stands
      .accepting (.fresh d) := ⟨rfl, rfl, rfl⟩
  obtain ⟨-, hend, -⟩ := visitAll_eq_rehearseAll (S.counted F _)
    (F.counted (held d).length) (Counted.tracks_fresh hd) hwriter settings sites
  rw [← hend]
  rcases hvisits : visitAll (Writer.fresh (Newc.encoder (Counted δ) (Metered Script)) buffer d)
    (sites.map (·.input settings)) with ⟨visits, _ | e, after⟩
  · rw [hvisits]
  · obtain ⟨hfatal, path, hmem⟩ := failed_mem_events hvisits elapsed
    rw [h path e hmem] at hfatal
    cases hfatal

/-- Where no write fails, a run goes through all its inputs. -/
theorem rehearseAll_fresh_of_writes {good : δ → Prop} {held : δ → Bytes} (F : Faithful good held)
    (hwrites : ∀ {d : δ}, good d → ∀ bytes, (writeAll d bytes).1 = .ok ()) {d : δ} (hd : good d)
    (outlines : List Outline) : (rehearseAll (Counted.fresh d) outlines).2.1 = none := by
  have hfresh : Counted.Tracks good held (held d).length (.fresh d) := Counted.tracks_fresh hd
  refine rehearseAll_of_writes (fun {e} he bytes => ?_) hfresh outlines
  have hok : (writeAll e bytes).1 = .ok () := by
    rw [(Counted.writeAll_inner e bytes).1, hwrites he.1]
  exact ⟨_, Prod.ext hok rfl, ((F.counted (held d).length).writeAll he bytes).1⟩

end Rehearsals

/-! ## Two runs -/

/-- A buffer of a size, with one byte at least, in which some bytes are left from before. -/
def CopyBuffer.used (size : Nat) (stale : Bytes) : CopyBuffer := { ofSize size with held := stale }

/-- **The copy buffer is invisible.**  Two runs over sites with the same outlines, on the same sink,
leave the same sink behind, come to the same end but for the time that they took, and tell the same
but for the counts; neither the sizes of their buffers have a part in that, nor what the buffers
held before, nor how each file hands out its bytes.  The sink may fail at any offset, for good or
once, take any number of bytes in a call, be interrupted first, and fail when it is flushed.  Unless
it fails fatally before the last input, the counts of each input add up to the same as well; a sink
in which no write fails does not. -/
theorem buffer_invisible (sink : Sink) (size₁ size₂ : Nat) (stale₁ stale₂ : Bytes)
    (settings₁ settings₂ : Settings) (sites₁ sites₂ : List Site) (elapsed₁ elapsed₂ : Duration)
    (houtline : sites₁.map (·.outline settings₁) = sites₂.map (·.outline settings₂)) :
    let encoder := Newc.encoder (Counted Sink) (Metered Script)
    let creation₁ := createOn (.fresh encoder (.used size₁ stale₁) sink)
      (sites₁.map (·.input settings₁)) elapsed₁
    let creation₂ := createOn (.fresh encoder (.used size₂ stale₂) sink)
      (sites₂.map (·.input settings₂)) elapsed₂
    creation₁.destination = creation₂.destination ∧
      creation₁.result.map Report.timeless = creation₂.result.map Report.timeless ∧
      creation₁.events.filter (!·.isCount) = creation₂.events.filter (!·.isCount) ∧
      ((∀ path e, .failed path e ∈ creation₁.events → e.isFatal = false) ∨ sink.Writable →
        bytesByInput creation₁.events = bytesByInput creation₂.events) := by
  intro encoder creation₁ creation₂
  have hrehearsal : creation₁.muted = creation₂.muted := by
    rw [createOn_eq_rehearsal Sink.seamless Sink.faithful trivial, houtline,
      createOn_eq_rehearsal Sink.seamless Sink.faithful trivial]
  have hdestination : creation₁.muted.destination = creation₂.muted.destination := by
    rw [hrehearsal]
  have hresult : creation₁.muted.result = creation₂.muted.result := by rw [hrehearsal]
  refine ⟨hdestination, hresult, ?_, fun hgoes => ?_⟩
  · rw [← Creation.events_muted, hrehearsal, Creation.events_muted]
  · have hfailure : (rehearseAll (Counted.fresh sink)
        (sites₁.map (·.outline settings₁))).2.1 = none := by
      rcases hgoes with hevents | hwritable
      · exact rehearseAll_of_events Sink.seamless Sink.faithful trivial _ _ _ elapsed₁ hevents
      · exact rehearseAll_fresh_of_writes Sink.Writable.faithful Sink.Writable.writeAll_eq_ok
          hwritable _
    rw [bytesByInput_createOn Sink.seamless Sink.faithful trivial _ _ _ _ hfailure]
    rw [houtline] at hfailure ⊢
    rw [bytesByInput_createOn Sink.seamless Sink.faithful trivial _ _ _ _ hfailure]

/-- A file of three bytes in one part, and in two with an interruption between them; on a sink that
fails once inside the record, through an empty buffer of 4096 bytes and through one of a single
byte that is not empty. -/
theorem buffer_invisible_short_reads :
    let sink : Sink := { failOnceAt := some 113, interrupts := 2, largestWrite := some 7 }
    let sites₁ := [Site.ofFile [97] (.regular 5 0o644) ⟨[.deliver [1, 2, 3]]⟩]
    let sites₂ := [Site.ofFile [97] (.regular 5 0o644)
      ⟨[.deliver [1], .refuse .interrupted, .deliver [2, 3]]⟩]
    let encoder := Newc.encoder (Counted Sink) (Metered Script)
    sites₁.map (·.outline {}) = sites₂.map (·.outline {}) ∧
      (createOn (.fresh encoder (.used 4096 []) sink)
          (sites₁.map (·.input {})) .zero).destination =
        (createOn (.fresh encoder (.used 0 [9, 9, 9]) sink)
          (sites₂.map (·.input {})) .zero).destination := by
  intro sink sites₁ sites₂ encoder
  have houtline : sites₁.map (·.outline {}) = sites₂.map (·.outline {}) := rfl
  exact ⟨houtline,
    (buffer_invisible sink 4096 0 [] [9, 9, 9] {} {} sites₁ sites₂ .zero .zero houtline).1⟩

end CpioArchive
