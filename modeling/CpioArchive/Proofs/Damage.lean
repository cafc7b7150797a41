import Mathlib
import CpioArchive.Proofs.Arrivals
import CpioArchive.Proofs.Sites

/-!
# Damaged contents

What a run tells about inputs whose content is not what their header declares, on a destination
that may refuse any write.

* `Visit.Tells` — how a visit counts the record it wrote;
* `Faithful.visitAll_receives` — what the destination receives from the visits of a run that met no
  fatal error;
* `damage_reported` — a damaged record is counted as failed, unless its padding was lost as well;
* `damage_hidden` — and then it is counted as added.
-/

namespace CpioArchive

open Newc

/-! ## Single visits -/

instance : DecidablePred Record.IsIntact := fun record =>
  inferInstanceAs (Decidable (record.delivered.length = record.metadata.size ∧ _))

/-- How a visit counts the record that it wrote. -/
structure Visit.Tells (visit : Visit) (arrival : Arrival) : Prop where
  /-- An input is counted as added if its content is intact, and also if its padding was lost. -/
  isAdded_iff : visit.isAdded = true ↔ arrival.record.IsIntact ∨ arrival.missing ≠ 0
  /-- It is counted as failed if its content is damaged and its padding is there. -/
  isContentFailure_iff :
    visit.isContentFailure = true ↔ ¬ arrival.record.IsIntact ∧ arrival.missing = 0
  /-- Lost padding is always told of. -/
  isPadded_iff : visit.IsPadded ↔ arrival.missing = 0

/-- The result of a record decides how its visit counts it. -/
theorem Arrival.Reports.tells {arrival : Arrival} {result : Except ArchiveError RecordSize}
    (h : arrival.Reports result) {visit : Visit} {reads : List Nat} {declared : Nat}
    (hvisit : visit.outcome = .attempted reads declared result) : visit.Tells arrival := by
  have hpadded : visit.IsPadded ↔ ¬ IsUnpadded result := by
    constructor
    · rintro hpadded ⟨cause, rfl⟩
      exact hpadded reads declared cause hvisit
    · rintro hpadded reads' declared' cause hattempted
      rw [hvisit] at hattempted
      exact hpadded ⟨cause, (Outcome.attempted.inj hattempted).2.2⟩
  rw [h.isUnpadded_iff, Decidable.not_not] at hpadded
  refine ⟨?_, ?_, hpadded⟩
  · rw [Visit.isAdded, hvisit]
    cases h with
    | whole record =>
      by_cases hintact : record.IsIntact
      · simp [Record.outcome_of_isIntact hintact, hintact]
      · obtain ⟨e, he, hcontent⟩ := Record.outcome_of_not_isIntact hintact
        rw [he]
        cases e <;> cases hcontent <;> simp [hintact, ArchiveError.severity]
    | unpadded cause hpos _ => simp [ArchiveError.severity, Nat.ne_of_gt hpos]
  · rw [Visit.isContentFailure, hvisit]
    cases h with
    | whole record =>
      by_cases hintact : record.IsIntact
      · simp [Record.outcome_of_isIntact hintact, hintact]
      · obtain ⟨e, he, hcontent⟩ := Record.outcome_of_not_isIntact hintact
        rw [he]
        simp [hintact, hcontent]
    | unpadded cause hpos _ => simp [ArchiveError.isContentFailure, Nat.ne_of_gt hpos]

/-! ## All visits -/

section Runs

variable {δ ε ς : Type} [Source ε ς] {seen : ε → Prop}

/-- The inputs, what a run remembers of them, and what the destination received from them, when no
visit met a fatal error. -/
inductive Receives (seen : ε → Prop) : List (Input ε ς) → List Visit → List Arrival → Prop
  | nil : Receives seen [] [] []
  | blank {input : Input ε ς} {inputs : List (Input ε ς)} {visit : Visit} {visits : List Visit}
      {arrivals : List Arrival} (hinput : Contributes seen input none) (hvisit : visit.IsBlank)
      (hrest : Receives seen inputs visits arrivals) :
      Receives seen (input :: inputs) (visit :: visits) arrivals
  | recorded {input : Input ε ς} {inputs : List (Input ε ς)} {visit : Visit}
      {visits : List Visit} {arrival : Arrival} {arrivals : List Arrival}
      (hinput : Contributes seen input (some arrival.record)) (hvisit : visit.Tells arrival)
      (hrest : Receives seen inputs visits arrivals) :
      Receives seen (input :: inputs) (visit :: visits) (arrival :: arrivals)

variable {inputs : List (Input ε ς)} {visits : List Visit} {arrivals : List Arrival}

/-- How many inputs a run counts as added. -/
theorem Receives.countP_isAdded (h : Receives seen inputs visits arrivals) :
    visits.countP (·.isAdded) =
      arrivals.countP fun arrival => arrival.record.IsIntact ∨ arrival.missing ≠ 0 := by
  induction h with
  | nil => rfl
  | blank _ hvisit _ ih => simp [hvisit.isAdded, ih]
  | recorded _ hvisit _ ih =>
    rw [List.countP_cons, List.countP_cons, ih]
    simp only [decide_eq_true_eq, hvisit.isAdded_iff]

/-- How many inputs a run counts as failed. -/
theorem Receives.countP_isContentFailure (h : Receives seen inputs visits arrivals) :
    visits.countP (·.isContentFailure) =
      arrivals.countP fun arrival => ¬ arrival.record.IsIntact ∧ arrival.missing = 0 := by
  induction h with
  | nil => rfl
  | blank _ hvisit _ ih => simp [hvisit.isContentFailure, ih]
  | recorded _ hvisit _ ih =>
    rw [List.countP_cons, List.countP_cons, ih]
    simp only [decide_eq_true_eq, hvisit.isContentFailure_iff]

/-- Without lost padding, nothing is missing. -/
theorem Receives.missing_eq_zero (h : Receives seen inputs visits arrivals)
    (hpadded : ∀ visit ∈ visits, visit.IsPadded) : ∀ arrival ∈ arrivals, arrival.missing = 0 := by
  induction h with
  | nil => exact nofun
  | blank _ _ _ ih => exact ih fun visit hvisit => hpadded visit (.tail _ hvisit)
  | recorded _ hvisit _ ih =>
    exact List.forall_mem_cons.2 ⟨hvisit.isPadded_iff.1 (hpadded _ (.head _)),
      ih fun visit hmem => hpadded visit (.tail _ hmem)⟩

variable [Destination δ ε]

/-- **What a destination receives from the visits of a run** that met no fatal error: one arrival
for each record, in order, and nothing between them. -/
theorem Faithful.visitAll_receives {good : Counted δ → Prop} {held : Counted δ → Bytes}
    (F : Faithful good held)
    (henvironment : ∀ {d : Counted δ}, good d → seen (Destination.environment d))
    {d : Counted δ} (hd : good d) {writer after : Writer CopyBuffer δ (Metered ς)}
    (hwriter : writer.Stands .accepting d) {inputs : List (Input ε ς)} {visits : List Visit}
    (h : CpioArchive.visitAll writer inputs = (visits, none, after)) :
    ∃ arrivals last, Receives seen inputs visits arrivals ∧ after.Stands .accepting last ∧
      good last ∧ held last = held d ++ (arrivals.map Arrival.bytes).flatten := by
  induction inputs generalizing writer d visits with
  | nil =>
    cases h
    exact ⟨[], d, .nil, hwriter, hd, by simp⟩
  | cons input inputs ih =>
    obtain ⟨rest, hfatal, hvisits, rfl⟩ := of_visitAll_cons h
    rcases visit_arrival F henvironment hd hwriter input with ⟨hinput, hblank, hsame⟩ |
      ⟨record, pieces, hinput, -, hgood, ⟨cause, -, hio, -⟩ |
        ⟨missing, result, reads, hreports, hattempted, hstands, hheld⟩⟩
    · rw [hsame] at hvisits
      obtain ⟨arrivals, last, hreceives, hlast⟩ := ih hd hwriter hvisits
      exact ⟨arrivals, last, .blank hinput hblank hreceives, hlast⟩
    · rw [hio] at hfatal
      cases hfatal
    · obtain ⟨arrivals, last, hreceives, hlast, hgood', hheld'⟩ := ih hgood hstands hvisits
      refine ⟨⟨record, missing⟩ :: arrivals, last,
        .recorded hinput (hreports.tells hattempted) hreceives, hlast, hgood', ?_⟩
      rw [hheld', hheld, List.append_assoc, List.map_cons, List.flatten_cons]

/-! ## Whole runs -/

/-- **What a run that succeeds tells about damaged contents**, whatever its inputs resolve to,
however their files behave, and whichever writes the destination refuses.  The destination holds an
arrival for each record, in order, and then the trailer; an intact record holds what its source
delivered.  An input is counted as added if its record is intact or lost padding, and as failed if
its record is damaged and lost none.  So if no padding was lost, exactly the intact records are
counted as added. -/
theorem damage_reported {good : δ → Prop} {held : δ → Bytes} (F : Faithful good held)
    (henvironment : ∀ {d : δ}, good d → seen (Destination.environment d)) {d : δ} (hd : good d)
    (bufferSize : Nat) (inputs : List (Input ε ς)) (elapsed : Duration) {report : Report}
    (hresult : (createOn (Newc.writer (Metered ς) bufferSize d) inputs elapsed).result =
      .ok report) :
    let creation := createOn (Newc.writer (Metered ς) bufferSize d) inputs elapsed
    ∃ arrivals, Receives seen inputs creation.visits arrivals ∧
      held creation.destination =
        held d ++ ((arrivals.map Arrival.bytes).flatten ++ trailerRecord) ∧
      (∀ arrival ∈ arrivals, arrival.record.IsIntact →
        arrival.record.body = arrival.record.delivered) ∧
      report.filesAdded =
        arrivals.countP (fun arrival => arrival.record.IsIntact ∨ arrival.missing ≠ 0) ∧
      report.entriesFailed =
        arrivals.countP (fun arrival => ¬ arrival.record.IsIntact ∧ arrival.missing = 0) ∧
      ((∀ visit ∈ creation.visits, visit.IsPadded) →
        report.filesAdded = arrivals.countP (fun arrival => arrival.record.IsIntact) ∧
          report.entriesFailed = arrivals.countP (fun arrival => ¬ arrival.record.IsIntact)) := by
  intro creation
  obtain ⟨visits, after, hvisits, -, hremembered, -⟩ := of_createOn_eq_ok hresult
  obtain ⟨arrivals, last, hreceives, hlast, hgood, hheld⟩ :=
    (F.counted (held d).length).visitAll_receives (fun hd => henvironment hd.1)
      (Counted.tracks_fresh hd) (Writer.stands_writer bufferSize d) hvisits
  obtain ⟨hdestination, hreport⟩ := F.createOn_closed hvisits hlast hgood hheld hresult
  have hadded := (congrArg Report.filesAdded hreport).trans hreceives.countP_isAdded
  have hfailed := (congrArg Report.entriesFailed hreport).trans hreceives.countP_isContentFailure
  rw [show creation.visits = visits from hremembered]
  refine ⟨arrivals, hreceives, hdestination, fun _ _ => Record.body_of_isIntact, hadded, hfailed,
    fun hpadded => ?_⟩
  have hmissing := hreceives.missing_eq_zero hpadded
  rw [hadded, hfailed]
  constructor
  · refine List.countP_congr fun arrival harrival => ?_
    simp [hmissing arrival harrival]
  · refine List.countP_congr fun arrival harrival => ?_
    simp [hmissing arrival harrival]

end Runs

/-! ## A damaged file -/

/-- What a run over one input reports. -/
theorem createOn_singleton {δ ε ς : Type} [Destination δ ε]
    (writer : Writer CopyBuffer δ (Metered ς)) (input : Input ε ς)
    (hfatal : (visit writer input).1.fatal? = none)
    (hfinish : (visit writer input).2.finish.1 = .ok ()) (elapsed : Duration) :
    ∃ report, (createOn writer [input] elapsed).result = .ok report ∧
      (report.filesAdded = if (visit writer input).1.isAdded then 1 else 0) ∧
      report.entriesFailed = if (visit writer input).1.isContentFailure then 1 else 0 := by
  have hnone : visitAll (visit writer input).2 [] = ([], none, (visit writer input).2) := by
    rw [visitAll]
  have hvisits := visitAll_cons hfatal hnone
  obtain ⟨bytesWritten, hresult⟩ := createOn_of_finish hvisits hfinish elapsed
  refine ⟨_, hresult, ?_, ?_⟩
  · exact List.countP_singleton
  · exact List.countP_singleton

/-- A file of five bytes that ends after two. -/
def Site.truncated : Site := .ofFile [97] (.regular 5 0o644) ⟨[.deliver [120, 121]]⟩

/-- The truncated file on a sink that is interrupted twice. -/
theorem damage_reported_truncated :
    let creation := createOn (Newc.writer (Metered Script) 512 ({ interrupts := 2 } : Sink))
      [Site.truncated.input {}] .zero
    ∃ (report : Report) (arrivals : List Arrival), creation.result = .ok report ∧
      report.entriesFailed = 1 ∧
      creation.destination.data.toList =
        (arrivals.map Arrival.bytes).flatten ++ trailerRecord ∧
      arrivals.countP (fun arrival => ¬ arrival.record.IsIntact ∧ arrival.missing = 0) = 1 := by
  intro creation
  obtain ⟨report, hresult, -, hfailed⟩ := createOn_singleton
    (Newc.writer (Metered Script) 512 ({ interrupts := 2 } : Sink)) (Site.truncated.input {})
    (by set_option maxRecDepth 100000 in cbv) (by set_option maxRecDepth 100000 in cbv) .zero
  have hone : report.entriesFailed = 1 :=
    hfailed.trans (by set_option maxRecDepth 100000 in cbv)
  have henvironment : ∀ {d : Sink}, True → Always (Destination.environment d) := fun _ => trivial
  obtain ⟨arrivals, -, hheld, -, -, hcount, -⟩ :=
    damage_reported Sink.faithful henvironment trivial 512 [Site.truncated.input {}] .zero hresult
  exact ⟨report, arrivals, hresult, hone, hheld, hcount.symm.trans hone⟩

/-- **Damage can be hidden.**  A file of five bytes ends after two, and one write fails, in the
padding of its record: the run succeeds and counts the file as added. -/
theorem damage_hidden :
    let creation := createOn (Newc.writer (Metered Script) 512 ({ failOnceAt := some 117 } : Sink))
      [Site.truncated.input {}] .zero
    (∃ record, Site.truncated.record? {} = some record ∧ ¬ record.IsIntact) ∧
      ∃ report, creation.result = .ok report ∧ report.filesAdded = 1 ∧
        report.entriesFailed = 0 := by
  intro creation
  refine ⟨⟨⟨[97], (Status.regular 5 0o644).normalize, [120, 121], .ended⟩, by rfl, by decide⟩, ?_⟩
  obtain ⟨report, hresult, hadded, hfailed⟩ := createOn_singleton
    (Newc.writer (Metered Script) 512 ({ failOnceAt := some 117 } : Sink)) (Site.truncated.input {})
    (by set_option maxRecDepth 100000 in cbv) (by set_option maxRecDepth 100000 in cbv) .zero
  exact ⟨report, hresult, hadded.trans (by set_option maxRecDepth 100000 in cbv),
    hfailed.trans (by set_option maxRecDepth 100000 in cbv)⟩

end CpioArchive
