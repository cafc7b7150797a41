import CpioArchive.Proofs.Appending

/-!
# Runs and the records they write

Each input of a run gives the archive a record or nothing at all (`Contributes`), and what the
run remembers of the visit follows from that (`Accounts`).

* `visit_spec` — what one visit does to the writer, and what it remembers;
* `Faithful.visitAll` — as long as no write fails, the destination holds the records of the
  visited inputs in their order;
* `Reliable.visitAll` — on a reliable destination no write fails, and no run ends early;
* `Faithful.createOn`, `Reliable.createOn_ok` — the same for whole runs, with the trailer.
-/

namespace CpioArchive

open Newc

/-! ## Inputs -/

section Inputs

variable {ε ς : Type} [Source ε ς] {seen : ε → Prop}

/-- What an input may give the archive when it is visited in an environment that satisfies
`seen`: a record, or nothing. -/
inductive Contributes (seen : ε → Prop) (input : Input ε ς) : Option Record → Prop
  /-- The input does not resolve. -/
  | passedOver {environment : ε} {reason : SkipReason} (hseen : seen environment)
      (hresolve : input.resolve environment = .error reason) : Contributes seen input none
  /-- The header of the input cannot be written. -/
  | refused {environment : ε} {resolved : Resolved ς} {e : ArchiveError}
      (hseen : seen environment) (hresolve : input.resolve environment = .ok resolved)
      (hheader : (Header.ofMetadata resolved.name resolved.status.normalize).encode = .error e) :
      Contributes seen input none
  | recorded {environment : ε} {resolved : Resolved ς} {header bytes : Bytes} {ending : Ending}
      (hseen : seen environment) (hresolve : input.resolve environment = .ok resolved)
      (hheader : (Header.ofMetadata resolved.name resolved.status.normalize).encode = .ok header)
      (hdelivers : Delivers seen resolved.content bytes ending) :
      Contributes seen input (some ⟨resolved.name, resolved.status.normalize, bytes, ending⟩)

/-- A visit that left nothing in the archive and let the run go on. -/
structure Visit.IsBlank (visit : Visit) : Prop where
  fatal? : visit.fatal? = none
  isAdded : visit.isAdded = false
  isContentFailure : visit.isContentFailure = false
  accountedBytes : visit.accountedBytes = 0
  /-- The report names the input as one without an entry. -/
  skipText? : visit.skipText? ≠ none

/-- The visit does not tell of padding that could not be written. -/
def Visit.IsPadded (visit : Visit) : Prop :=
  ∀ reads declared cause,
    visit.outcome ≠ .attempted reads declared (.error (.entryUnfinished cause))

/-- The inputs, what a run remembers of them, and the records that they gave the archive, when
no write failed. -/
inductive Accounts (seen : ε → Prop) : List (Input ε ς) → List Visit → List Record → Prop
  | nil : Accounts seen [] [] []
  | blank {input : Input ε ς} {inputs : List (Input ε ς)} {visit : Visit} {visits : List Visit}
      {records : List Record} (hinput : Contributes seen input none) (hvisit : visit.IsBlank)
      (hrest : Accounts seen inputs visits records) :
      Accounts seen (input :: inputs) (visit :: visits) records
  | recorded {input : Input ε ς} {inputs : List (Input ε ς)} {visit : Visit}
      {visits : List Visit} {reads : List Nat} {record : Record} {records : List Record}
      (hinput : Contributes seen input (some record))
      (hvisit : visit.outcome = .attempted reads record.metadata.size record.outcome)
      (hrest : Accounts seen inputs visits records) :
      Accounts seen (input :: inputs) (visit :: visits) (record :: records)

/-- A record counts as added or as failed, and never as both. -/
theorem Record.counts (record : Record) {visit : Visit} {reads : List Nat} {declared : Nat}
    (h : visit.outcome = .attempted reads declared record.outcome) :
    visit.isContentFailure = !visit.isAdded := by
  rw [Visit.isContentFailure, Visit.isAdded, h]
  rcases record.outcome_cases with ⟨size, hok⟩ | ⟨e, he, hcontent, hskip⟩
  · rw [hok]
    rfl
  · rw [he]
    dsimp only
    rw [hcontent, hskip]
    rfl

/-- A record on the destination ends no run. -/
theorem Record.fatal?_eq_none (record : Record) {visit : Visit} {reads : List Nat}
    {declared : Nat} (h : visit.outcome = .attempted reads declared record.outcome) :
    visit.fatal? = none := by
  rw [Visit.fatal?, h]
  rcases record.outcome_cases with ⟨size, hok⟩ | ⟨e, he, -, hskip⟩
  · rw [hok]
  · rw [he]
    dsimp only
    rw [ArchiveError.isFatal, hskip]
    rfl

theorem Visit.fatal?_attempted {visit visit' : Visit} {reads reads' : List Nat}
    {declared : Nat} {result : Except ArchiveError RecordSize}
    (h : visit.outcome = .attempted reads declared result)
    (h' : visit'.outcome = .attempted reads' declared result) : visit.fatal? = visit'.fatal? := by
  cases result <;> simp only [fatal?, h, h']

/-- The phase of a writer behind visits that met this fatal error, or none. -/
def Phase.ofFailure : Option ArchiveError → Phase
  | none => .accepting
  | some _ => .poisoned

theorem Phase.after_eq_ofFailure {visit : Visit} {reads : List Nat} {declared : Nat}
    {result : Except ArchiveError RecordSize}
    (h : visit.outcome = .attempted reads declared result) :
    Phase.after result = .ofFailure visit.fatal? := by
  cases result with
  | ok size => rw [Visit.fatal?, h, after, ofFailure]
  | error e =>
    rw [Visit.fatal?, h, after]
    dsimp only
    split <;> rfl

/-- A visit that let the run go on and misses no padding tells of no failed write. -/
theorem isWhole_of_attempted {visit : Visit} {reads : List Nat} {declared : Nat}
    {result : Except ArchiveError RecordSize}
    (h : visit.outcome = .attempted reads declared result) (hfatal : visit.fatal? = none)
    (hpadded : visit.IsPadded) : IsWhole result := by
  intro cause
  constructor <;> rintro rfl
  · rw [Visit.fatal?, h] at hfatal
    cases hfatal
  · exact hpadded reads declared cause h

/-- **Every record is reported**, as an added file or as a failed entry. -/
theorem Accounts.length_records {inputs : List (Input ε ς)} {visits : List Visit}
    {records : List Record} (h : Accounts seen inputs visits records) :
    visits.countP (·.isAdded) + visits.countP (·.isContentFailure) = records.length := by
  induction h with
  | nil => rfl
  | blank _ hvisit _ ih =>
    rw [List.countP_cons, List.countP_cons, hvisit.isAdded, hvisit.isContentFailure]
    simpa using ih
  | @recorded _ _ visit _ _ record _ _ hvisit _ ih =>
    have hcounts := record.counts hvisit
    rw [List.countP_cons, List.countP_cons, hcounts, List.length_cons]
    cases visit.isAdded <;> simp only [Bool.not_true, Bool.not_false, Bool.false_eq_true,
      if_true, if_false] <;> omega

/-- Only headers that can be written stand in the archive. -/
theorem Accounts.isWritable {inputs : List (Input ε ς)} {visits : List Visit}
    {records : List Record} (h : Accounts seen inputs visits records) :
    ∀ record ∈ records, record.header.IsWritable := by
  induction h with
  | nil => exact nofun
  | blank _ _ _ ih => exact ih
  | recorded hinput _ _ ih =>
    refine List.forall_mem_cons.2 ⟨?_, ih⟩
    cases hinput with
    | recorded _ _ hheader _ => exact ((Header.encode_eq_ok_iff _ _).1 hheader).1

/-! ## Clean visits -/

/-- The input became an intact entry, and there is nothing to say about it. -/
structure Visit.IsClean (visit : Visit) : Prop where
  skipText? : visit.skipText? = none
  isContentFailure : visit.isContentFailure = false
  warning? : visit.warning? = none

theorem Visit.IsClean.isPadded {visit : Visit} (h : visit.IsClean) : visit.IsPadded := by
  intro reads declared cause houtcome
  have hwarning := h.warning?
  rw [Visit.warning?, houtcome] at hwarning
  cases hwarning

theorem Record.isClean_of_isIntact {record : Record} (hintact : record.IsIntact) {visit : Visit}
    {reads : List Nat} {declared : Nat}
    (h : visit.outcome = .attempted reads declared record.outcome) : visit.IsClean := by
  rw [outcome_of_isIntact hintact] at h
  constructor
  · rw [Visit.skipText?, h]
  · rw [Visit.isContentFailure, h]
  · rw [Visit.warning?, h]

/-- A visit whose record is not intact is not clean. -/
theorem Record.isIntact_of_isClean {record : Record} {visit : Visit} (hclean : visit.IsClean)
    {reads : List Nat} {declared : Nat}
    (h : visit.outcome = .attempted reads declared record.outcome) : record.IsIntact := by
  refine Classical.byContradiction fun hintact => ?_
  obtain ⟨e, he, hcontent⟩ := outcome_of_not_isIntact hintact
  have hfailure := hclean.isContentFailure
  rw [Visit.isContentFailure, h, he] at hfailure
  exact absurd hcontent (by rw [show e.isContentFailure = false from hfailure]; nofun)

/-- **A report is clean** if and only if every visit is. -/
theorem Report.isClean_ofVisits (visits : List Visit) (bytesWritten : Nat) (elapsed : Duration) :
    (Report.ofVisits visits bytesWritten elapsed).isClean = true ↔
      ∀ visit ∈ visits, visit.IsClean := by
  simp only [isClean, ofVisits, Bool.and_eq_true, List.isEmpty_iff, beq_iff_eq,
    List.filterMap_eq_nil_iff, List.countP_eq_zero, Option.map_eq_none_iff, Bool.not_eq_true]
  constructor
  · intro ⟨⟨hskipped, hfailed⟩, hwarnings⟩ visit hvisit
    exact ⟨hskipped visit hvisit, hfailed visit hvisit, hwarnings visit hvisit⟩
  · intro hclean
    exact ⟨⟨fun visit hvisit => (hclean visit hvisit).skipText?,
      fun visit hvisit => (hclean visit hvisit).isContentFailure⟩,
      fun visit hvisit => (hclean visit hvisit).warning?⟩

end Inputs

section Runs

variable {β δ ε ς : Type} [Destination δ ε]

/-- An input that does not resolve is passed over. -/
theorem visit_of_error {writer : Writer β δ (Metered ς)} {input : Input ε ς} {reason : SkipReason}
    (h : input.resolve (Destination.environment writer.destination) = .error reason) :
    visit writer input = (⟨input.path, .skipped reason⟩, writer) := by
  rw [visit, h]

/-- An input that resolves is given to the writer. -/
theorem visit_of_ok {writer after : Writer β δ (Metered ς)} {input : Input ε ς}
    {resolved : Resolved ς} {result : Except ArchiveError RecordSize} {source : Metered ς}
    (h : input.resolve (Destination.environment writer.destination) = .ok resolved)
    (happend : writer.append resolved.name resolved.status.normalize
      (.start resolved.content Metered.usualThreshold) = (result, after, source)) :
    visit writer input =
      (⟨input.path, .attempted source.close resolved.status.normalize.size result⟩, after) := by
  obtain ⟨path, name, status, content⟩ := resolved
  rw [visit, h]
  dsimp only at happend ⊢
  rw [happend]

/-- Behind a visit that lets the run go on, the other inputs are visited. -/
theorem visitAll_cons {writer after : Writer β δ (Metered ς)} {input : Input ε ς}
    {inputs : List (Input ε ς)} {visits : List Visit} {failure : Option ArchiveError}
    (hfatal : (visit writer input).1.fatal? = none)
    (h : visitAll (visit writer input).2 inputs = (visits, failure, after)) :
    visitAll writer (input :: inputs) = ((visit writer input).1 :: visits, failure, after) := by
  rw [visitAll]
  dsimp only
  rw [hfatal, h]

/-- Behind a visit that met a fatal error, nothing is visited. -/
theorem visitAll_fatal {writer : Writer β δ (Metered ς)} {input : Input ε ς}
    {inputs : List (Input ε ς)} {e : ArchiveError}
    (hfatal : (visit writer input).1.fatal? = some e) :
    visitAll writer (input :: inputs) =
      ([(visit writer input).1], some e, (visit writer input).2) := by
  rw [visitAll]
  dsimp only
  rw [hfatal]

/-- A run that goes through goes through behind each of its visits. -/
theorem of_visitAll_cons {writer after : Writer β δ (Metered ς)} {input : Input ε ς}
    {inputs : List (Input ε ς)} {visits : List Visit}
    (h : visitAll writer (input :: inputs) = (visits, none, after)) :
    ∃ rest, (visit writer input).1.fatal? = none ∧
      visitAll (visit writer input).2 inputs = (rest, none, after) ∧
      visits = (visit writer input).1 :: rest := by
  rw [visitAll] at h
  dsimp only at h
  cases hfatal : (visit writer input).1.fatal? with
  | some e =>
    rw [hfatal] at h
    cases h
  | none =>
    rw [hfatal] at h
    rcases hvisits : visitAll (visit writer input).2 inputs with ⟨rest, failure, last⟩
    rw [hvisits] at h
    cases h
    exact ⟨rest, rfl, rfl, rfl⟩

/-- A run that succeeds met no fatal error and closed its archive. -/
theorem of_createOn_eq_ok {writer : Writer β δ (Metered ς)}
    {inputs : List (Input ε ς)} {elapsed : Duration} {report : Report}
    (h : (createOn writer inputs elapsed).result = .ok report) :
    ∃ visits after, visitAll writer inputs = (visits, none, after) ∧ after.finish.1 = .ok () ∧
      (createOn writer inputs elapsed).visits = visits ∧
      ∃ bytesWritten, report = .ofVisits visits bytesWritten elapsed := by
  rw [createOn] at h ⊢
  rcases hvisits : visitAll writer inputs with ⟨visits, _ | e, after⟩ <;> rw [hvisits] at h
  · dsimp only at h
    rcases hfinish : after.finish with ⟨_ | _, finished⟩ <;> rw [hfinish] at h
    · cases h
    · refine ⟨visits, after, rfl, by rw [hfinish], ?_, _, (Except.ok.inj h).symm⟩
      dsimp only
      rw [hfinish]
  · cases h

theorem visits_createOn (writer : Writer β δ (Metered ς)) (inputs : List (Input ε ς))
    (elapsed : Duration) :
    (createOn writer inputs elapsed).visits = (visitAll writer inputs).1 ∧
      (createOn writer inputs elapsed).total = inputs.length := by
  rw [createOn]
  rcases visitAll writer inputs with ⟨visits, _ | e, after⟩
  · dsimp only
    rcases after.finish with ⟨_ | _, finished⟩ <;> exact ⟨rfl, rfl⟩
  · exact ⟨rfl, rfl⟩

/-- A run that met a fatal error gives its writer up. -/
theorem createOn_of_fatal {writer after : Writer β δ (Metered ς)}
    {inputs : List (Input ε ς)} {visits : List Visit} {e : ArchiveError}
    (h : visitAll writer inputs = (visits, some e, after)) (elapsed : Duration) :
    createOn writer inputs elapsed = ⟨visits, inputs.length, .error e, after.release⟩ := by
  rw [createOn, h]

/-- A run that met no fatal error and can finish its archive succeeds. -/
theorem createOn_of_finish {writer after : Writer β δ (Metered ς)}
    {inputs : List (Input ε ς)} {visits : List Visit}
    (h : visitAll writer inputs = (visits, none, after)) (hfinish : after.finish.1 = .ok ())
    (elapsed : Duration) :
    ∃ bytesWritten, (createOn writer inputs elapsed).result =
      .ok (.ofVisits visits bytesWritten elapsed) := by
  rw [createOn, h]
  dsimp only
  rcases hlast : after.finish with ⟨_ | _, finished⟩ <;> rw [hlast] at hfinish
  · cases hfinish
  · exact ⟨_, rfl⟩

variable [Source ε ς] {seen : ε → Prop}

/-! ## Single visits -/

section Counted

variable {good : Counted δ → Prop} {held : Counted δ → Bytes}
variable {writer : Writer CopyBuffer δ (Metered ς)} {d : Counted δ}

/-- **One visit** leaves the writer as it is, or gives the destination a record. -/
theorem visit_spec (F : Faithful good held)
    (henvironment : ∀ {d : Counted δ}, good d → seen (Destination.environment d)) (hd : good d)
    (hwriter : writer.Stands .accepting d) (input : Input ε ς) :
    (Contributes seen input none ∧ (visit writer input).1.IsBlank ∧
        (visit writer input).2 = writer) ∨
      ∃ record reads pieces, Contributes seen input (some record) ∧
        pieces.flatten = record.header.image ++ record.body ∧
        (visit writer input).1.outcome =
          .attempted reads record.metadata.size (writeRecord d pieces record).1 ∧
        (visit writer input).2.Stands (.after (writeRecord d pieces record).1)
          (writeRecord d pieces record).2 := by
  have hseen : seen (Destination.environment writer.destination) := by
    rw [hwriter.destination]
    exact henvironment hd
  rw [visit]
  cases hresolve : input.resolve (Destination.environment writer.destination) with
  | error reason =>
    exact .inl ⟨.passedOver hseen hresolve, ⟨rfl, rfl, rfl, rfl, nofun⟩, rfl⟩
  | ok resolved =>
    obtain ⟨path, name, status, content⟩ := resolved
    dsimp only
    cases hheader : (Header.ofMetadata name status.normalize).encode with
    | error e =>
      obtain ⟨hskip, hcontent⟩ := severity_of_encode hheader
      rw [Writer.append_refused hwriter _ hheader]
      refine .inl ⟨.refused hseen hresolve hheader, ⟨?_, ?_, ?_, ?_, ?_⟩, rfl⟩
      all_goals simp [Visit.fatal?, Visit.isAdded, Visit.isContentFailure, Visit.accountedBytes,
        Visit.skipText?, ArchiveError.isFatal, hskip, hcontent]
    | ok header =>
      obtain ⟨bytes, ending, pieces, hdelivers, hflatten, hresult, hstands⟩ :=
        Writer.append_spec F henvironment hd hwriter
          (Metered.start content Metered.usualThreshold) hheader
      rw [hresult] at hstands
      exact .inr ⟨⟨name, status.normalize, bytes, ending⟩, _, pieces,
        .recorded hseen hresolve hheader hdelivers.inner, hflatten,
        congrArg (Outcome.attempted _ _) hresult, hstands⟩

/-! ## All visits -/

/-- **As long as no write fails**, the destination holds the records of the visited inputs, in
their order and nothing between them. -/
theorem Faithful.visitAll (F : Faithful good held)
    (henvironment : ∀ {d : Counted δ}, good d → seen (Destination.environment d)) (hd : good d)
    (hwriter : writer.Stands .accepting d) {inputs : List (Input ε ς)} {visits : List Visit}
    {after : Writer CopyBuffer δ (Metered ς)}
    (h : visitAll writer inputs = (visits, none, after))
    (hpadded : ∀ visit ∈ visits, visit.IsPadded) :
    ∃ records last, Accounts seen inputs visits records ∧ after.Stands .accepting last ∧
      good last ∧ held last = held d ++ (records.map Record.bytes).flatten := by
  induction inputs generalizing writer d visits with
  | nil =>
    cases h
    exact ⟨[], d, .nil, hwriter, hd, by simp⟩
  | cons input inputs ih =>
    obtain ⟨rest, hfatal, hvisits, rfl⟩ := of_visitAll_cons h
    have hrest : ∀ visit ∈ rest, visit.IsPadded := fun v hv => hpadded v (.tail _ hv)
    rcases visit_spec F henvironment hd hwriter input with ⟨hinput, hblank, hsame⟩ |
      ⟨record, reads, pieces, hinput, hflatten, hattempted, hstands⟩
    · rw [hsame] at hvisits
      obtain ⟨records, last, haccounts, hlast⟩ := ih hd hwriter hvisits hrest
      exact ⟨records, last, .blank hinput hblank haccounts, hlast⟩
    · obtain ⟨hgood, accepted, -, hheld, hwhole⟩ := F.writeRecord hd hflatten
      obtain ⟨houtcome, rfl⟩ :=
        hwhole (isWhole_of_attempted hattempted hfatal (hpadded _ (.head _)))
      rw [houtcome] at hattempted hstands
      rw [record.after_outcome] at hstands
      obtain ⟨records, last, haccounts, hlast, hgood', hheld'⟩ := ih hgood hstands hvisits hrest
      refine ⟨record :: records, last, .recorded hinput hattempted haccounts, hlast, hgood', ?_⟩
      rw [hheld', hheld, List.append_assoc, List.map_cons, List.flatten_cons]

/-- **On a reliable destination no run ends early**, and no padding is missing. -/
theorem Reliable.visitAll (R : Reliable good held) (hd : good d)
    (hwriter : writer.Stands .accepting d) (inputs : List (Input ε ς)) :
    ∃ visits after, visitAll writer inputs = (visits, none, after) ∧
      ∀ visit ∈ visits, visit.IsPadded := by
  induction inputs generalizing writer d with
  | nil => exact ⟨[], writer, rfl, nofun⟩
  | cons input inputs ih =>
    rcases visit_spec R.toFaithful always_environment hd hwriter input with ⟨-, hblank, hsame⟩ |
      ⟨record, reads, pieces, -, hflatten, hattempted, hstands⟩
    · obtain ⟨visits, after, hvisits, hpadded⟩ := ih hd hwriter
      rw [← hsame] at hvisits
      refine ⟨_, _, visitAll_cons hblank.fatal? hvisits, List.forall_mem_cons.2 ⟨?_, hpadded⟩⟩
      intro reads declared cause h
      have := hblank.isAdded
      rw [Visit.isAdded, h] at this
      cases this
    · have hgood := (R.toFaithful.writeRecord hd hflatten).1
      rw [R.writeRecord hd] at hattempted hstands
      rw [record.after_outcome] at hstands
      obtain ⟨visits, after, hvisits, hpadded⟩ := ih hgood hstands
      refine ⟨_, _, visitAll_cons (record.fatal?_eq_none hattempted) hvisits,
        List.forall_mem_cons.2 ⟨?_, hpadded⟩⟩
      intro reads' declared cause h
      rw [hattempted] at h
      exact (record.isWhole_outcome cause).2 (Outcome.attempted.inj h).2.2

end Counted

/-! ## Whole runs -/

/-- A run without a fatal error closes its archive as `closeArchive` does. -/
theorem createOn_of_visitAll {writer after : Writer CopyBuffer δ (Metered ς)}
    {inputs : List (Input ε ς)} {visits : List Visit} {d last : Counted δ}
    (h : visitAll writer inputs = (visits, none, after)) (hafter : after.Stands .accepting d)
    (hclose : closeArchive d = (.ok (), last)) (elapsed : Duration) :
    createOn writer inputs elapsed =
      ⟨visits, inputs.length, .ok (.ofVisits visits last.position elapsed), last.inner⟩ := by
  obtain ⟨finished, hfinish, hstands⟩ := Writer.finish_of_closeArchive hafter hclose
  rw [createOn, h]
  dsimp only
  rw [hfinish]
  dsimp only
  rw [Writer.release_of_finished hstands, Writer.bytesWritten, hstands.destination]

/-- A run that cannot close its archive flushes once more when it gives its writer up. -/
theorem createOn_of_closeArchive_error {writer after : Writer CopyBuffer δ (Metered ς)}
    {inputs : List (Input ε ς)} {visits : List Visit} {d last : Counted δ} {e : ArchiveError}
    (h : visitAll writer inputs = (visits, none, after)) (hafter : after.Stands .accepting d)
    (hclose : closeArchive d = (.error e, last)) (elapsed : Duration) :
    createOn writer inputs elapsed =
      ⟨visits, inputs.length, .error e, (Destination.flush last).2.inner⟩ := by
  obtain ⟨hfinish, hstands⟩ := Writer.finish_spec hafter
  rw [hclose] at hfinish hstands
  rw [createOn, h]
  dsimp only
  rcases hfinished : after.finish with ⟨outcome, finished⟩
  rw [hfinished] at hfinish hstands
  obtain rfl : outcome = .error e := hfinish
  dsimp only
  rw [Writer.release_of_poisoned hstands]

variable {good : δ → Prop} {held : δ → Bytes}

/-- A run that succeeds closes its archive: what it leaves behind is what its visits left, and then
the trailer.  The report counts every byte of that. -/
theorem Faithful.createOn_closed (F : Faithful good held) {d : δ} {bufferSize : Nat}
    {inputs : List (Input ε ς)} {elapsed : Duration} {report : Report} {visits : List Visit}
    {after : Writer CopyBuffer δ (Metered ς)} {last : Counted δ} {bytes : Bytes}
    (hvisits : CpioArchive.visitAll (Newc.writer (Metered ς) bufferSize d) inputs =
      (visits, none, after))
    (hafter : after.Stands .accepting last)
    (hgood : Counted.Tracks good held (held d).length last)
    (hheld : held last.inner = held d ++ bytes)
    (hresult : (createOn (Newc.writer (Metered ς) bufferSize d) inputs elapsed).result =
      .ok report) :
    held (createOn (Newc.writer (Metered ς) bufferSize d) inputs elapsed).destination =
        held d ++ (bytes ++ trailerRecord) ∧
      report = .ofVisits visits (bytes ++ trailerRecord).length elapsed := by
  obtain ⟨visits', after', hvisits', hfinish, -⟩ := of_createOn_eq_ok hresult
  obtain ⟨rfl, rfl⟩ : visits = visits' ∧ after = after' := by
    rw [hvisits, Prod.mk.injEq, Prod.mk.injEq] at hvisits'
    exact ⟨hvisits'.1, hvisits'.2.2⟩
  rw [(Writer.finish_spec hafter).1] at hfinish
  rcases hclose : CpioArchive.closeArchive last with ⟨outcome, closed⟩
  rw [hclose] at hfinish
  obtain rfl : outcome = .ok () := hfinish
  obtain ⟨hgood', hheld'⟩ := (F.counted (held d).length).closeArchive hgood hclose
  rw [createOn_of_visitAll hvisits hafter hclose] at hresult ⊢
  obtain rfl := Except.ok.inj hresult
  rw [hheld, List.append_assoc] at hheld'
  have hlength := hgood'.2
  rw [hheld', List.length_append] at hlength
  exact ⟨hheld', by rw [Nat.add_left_cancel hlength]⟩

/-- **What a run leaves behind that succeeds and misses no padding**: the records of its inputs
in their order, and then the trailer.  The report counts every byte of that. -/
theorem Faithful.createOn (F : Faithful good held)
    (henvironment : ∀ {d : δ}, good d → seen (Destination.environment d)) {d : δ} (hd : good d)
    {bufferSize : Nat} {inputs : List (Input ε ς)} {elapsed : Duration} {report : Report}
    {creation : Creation δ}
    (hcreation : createOn (Newc.writer (Metered ς) bufferSize d) inputs elapsed = creation)
    (hresult : creation.result = .ok report)
    (hpadded : ∀ visit ∈ creation.visits, visit.IsPadded) :
    ∃ records, Accounts seen inputs creation.visits records ∧
      held creation.destination =
        held d ++ ((records.map Record.bytes).flatten ++ trailerRecord) ∧
      report = .ofVisits creation.visits
        ((records.map Record.bytes).flatten ++ trailerRecord).length elapsed := by
  subst hcreation
  obtain ⟨visits, after, hvisits, -, hremembered, -⟩ := of_createOn_eq_ok hresult
  rw [hremembered] at hpadded ⊢
  obtain ⟨records, last, haccounts, hlast, hgood, hheld⟩ :=
    (F.counted (held d).length).visitAll (fun hd => henvironment hd.1) (Counted.tracks_fresh hd)
      (Writer.stands_writer bufferSize d) hvisits hpadded
  exact ⟨records, haccounts, F.createOn_closed hvisits hlast hgood hheld hresult⟩

/-- A clean run has clean visits, and leaves a record for each input behind. -/
theorem Faithful.accounts_of_clean (F : Faithful good held)
    (henvironment : ∀ {d : δ}, good d → seen (Destination.environment d)) {d : δ} (hd : good d)
    {bufferSize : Nat} {inputs : List (Input ε ς)} {elapsed : Duration} {report : Report}
    {creation : Creation δ}
    (hcreation :
      CpioArchive.createOn (Newc.writer (Metered ς) bufferSize d) inputs elapsed = creation)
    (hresult : creation.result = .ok report) (hclean : report.isClean = true) :
    (∀ visit ∈ creation.visits, visit.IsClean) ∧
      ∃ records, Accounts seen inputs creation.visits records ∧
        held creation.destination =
          held d ++ ((records.map Record.bytes).flatten ++ trailerRecord) := by
  have hvisits : ∀ visit ∈ creation.visits, visit.IsClean := by
    subst hcreation
    obtain ⟨visits, after, -, -, hremembered, bytesWritten, rfl⟩ := of_createOn_eq_ok hresult
    rw [hremembered]
    exact (Report.isClean_ofVisits _ _ _).1 hclean
  have hpadded : ∀ visit ∈ creation.visits, visit.IsPadded :=
    fun visit hvisit => (hvisits visit hvisit).isPadded
  obtain ⟨records, haccounts, hheld, -⟩ := F.createOn henvironment hd hcreation hresult hpadded
  exact ⟨hvisits, records, haccounts, hheld⟩

/-- **On a reliable destination every run succeeds** and misses no padding. -/
theorem Reliable.createOn_ok (R : Reliable good held) {d : δ} (hd : good d) (bufferSize : Nat)
    (inputs : List (Input ε ς)) (elapsed : Duration) :
    ∃ report, (createOn (Newc.writer (Metered ς) bufferSize d) inputs elapsed).result =
        .ok report ∧
      ∀ visit ∈ (createOn (Newc.writer (Metered ς) bufferSize d) inputs elapsed).visits,
        visit.IsPadded := by
  have R' := R.counted (held d).length
  have hfresh : Counted.Tracks good held (held d).length (.fresh d) := Counted.tracks_fresh hd
  have hwriter := Writer.stands_writer (ς := Metered ς) bufferSize d
  obtain ⟨visits, after, hvisits, hpadded⟩ := R'.visitAll hfresh hwriter inputs
  obtain ⟨records, last, -, hlast, hgood, -⟩ :=
    R'.toFaithful.visitAll always_environment hfresh hwriter hvisits hpadded
  obtain ⟨closed, hclose⟩ := R'.closeArchive_ok hgood
  rw [createOn_of_visitAll hvisits hlast hclose]
  exact ⟨_, rfl, hpadded⟩

end Runs

end CpioArchive
