import CpioArchive.Proofs.Metering
import CpioArchive.Proofs.Sites

/-!
# Events and the report

A run tells what happens while it goes on, and once more in its report.  Both are about the same
inputs, and they agree, whatever the encoder, the destination and the inputs do.

* `IsEpisode` — the events of one input: it is taken up, some counts follow, and one event closes it;
* `visit_isEpisode`, `visitAll_isEpisode` — every visit is an episode, and a run is one for each input
  that it comes to;
* `Report.Tallies` — the numbers and texts of a report, counted and collected from events;
* `run_tells` — what the events of a run are, how they end, and that its report agrees with them.
-/

namespace CpioArchive

/-! ## Kinds of events -/

namespace Event

def isCompleted : Event → Bool
  | completed _ => true
  | _ => false

def isWarned : Event → Bool
  | warned .. => true
  | _ => false

/-- The input has an entry, but not with the content of its source. -/
def isContentFailure : Event → Bool
  | failed _ e => e.isContentFailure
  | _ => false

/-- The input without an entry that a report names because of the event. -/
def skippedInput? : Event → Option SkippedInput
  | skipped path reason => some ⟨path, reason⟩
  | failed path e =>
    if e.severity = .skip ∧ e.isContentFailure = false then
      some ⟨path, "couldn't write header: " ++ e.message⟩
    else none
  | _ => none

/-- The warning that a report gives because of the event. -/
def warning? : Event → Option String
  | failed path e =>
    if e.isContentFailure then some (displayPath path ++ ": " ++ e.message) else none
  | warned path message => some ("finishing '" ++ displayPath path ++ "': " ++ message)
  | _ => none

end Event

/-- `Closes path event` says that the event closes an input that was given to the writer. -/
inductive Closes (path : Bytes) : Event → Prop
  | completed : Closes path (.completed path)
  | warned {e : ArchiveError} (h : e.severity = .warning) : Closes path (.warned path e.message)
  | failed {e : ArchiveError} (h : e.severity ≠ .warning) : Closes path (.failed path e)

/-- The events of one input, which is visited in an environment.  Only an input that resolves has
bytes to be counted. -/
inductive IsEpisode {ε ς : Type} (environment : ε) (total number : Nat) (input : Input ε ς) :
    List Event → Prop
  | passedOver {reason : SkipReason} (hresolve : input.resolve environment = .error reason) :
      IsEpisode environment total number input
        [.started input.path total number, .skipped input.path reason.message]
  | attempted {resolved : Resolved ς} {counts : List Nat} {closing : Event}
      (hresolve : input.resolve environment = .ok resolved)
      (hcounts : ∀ count ∈ counts, 0 < count) (hclosing : Closes input.path closing) :
      IsEpisode environment total number input
        (.started input.path total number :: (counts.map .bytesRead ++ [closing]))

/-- Only the end of a run is told as an end. -/
theorem IsEpisode.finished_notMem {ε ς : Type} {environment : ε} {total number : Nat}
    {input : Input ε ς} {episode : List Event}
    (h : IsEpisode environment total number input episode) : .finished ∉ episode := by
  cases h with
  | passedOver => simp
  | attempted _ _ hclosing => cases hclosing <;> simp

/-- What a report says, counted and collected from events. -/
structure Report.Tallies (report : Report) (events : List Event) : Prop where
  filesAdded : report.filesAdded = events.countP (·.isCompleted) + events.countP (·.isWarned)
  entriesFailed : report.entriesFailed = events.countP (·.isContentFailure)
  skipped : report.skipped = events.filterMap (·.skippedInput?)
  warnings : report.warnings = events.filterMap (·.warning?)

/-! ## Visits -/

namespace Visit

/-- Only the event that closes a visit is counted. -/
theorem countP_events {p : Event → Bool} (hstarted : ∀ path total number,
      p (.started path total number) = false) (hcounts : ∀ count, p (.bytesRead count) = false)
    (visit : Visit) (total number : Nat) :
    (visit.events total number).countP p = if p visit.closingEvent then 1 else 0 := by
  have hreads : (visit.reads.map Event.bytesRead).countP p = 0 := by
    rw [List.countP_eq_zero]
    intro event hevent
    obtain ⟨count, -, rfl⟩ := List.mem_map.1 hevent
    rw [hcounts]
    exact Bool.false_ne_true
  rw [events, List.countP_cons, List.countP_append, hreads, hstarted, List.countP_singleton]
  simp

/-- Only the event that closes a visit is collected. -/
theorem filterMap_events {α : Type} {f : Event → Option α} (hstarted : ∀ path total number,
      f (.started path total number) = none) (hcounts : ∀ count, f (.bytesRead count) = none)
    (visit : Visit) (total number : Nat) :
    (visit.events total number).filterMap f = (f visit.closingEvent).toList := by
  have hreads : (visit.reads.map Event.bytesRead).filterMap f = [] := by
    rw [List.filterMap_eq_nil_iff]
    intro event hevent
    obtain ⟨count, -, rfl⟩ := List.mem_map.1 hevent
    exact hcounts count
  rw [events, List.filterMap_cons_none (hstarted _ _ _), List.filterMap_append, hreads,
    List.nil_append]
  cases h : f visit.closingEvent with
  | none => rw [List.filterMap_cons_none h]; rfl
  | some a => rw [List.filterMap_cons_some h]; rfl

/-- An input is added if it is completed, and also if it is warned about. -/
theorem isAdded_eq (visit : Visit) :
    visit.isAdded = (visit.closingEvent.isCompleted || visit.closingEvent.isWarned) := by
  rw [isAdded, closingEvent]
  rcases visit.outcome with reason | ⟨reads, declared, e | size⟩
  · rfl
  · dsimp only
    by_cases h : e.severity = .warning
    · rw [if_pos h, h]; rfl
    · rw [if_neg h, beq_eq_false_iff_ne.2 h]; rfl
  · rfl

theorem isContentFailure_eq (visit : Visit) :
    visit.isContentFailure = visit.closingEvent.isContentFailure := by
  rw [isContentFailure, closingEvent]
  rcases visit.outcome with reason | ⟨reads, declared, e | size⟩
  · rfl
  · dsimp only
    by_cases h : e.severity = .warning
    · rw [if_pos h]
      cases e <;> first | rfl | cases h
    · rw [if_neg h]
      rfl
  · rfl

theorem skippedInput?_eq (visit : Visit) :
    visit.skipText?.map (⟨visit.path, ·⟩) = visit.closingEvent.skippedInput? := by
  rw [skipText?, closingEvent]
  rcases visit.outcome with reason | ⟨reads, declared, e | size⟩
  · rfl
  · dsimp only
    by_cases h : e.severity = .warning
    · have hskip : ¬ (e.severity = .skip ∧ e.isContentFailure = false) := by
        rw [h]
        exact fun hskip => Severity.noConfusion hskip.1
      rw [if_pos h, if_neg hskip]
      rfl
    · rw [if_neg h, Event.skippedInput?]
      split <;> rfl
  · rfl

theorem warning?_eq (visit : Visit) : visit.warning? = visit.closingEvent.warning? := by
  rw [warning?, closingEvent]
  rcases visit.outcome with reason | ⟨reads, declared, e | size⟩
  · rfl
  · dsimp only
    by_cases h : e.severity = .warning
    · rw [if_pos h, if_pos h]
      rfl
    · rw [if_neg h, if_neg h]
      rfl
  · rfl

/-- A visit that lets the run go on gives the report one file, one failed entry or one skipped
input. -/
theorem counts_one {visit : Visit} (h : visit.fatal? = none) :
    (if visit.isAdded then 1 else 0) + (if visit.isContentFailure then 1 else 0) +
      (visit.skipText?.map (SkippedInput.mk visit.path)).toList.length = 1 := by
  obtain ⟨path, reason | ⟨reads, declared, e | size⟩⟩ := visit
  · rfl
  · cases e <;> first | rfl | cases h
  · rfl

/-- If the run goes on, a visit is clean exactly if its input is completed. -/
theorem isClean_iff_of_fatal? {visit : Visit} (h : visit.fatal? = none) :
    visit.IsClean ↔ visit.closingEvent = .completed visit.path := by
  obtain ⟨path, reason | ⟨reads, declared, e | size⟩⟩ := visit
  · exact ⟨fun hclean => (nomatch hclean.skipText?), nofun⟩
  · constructor
    · intro ⟨hskip, hfailure, hwarning⟩
      have hcontent : e.isContentFailure = false := hfailure
      -- An error of any severity is told of in one place.
      cases hseverity : e.severity with
      | skip =>
        rw [skipText?] at hskip
        dsimp only at hskip
        rw [if_pos ⟨hseverity, hcontent⟩] at hskip
        cases hskip
      | warning =>
        rw [warning?] at hwarning
        dsimp only at hwarning
        rw [if_pos hseverity] at hwarning
        cases hwarning
      | fatal =>
        rw [fatal?] at h
        dsimp only at h
        rw [ArchiveError.isFatal, hseverity] at h
        cases h
    · intro hclosing
      rw [closingEvent] at hclosing
      dsimp only at hclosing
      split at hclosing <;> cases hclosing
  · exact ⟨fun _ => rfl, fun _ => ⟨rfl, rfl, rfl⟩⟩

/-- An input is completed only by the event that closes its visit. -/
theorem completed_mem_events {visit : Visit} {path : Bytes} {total number : Nat} :
    .completed path ∈ visit.events total number ↔ visit.closingEvent = .completed path := by
  simp only [events, List.mem_cons, reduceCtorEq, false_or, List.mem_append, List.mem_map, and_false,
    exists_false, List.not_mem_nil, or_false]
  exact eq_comm

theorem path_of_closingEvent {visit : Visit} {path : Bytes}
    (h : visit.closingEvent = .completed path) : path = visit.path := by
  obtain ⟨own, reason | ⟨reads, declared, e | size⟩⟩ := visit
  · cases h
  · rw [closingEvent] at h
    dsimp only at h
    split at h <;> cases h
  · cases h
    rfl

theorem closingEvent_of_fatal? {visit : Visit} {e : ArchiveError} (h : visit.fatal? = some e) :
    visit.closingEvent = .failed visit.path e ∧ e.isFatal = true := by
  obtain ⟨path, reason | ⟨reads, declared, cause | size⟩⟩ := visit
  · cases h
  · cases cause <;> cases h <;> exact ⟨rfl, rfl⟩
  · cases h

end Visit

/-! ## Lists of visits -/

/-- The events of visits, each visit for itself. -/
def episodesFrom (total number : Nat) : List Visit → List (List Event)
  | [] => []
  | visit :: rest => visit.events total number :: episodesFrom total (number + 1) rest

theorem Creation.eventsFrom_eq (total number : Nat) (visits : List Visit) :
    eventsFrom total number visits = (episodesFrom total number visits).flatten := by
  induction visits generalizing number with
  | nil => rfl
  | cons visit rest ih => rw [eventsFrom, episodesFrom, List.flatten_cons, ih]

theorem length_episodesFrom (total number : Nat) (visits : List Visit) :
    (episodesFrom total number visits).length = visits.length := by
  induction visits generalizing number with
  | nil => rfl
  | cons visit rest ih => rw [episodesFrom, List.length_cons, List.length_cons, ih]

theorem countP_episodesFrom {p : Event → Bool} (hstarted : ∀ path total number,
      p (.started path total number) = false) (hcounts : ∀ count, p (.bytesRead count) = false)
    (total number : Nat) (visits : List Visit) :
    (episodesFrom total number visits).flatten.countP p =
      visits.countP fun visit => p visit.closingEvent := by
  induction visits generalizing number with
  | nil => rfl
  | cons visit rest ih =>
    rw [episodesFrom, List.flatten_cons, List.countP_append,
      visit.countP_events hstarted hcounts, ih, List.countP_cons, Nat.add_comm]

theorem filterMap_episodesFrom {α : Type} {f : Event → Option α} (hstarted : ∀ path total number,
      f (.started path total number) = none) (hcounts : ∀ count, f (.bytesRead count) = none)
    (total number : Nat) (visits : List Visit) :
    (episodesFrom total number visits).flatten.filterMap f =
      visits.filterMap fun visit => f visit.closingEvent := by
  induction visits generalizing number with
  | nil => rfl
  | cons visit rest ih =>
    rw [episodesFrom, List.flatten_cons, List.filterMap_append,
      visit.filterMap_events hstarted hcounts, ih, List.filterMap_cons]
    cases f visit.closingEvent <;> rfl

/-- The last event of a run that ends with a visit. -/
theorem getLast?_episodesFrom (total number : Nat) (visits : List Visit) (last : Visit) :
    (episodesFrom total number (visits ++ [last])).flatten.getLast? = some last.closingEvent := by
  induction visits generalizing number with
  | nil =>
    rw [List.nil_append, episodesFrom, episodesFrom, List.flatten_singleton, Visit.events,
      ← List.cons_append, List.getLast?_concat]
  | cons visit rest ih =>
    rw [List.cons_append, episodesFrom, List.flatten_cons, List.getLast?_append, ih]
    rfl

/-- Files are added by visits that are completed and by visits that are warned about. -/
theorem countP_isAdded (visits : List Visit) :
    visits.countP (·.isAdded) = visits.countP (fun visit => visit.closingEvent.isCompleted) +
      visits.countP fun visit => visit.closingEvent.isWarned := by
  induction visits with
  | nil => rfl
  | cons visit rest ih =>
    have hone : (if visit.isAdded then 1 else 0) =
        (if visit.closingEvent.isCompleted then 1 else 0) +
          if visit.closingEvent.isWarned then 1 else 0 := by
      rw [visit.isAdded_eq]
      cases visit.closingEvent <;> rfl
    rw [List.countP_cons, List.countP_cons, List.countP_cons, ih, hone]
    omega

/-- **The report on some visits says what their events say.** -/
theorem Report.ofVisits_tallies (total : Nat) (visits : List Visit) (bytesWritten : Nat)
    (elapsed : Duration) :
    (Report.ofVisits visits bytesWritten elapsed).Tallies
      ((episodesFrom total 1 visits).flatten ++ [.finished]) where
  filesAdded := by
    rw [List.countP_append, List.countP_append, countP_episodesFrom (fun _ _ _ => rfl) fun _ => rfl,
      countP_episodesFrom (fun _ _ _ => rfl) fun _ => rfl]
    exact countP_isAdded visits
  entriesFailed := by
    rw [List.countP_append, countP_episodesFrom (fun _ _ _ => rfl) fun _ => rfl]
    simp only [← Visit.isContentFailure_eq]
    rfl
  skipped := by
    rw [List.filterMap_append, filterMap_episodesFrom (fun _ _ _ => rfl) fun _ => rfl]
    simp only [← Visit.skippedInput?_eq]
    exact (List.append_nil _).symm
  warnings := by
    rw [List.filterMap_append, filterMap_episodesFrom (fun _ _ _ => rfl) fun _ => rfl]
    simp only [← Visit.warning?_eq]
    exact (List.append_nil _).symm

/-- The report is clean if and only if every input was completed, if the run went through. -/
theorem Report.isClean_iff_completed {visits : List Visit}
    (h : ∀ visit ∈ visits, visit.fatal? = none) (bytesWritten : Nat) (elapsed : Duration)
    (total number : Nat) :
    (Report.ofVisits visits bytesWritten elapsed).isClean = true ↔
      ∀ episode ∈ episodesFrom total number visits, ∃ path, .completed path ∈ episode := by
  rw [isClean_ofVisits]
  induction visits generalizing number with
  | nil => exact ⟨fun _ => nofun, fun _ => nofun⟩
  | cons visit rest ih =>
    obtain ⟨hvisit, hrest⟩ := List.forall_mem_cons.1 h
    have hone : (∃ path, .completed path ∈ visit.events total number) ↔ visit.IsClean := by
      rw [Visit.isClean_iff_of_fatal? hvisit]
      constructor
      · rintro ⟨path, hpath⟩
        have hclosing := Visit.completed_mem_events.1 hpath
        rwa [Visit.path_of_closingEvent hclosing] at hclosing
      · exact fun hclosing => ⟨_, Visit.completed_mem_events.2 hclosing⟩
    rw [episodesFrom, List.forall_mem_cons, List.forall_mem_cons, hone, ih hrest]

/-- Every input is accounted for once, if the run went through. -/
theorem Report.inputsSeen_ofVisits {visits : List Visit}
    (h : ∀ visit ∈ visits, visit.fatal? = none) (bytesWritten : Nat) (elapsed : Duration) :
    (Report.ofVisits visits bytesWritten elapsed).inputsSeen = visits.length := by
  show visits.countP (·.isAdded) + (visits.filterMap fun visit =>
    visit.skipText?.map (SkippedInput.mk visit.path)).length +
      visits.countP (·.isContentFailure) = visits.length
  induction visits with
  | nil => rfl
  | cons visit rest ih =>
    obtain ⟨hvisit, hrest⟩ := List.forall_mem_cons.1 h
    have hone := Visit.counts_one hvisit
    have hrest := ih hrest
    rw [List.countP_cons, List.countP_cons, List.length_cons]
    rw [List.filterMap_cons]
    cases hskip : visit.skipText?.map (SkippedInput.mk visit.path) with
    | none =>
      rw [hskip, Option.toList_none, List.length_nil] at hone
      dsimp only
      omega
    | some skipped =>
      rw [hskip, Option.toList_some, List.length_singleton] at hone
      rw [List.length_cons]
      omega

/-! ## Runs -/

section Runs

variable {β δ ε ς : Type}

theorem Writer.encoder_append (writer : Writer β δ ς) (name : Bytes) (metadata : Metadata)
    (source : ς) : (writer.append name metadata source).2.1.encoder = writer.encoder := by
  obtain ⟨encoder, state, d, entries, phase⟩ := writer
  cases phase <;> rfl

variable [Destination δ ε]

theorem encoder_visit (writer : Writer β δ (Metered ς)) (input : Input ε ς) :
    (visit writer input).2.encoder = writer.encoder := by
  rw [visit]
  cases input.resolve (Destination.environment writer.destination) with
  | error reason => rfl
  | ok resolved => exact writer.encoder_append _ _ _

theorem path_visit (writer : Writer β δ (Metered ς)) (input : Input ε ς) :
    (visit writer input).1.path = input.path := by
  rw [visit]
  cases input.resolve (Destination.environment writer.destination) <;> rfl

/-- A run that met no fatal error visited every input, and no visit met one. -/
theorem of_visitAll_none {writer after : Writer β δ (Metered ς)} {inputs : List (Input ε ς)}
    {visits : List Visit} (h : visitAll writer inputs = (visits, none, after)) :
    visits.length = inputs.length ∧ ∀ visit ∈ visits, visit.fatal? = none := by
  induction inputs generalizing writer visits with
  | nil =>
    cases h
    exact ⟨rfl, nofun⟩
  | cons input inputs ih =>
    obtain ⟨rest, hfatal, hrest, rfl⟩ := of_visitAll_cons h
    obtain ⟨hlength, hnone⟩ := ih hrest
    exact ⟨congrArg (· + 1) hlength, List.forall_mem_cons.2 ⟨hfatal, hnone⟩⟩

/-- A run that met a fatal error met it at the last input that it visited. -/
theorem of_visitAll_some {writer after : Writer β δ (Metered ς)} {inputs : List (Input ε ς)}
    {visits : List Visit} {e : ArchiveError} (h : visitAll writer inputs = (visits, some e, after)) :
    ∃ earlier last before input behind, visits = earlier ++ [last] ∧
      inputs = before ++ input :: behind ∧ earlier.length = before.length ∧
      last.path = input.path ∧ last.fatal? = some e := by
  induction inputs generalizing writer visits with
  | nil => cases h
  | cons input inputs ih =>
    cases hfatal : (visit writer input).1.fatal? with
    | some cause =>
      rw [visitAll_fatal hfatal] at h
      cases h
      exact ⟨[], _, [], input, inputs, rfl, rfl, rfl, path_visit writer input, hfatal⟩
    | none =>
      rcases hrest : visitAll (visit writer input).2 inputs with ⟨rest, failure, last⟩
      rw [visitAll_cons hfatal hrest] at h
      cases h
      obtain ⟨earlier, last, before, other, behind, rfl, rfl, hlength, hpath, hlast⟩ := ih hrest
      exact ⟨_ :: earlier, last, input :: before, other, behind, rfl, rfl,
        congrArg (· + 1) hlength, hpath, hlast⟩

/-- The events of a run are those of its visits, and behind them its end if it succeeds. -/
theorem events_createOn (writer : Writer β δ (Metered ς)) (inputs : List (Input ε ς))
    (elapsed : Duration) :
    (createOn writer inputs elapsed).events =
      (episodesFrom inputs.length 1 (visitAll writer inputs).1).flatten ++
        if (createOn writer inputs elapsed).result.isOk then [.finished] else [] := by
  obtain ⟨hvisits, htotal⟩ := visits_createOn writer inputs elapsed
  rw [Creation.events, hvisits, htotal, Creation.eventsFrom_eq]
  cases (createOn writer inputs elapsed).result <;> rfl

/-- A run that fails met a fatal error, or could not finish its archive. -/
theorem of_createOn_eq_error {writer : Writer β δ (Metered ς)} {inputs : List (Input ε ς)}
    {elapsed : Duration} {e : ArchiveError} (h : (createOn writer inputs elapsed).result = .error e) :
    ∃ visits after, visitAll writer inputs = (visits, some e, after) ∨
      visitAll writer inputs = (visits, none, after) ∧ after.finish.1 = .error e := by
  rw [createOn] at h
  rcases hvisits : visitAll writer inputs with ⟨visits, _ | cause, after⟩ <;> rw [hvisits] at h
  · dsimp only at h
    refine ⟨visits, after, .inr ⟨rfl, ?_⟩⟩
    rcases hfinish : after.finish with ⟨cause | _, finished⟩ <;> rw [hfinish] at h <;> cases h
    rfl
  · cases h
    exact ⟨visits, after, .inl rfl⟩

/-- A fatal error that ends a run is told. -/
theorem failed_mem_events {writer after : Writer β δ (Metered ς)} {inputs : List (Input ε ς)}
    {visits : List Visit} {e : ArchiveError} (h : visitAll writer inputs = (visits, some e, after))
    (elapsed : Duration) :
    e.isFatal = true ∧ ∃ path, .failed path e ∈ (createOn writer inputs elapsed).events := by
  obtain ⟨earlier, last, -, -, -, rfl, -, -, -, hlast⟩ := of_visitAll_some h
  obtain ⟨hclosing, hfatal⟩ := Visit.closingEvent_of_fatal? hlast
  have hmem := List.mem_of_getLast? (getLast?_episodesFrom inputs.length 1 earlier last)
  rw [hclosing] at hmem
  refine ⟨hfatal, last.path, ?_⟩
  rw [events_createOn, h]
  exact List.mem_append_left _ hmem

/-- What the inputs see behind the first `count` of them. -/
def environmentBehind (writer : Writer β δ (Metered ς)) (inputs : List (Input ε ς)) (count : Nat) :
    ε :=
  Destination.environment (visitAll writer (inputs.take count)).2.2.destination

variable [Source ε ς]

/-- Whatever a writer does with the source of an entry, it reads it, if its encoder does no more. -/
theorem Writer.append_reads {writer : Writer β δ ς} (hreads : writer.encoder.OnlyReads)
    (name : Bytes) (metadata : Metadata) (source : ς) :
    ∃ bytes, ReadsTo ε source bytes (writer.append name metadata source).2.2 := by
  obtain ⟨encoder, state, d, entries, phase⟩ := writer
  cases phase with
  | accepting => exact hreads state d name metadata source
  | finished => exact ⟨[], .refl source⟩
  | poisoned => exact ⟨[], .refl source⟩

/-- **The events of a visit are an episode.** -/
theorem visit_isEpisode {writer : Writer β δ (Metered ς)} (hreads : writer.encoder.OnlyReads)
    (input : Input ε ς) (total number : Nat) :
    IsEpisode (Destination.environment writer.destination) total number input
      ((visit writer input).1.events total number) := by
  rw [visit]
  cases hresolve : input.resolve (Destination.environment writer.destination) with
  | error reason => exact .passedOver hresolve
  | ok resolved =>
    obtain ⟨path, name, status, content⟩ := resolved
    dsimp only
    obtain ⟨bytes, hread⟩ := Writer.append_reads hreads name status.normalize
      (Metered.start content Metered.usualThreshold)
    have hcounts := hread.close.1 (Metered.isTelling_start content Metered.usualThreshold)
    generalize writer.append name status.normalize
      (.start content Metered.usualThreshold) = appended at hcounts ⊢
    obtain ⟨result, after, source⟩ := appended
    refine .attempted hresolve hcounts ?_
    rw [Visit.closingEvent]
    rcases result with e | size
    · dsimp only
      by_cases h : e.severity = .warning
      · rw [if_pos h]
        exact .warned h
      · rw [if_neg h]
        exact .failed h
    · exact .completed

/-- **The events of a run are episodes**, one for each input that the run comes to. -/
theorem visitAll_isEpisode {writer : Writer β δ (Metered ς)} (hreads : writer.encoder.OnlyReads)
    (inputs : List (Input ε ς)) (total number : Nat) {i : Nat} {episode : List Event}
    (h : (episodesFrom total number (visitAll writer inputs).1)[i]? = some episode) :
    ∃ input, inputs[i]? = some input ∧
      IsEpisode (environmentBehind writer inputs i) total (number + i) input episode := by
  induction inputs generalizing writer number i with
  | nil => cases h
  | cons input inputs ih =>
    cases hfatal : (visit writer input).1.fatal? with
    | some e =>
      rw [visitAll_fatal hfatal] at h
      cases i with
      | zero =>
        cases h
        exact ⟨input, rfl, visit_isEpisode hreads input total number⟩
      | succ i => cases h
    | none =>
      rw [visitAll_cons hfatal rfl] at h
      cases i with
      | zero =>
        cases h
        exact ⟨input, rfl, visit_isEpisode hreads input total number⟩
      | succ i =>
        have hnext : (visit writer input).2.encoder.OnlyReads := by
          rw [encoder_visit]
          exact hreads
        obtain ⟨other, hother, hepisode⟩ := ih hnext (number + 1) h
        refine ⟨other, hother, ?_⟩
        rw [environmentBehind, List.take_succ_cons, visitAll_cons hfatal rfl, Nat.add_comm i,
          ← Nat.add_assoc]
        exact hepisode

/-- **What a run tells**, for every encoder that does no more with its sources than read them, every
destination, every writer in every state, and all inputs.

* The events are one episode for each input that the run comes to, in order, each with the number of
  its input; behind them the end of the run is told, if it succeeds and not otherwise.
* A run that fails told a fatal error for the last input that it came to, and returns it; or it came
  to every input, and its archive could not be finished.
* A run that succeeds came to every input.  Its report accounts for each of them and says what the
  events say; it is clean exactly if every input was completed. -/
theorem run_tells {writer : Writer β δ (Metered ς)} (hreads : writer.encoder.OnlyReads)
    (inputs : List (Input ε ς)) (elapsed : Duration) :
    let creation := createOn writer inputs elapsed
    ∃ episodes : List (List Event),
      creation.events = episodes.flatten ++ (if creation.result.isOk then [.finished] else []) ∧
      .finished ∉ episodes.flatten ∧
      (∀ i episode, episodes[i]? = some episode → ∃ input, inputs[i]? = some input ∧
        IsEpisode (environmentBehind writer inputs i) inputs.length (i + 1) input episode) ∧
      (∀ e, creation.result = .error e →
        (∃ before input behind, inputs = before ++ input :: behind ∧
          episodes.length = before.length + 1 ∧ e.isFatal = true ∧
          creation.events.getLast? = some (.failed input.path e)) ∨
        (episodes.length = inputs.length ∧ (visitAll writer inputs).2.1 = none ∧
          (visitAll writer inputs).2.2.finish.1 = .error e)) ∧
      ∀ report, creation.result = .ok report →
        episodes.length = inputs.length ∧ report.inputsSeen = inputs.length ∧
        report.Tallies creation.events ∧
        (report.isClean = true ↔ ∀ episode ∈ episodes, ∃ path, .completed path ∈ episode) := by
  intro creation
  have hepisodes : ∀ i episode,
      (episodesFrom inputs.length 1 (visitAll writer inputs).1)[i]? = some episode →
        ∃ input, inputs[i]? = some input ∧
          IsEpisode (environmentBehind writer inputs i) inputs.length (i + 1) input episode := by
    intro i episode h
    rw [Nat.add_comm i]
    exact visitAll_isEpisode hreads inputs inputs.length 1 h
  have hevents := events_createOn writer inputs elapsed
  refine ⟨episodesFrom inputs.length 1 (visitAll writer inputs).1, hevents, ?_, hepisodes, ?_, ?_⟩
  · rw [List.mem_flatten]
    rintro ⟨episode, hmem, hfinished⟩
    obtain ⟨i, hi⟩ := List.mem_iff_getElem?.1 hmem
    obtain ⟨input, -, hepisode⟩ := hepisodes i episode hi
    exact hepisode.finished_notMem hfinished
  · intro e he
    rw [he] at hevents
    obtain ⟨visits, after, hvisits | ⟨hvisits, hfinish⟩⟩ := of_createOn_eq_error he
    · obtain ⟨earlier, last, before, input, behind, rfl, hinputs, hlength, hpath, hlast⟩ :=
        of_visitAll_some hvisits
      obtain ⟨hclosing, hisFatal⟩ := Visit.closingEvent_of_fatal? hlast
      rw [hvisits] at hevents ⊢
      refine .inl ⟨before, input, behind, hinputs, ?_, hisFatal, ?_⟩
      · rw [length_episodesFrom, List.length_append, hlength, List.length_singleton]
      · rw [hevents, Except.isOk, Except.toBool, if_neg Bool.false_ne_true, List.append_nil,
          getLast?_episodesFrom, hclosing, hpath]
    · rw [hvisits]
      exact .inr ⟨(length_episodesFrom _ _ _).trans (of_visitAll_none hvisits).1, rfl, hfinish⟩
  · intro report hreport
    obtain ⟨visits, after, hvisits, -, -, bytesWritten, rfl⟩ := of_createOn_eq_ok hreport
    obtain ⟨hlength, hnone⟩ := of_visitAll_none hvisits
    rw [hreport] at hevents
    rw [hevents, hvisits]
    exact ⟨(length_episodesFrom _ _ _).trans hlength,
      (Report.inputsSeen_ofVisits hnone bytesWritten elapsed).trans hlength,
      Report.ofVisits_tallies inputs.length visits bytesWritten elapsed,
      Report.isClean_iff_completed hnone bytesWritten elapsed inputs.length 1⟩

end Runs

/-- A path that does not end in a name and a file that ends a byte early: the newc encoder only
reads, and the report accounts for both and says what the events say. -/
theorem run_tells_short_file :
    let writer := Newc.writer (Metered Script) 512 Sink.empty
    let creation := createOn writer
      ([Site.ofFile [97, 47] (.regular 3 0o644) ⟨[.deliver [1, 2, 3]]⟩,
        Site.ofFile [97] (.regular 3 0o644) ⟨[.deliver [1, 2]]⟩].map (Site.input {})) .zero
    writer.encoder.OnlyReads ∧
      ∃ report, creation.result = .ok report ∧ report.inputsSeen = 2 ∧
        report.Tallies creation.events := by
  intro writer creation
  have hreads : writer.encoder.OnlyReads := Newc.onlyReads_encoder
  obtain ⟨report, hresult, -⟩ := Sink.reliable.createOn_ok Sink.unlimited_empty 512
    ([Site.ofFile [97, 47] (.regular 3 0o644) ⟨[.deliver [1, 2, 3]]⟩,
      Site.ofFile [97] (.regular 3 0o644) ⟨[.deliver [1, 2]]⟩].map (Site.input {})) .zero
  obtain ⟨episodes, -, -, -, -, hok⟩ := run_tells hreads
    ([Site.ofFile [97, 47] (.regular 3 0o644) ⟨[.deliver [1, 2, 3]]⟩,
      Site.ofFile [97] (.regular 3 0o644) ⟨[.deliver [1, 2]]⟩].map (Site.input {})) .zero
  obtain ⟨-, hseen, htallies, -⟩ := hok report hresult
  exact ⟨hreads, report, hresult, hseen, htallies⟩

end CpioArchive
