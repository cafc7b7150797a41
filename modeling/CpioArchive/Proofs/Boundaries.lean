import Mathlib
import CpioArchive.Newc.Reader
import CpioArchive.Proofs.Arrivals
import CpioArchive.Proofs.Lifecycle
import CpioArchive.Proofs.Sinks
import CpioArchive.Stream.Script

/-!
# Record boundaries

Where a newc writer stands between two records, on a destination that may refuse any write.

* `Faithful.append_arrives` — what one append puts on the destination if the writer goes on;
* `Faithful.arrives` — as long as the writer accepts entries, its destination holds one arrival for
  each record that was begun, and nothing between them;
* `Arrives.add_totalMissing`, `Arrives.isWhole` — what the arrivals lack is what the answers tell
  of;
* `record_boundaries` — so the writer stands at a record boundary unless padding was lost, of which
  an answer tells;
* `record_boundary_lost` — and then it does not, though it goes on.
-/

namespace CpioArchive

open Newc

section Boundaries

/-! ## Arrivals of appends -/

variable {β δ ε ς : Type}

/-- The answer does not tell of padding that could not be written. -/
def Turn.IsPadded (turn : Turn β δ ς) : Prop :=
  ∀ result, turn.answer = .appended result → ¬ IsUnpadded result

theorem Turn.IsPadded.of_answer {turn : Turn β δ ς} {result : Except ArchiveError RecordSize}
    (hanswer : turn.answer = .appended result) (hresult : ¬ IsUnpadded result) : turn.IsPadded := by
  intro other hother
  cases hanswer.symm.trans hother
  exact hresult

variable [Source ε ς]

/-- What appends put on a destination while the writer went on.  Each of them is refused for its
header, or its record arrives and is what its source delivered. -/
inductive Arrives (seen : ε → Prop) : List (Turn β δ ς) → List Arrival → Prop
  | nil : Arrives seen [] []
  | refused {turn : Turn β δ ς} {turns : List (Turn β δ ς)} {arrivals : List Arrival}
      {submission : Submission ς} {e : ArchiveError} (hcall : turn.call = .append submission)
      (hheader : (Header.ofMetadata submission.name submission.metadata).encode = .error e)
      (hanswer : turn.answer = .appended (.error e)) (hrest : Arrives seen turns arrivals) :
      Arrives seen (turn :: turns) arrivals
  | recorded {turn : Turn β δ ς} {turns : List (Turn β δ ς)} {arrivals : List Arrival}
      {submission : Submission ς} {header bytes : Bytes} {ending : Ending} {missing : Nat}
      {result : Except ArchiveError RecordSize} (hcall : turn.call = .append submission)
      (hheader : (Header.ofMetadata submission.name submission.metadata).encode = .ok header)
      (hdelivers : Delivers seen submission.source bytes ending)
      (hanswer : turn.answer = .appended result)
      (hreports : Arrival.Reports
        ⟨⟨submission.name, submission.metadata, bytes, ending⟩, missing⟩ result)
      (hrest : Arrives seen turns arrivals) :
      Arrives seen (turn :: turns)
        (⟨⟨submission.name, submission.metadata, bytes, ending⟩, missing⟩ :: arrivals)

variable {seen : ε → Prop} {turns : List (Turn β δ ς)} {arrivals : List Arrival}

theorem Arrives.append {more : List (Turn β δ ς)} {others : List Arrival}
    (h : Arrives seen turns arrivals) (hmore : Arrives seen more others) :
    Arrives seen (turns ++ more) (arrivals ++ others) := by
  induction h with
  | nil => exact hmore
  | refused hcall hheader hanswer _ ih => exact .refused hcall hheader hanswer ih
  | recorded hcall hheader hdelivers hanswer hreports _ ih =>
    exact .recorded hcall hheader hdelivers hanswer hreports ih

/-- **What arrived and what is missing make up whole records.** -/
theorem Arrives.add_totalMissing (h : Arrives seen turns arrivals) :
    (arrivals.map Arrival.bytes).flatten.length + Arrival.totalMissing arrivals =
      ((arrivals.map Arrival.record).map Record.bytes).flatten.length := by
  induction h with
  | nil => rfl
  | refused _ _ _ _ ih => exact ih
  | recorded _ _ _ _ hreports _ ih =>
    have hlength := hreports.length_bytes_add
    dsimp only at hlength
    simp only [List.map_cons, List.flatten_cons, List.length_append, Arrival.totalMissing]
    omega

/-- If no answer tells of lost padding, nothing is missing. -/
theorem Arrives.isWhole (h : Arrives seen turns arrivals)
    (hpadded : ∀ turn ∈ turns, turn.IsPadded) :
    arrivals.map Arrival.bytes = (arrivals.map Arrival.record).map Record.bytes := by
  induction h with
  | nil => rfl
  | refused _ _ _ _ ih => exact ih fun turn hturn => hpadded turn (.tail _ hturn)
  | recorded _ _ _ hanswer hreports _ ih =>
    have hwhole := mt hreports.isUnpadded_iff.2 (hpadded _ (.head _) _ hanswer)
    obtain rfl := Decidable.not_not.1 hwhole
    rw [List.map_cons, List.map_cons, List.map_cons, Arrival.bytes_whole,
      ih fun turn hturn => hpadded turn (.tail _ hturn)]

/-! ## Appends, one after the other -/

variable [Destination δ ε]

section Counted

variable {good : Counted δ → Prop} {held : Counted δ → Bytes} {d : Counted δ}
variable {writer : Writer CopyBuffer δ ς}

/-- **One append** that leaves the writer accepting puts an arrival on its destination, or nothing
if the header is refused. -/
theorem Faithful.append_arrives (F : Faithful good held)
    (henvironment : ∀ {d : Counted δ}, good d → seen (Destination.environment d)) (hd : good d)
    (hwriter : writer.Stands .accepting d) {submission : Submission ς}
    (h : (writer.perform (.append submission)).after.phase = .accepting) :
    ∃ arrivals next, Arrives seen [writer.perform (.append submission)] arrivals ∧
      (writer.perform (.append submission)).after.Stands .accepting next ∧ good next ∧
      held next = held d ++ (arrivals.map Arrival.bytes).flatten := by
  cases hheader : (Header.ofMetadata submission.name submission.metadata).encode with
  | error e =>
    have hrefused := Writer.append_refused hwriter submission.source hheader
    have hperform : writer.perform (.append submission) =
        ⟨writer, .append submission, .appended (.error e), writer⟩ := by
      rw [Writer.perform, hrefused]
    rw [hperform]
    exact ⟨[], d, .refused rfl hheader rfl .nil, hwriter, hd, by simp⟩
  | ok header =>
    obtain ⟨bytes, ending, pieces, hdelivers, hpieces, hresult, hstands⟩ :=
      Writer.append_spec F henvironment hd hwriter submission.source hheader
    have hgood := (F.writeRecord hd hpieces).1
    rw [hresult] at hstands
    rcases F.writeRecord_arrival hd hpieces with ⟨cause, hio⟩ | ⟨missing, hreports, hheld⟩
    · -- A write that failed in front of the padding poisons the writer.
      have hpoisoned := hstands.phase
      rw [hio] at hpoisoned
      cases h.symm.trans hpoisoned
    · rw [hreports.after_eq] at hstands
      refine ⟨[⟨⟨submission.name, submission.metadata, bytes, ending⟩, missing⟩], _, ?_, hstands,
        hgood, ?_⟩
      · refine .recorded (by rw [Writer.call_perform]) hheader hdelivers ?_ hreports .nil
        exact congrArg Answer.appended hresult
      · rw [hheld, List.map_singleton, List.flatten_singleton]

/-- **While a writer accepts entries, its destination holds arrivals** and nothing between them. -/
theorem Faithful.arrives (F : Faithful good held)
    (henvironment : ∀ {d : Counted δ}, good d → seen (Destination.environment d)) (hd : good d)
    (hwriter : writer.Stands .accepting d) (submissions : List (Submission ς))
    (h : (writer.behind (submissions.map .append)).phase = .accepting) :
    ∃ arrivals last, Arrives seen (writer.turns (submissions.map .append)) arrivals ∧
      (writer.behind (submissions.map .append)).Stands .accepting last ∧ good last ∧
      held last = held d ++ (arrivals.map Arrival.bytes).flatten := by
  induction submissions generalizing writer d with
  | nil => exact ⟨[], d, .nil, hwriter, hd, by simp⟩
  | cons submission submissions ih =>
    rw [List.map_cons] at h ⊢
    change ((writer.perform (.append submission)).after.behind _).phase = .accepting at h
    -- A writer that accepts entries in the end accepted them all along.
    have hafter : (writer.perform (.append submission)).after.phase = .accepting := by
      refine Decidable.byContradiction fun hne => hne ?_
      rw [← (Writer.behind_of_ne hne (submissions.map .append)).1, h]
    obtain ⟨first, next, hfirst, hstands, hgood, hheld⟩ :=
      F.append_arrives henvironment hd hwriter hafter
    obtain ⟨rest, last, hrest, hlast, hgood', hheld'⟩ := ih hgood hstands h
    refine ⟨first ++ rest, last, hfirst.append hrest, hlast, hgood', ?_⟩
    rw [hheld', hheld, List.append_assoc, List.map_append, List.flatten_append]

end Counted

/-! ## Record boundaries -/

/-- **Where a writer stands that goes on**, after any appends of which the last did not meet a fatal
error, on a destination that may refuse any write or take only a part of it.  The destination holds
the arrivals of the records that were begun, in their order, and the writer has counted their bytes.
If no answer told of lost padding, the arrivals are whole records and the writer stands at a record
boundary.  If one did, it stands at a multiple of four only if the lost bytes add up to one. -/
theorem record_boundaries {good : δ → Prop} {held : δ → Bytes} (F : Faithful good held)
    (henvironment : ∀ {d : δ}, good d → seen (Destination.environment d)) {d : δ} (hd : good d)
    (bufferSize : Nat) (earlier : List (Submission ς)) (submission : Submission ς) :
    let writer := Newc.writer ς bufferSize d
    let turns := writer.turns ((earlier ++ [submission]).map .append)
    let turn := (writer.behind (earlier.map .append)).perform (.append submission)
    let last := turn.after
    (∀ e, turn.answer = .appended (.error e) → e.isFatal = false) →
      ∃ arrivals, last.phase = .accepting ∧ Arrives seen turns arrivals ∧
        held last.destination.inner = held d ++ (arrivals.map Arrival.bytes).flatten ∧
        last.bytesWritten = (arrivals.map Arrival.bytes).flatten.length ∧
        ((∀ turn ∈ turns, turn.IsPadded) → last.bytesWritten % 4 = 0 ∧
          held last.destination.inner =
            held d ++ ((arrivals.map Arrival.record).map Record.bytes).flatten) ∧
        (last.bytesWritten % 4 = 0 ↔ Arrival.totalMissing arrivals % 4 = 0) := by
  intro writer turns turn last hsurvived
  have hphase : last.phase = .accepting := Writer.accepting_of_survived hsurvived
  have hlast : writer.behind ((earlier ++ [submission]).map .append) = last := by
    rw [List.map_append, Writer.behind_append]
    rfl
  obtain ⟨arrivals, stand, harrives, hstands, hgood, hheld⟩ :=
    (F.counted (held d).length).arrives (fun hd => henvironment hd.1) (Counted.tracks_fresh hd)
      (Writer.stands_writer (ς := ς) bufferSize d) (earlier ++ [submission])
      ((congrArg Writer.phase hlast).trans hphase)
  rw [show (Newc.writer ς bufferSize d).behind _ = last from hlast] at hstands
  obtain rfl : last.destination = stand := hstands.destination
  change held last.destination.inner = held d ++ _ at hheld
  have hcount : last.bytesWritten = (arrivals.map Arrival.bytes).flatten.length := by
    have hlength := hgood.2
    rw [hheld, List.length_append] at hlength
    exact (Nat.add_left_cancel hlength).symm
  have haligned : last.bytesWritten % 4 = 0 ↔ Arrival.totalMissing arrivals % 4 = 0 := by
    have hsum := harrives.add_totalMissing
    have hrecords := Record.length_flatten_bytes_mod (arrivals.map Arrival.record)
    rw [alignment] at hrecords
    rw [hcount]
    omega
  refine ⟨arrivals, hphase, harrives, hheld, hcount, fun hpadded => ?_, haligned⟩
  have hwhole := harrives.isWhole hpadded
  refine ⟨?_, by rw [hheld, hwhole]⟩
  rw [hcount, hwhole]
  exact Record.length_flatten_bytes_mod (arrivals.map Arrival.record)

end Boundaries

/-- A file with one byte in it. -/
def Submission.ofByte (name content : UInt8) : Submission Script :=
  ⟨[name], .regular 1 0o644, ⟨[.deliver [content]]⟩⟩

/-- A file that should have five bytes and has one. -/
def Submission.truncated : Submission Script := ⟨[97], .regular 5 0o644, ⟨[.deliver [120]]⟩⟩

/-- Two files at a sink that takes a few bytes at a time.  If the first file is too short, which is
no fatal error, the writer stands at a record boundary behind both of them; if the first one loses
its padding, it does not. -/
theorem record_boundaries_two_files :
    (let sink : Sink := { largestWrite := some 50, interrupts := 2 }
      let writer := Newc.writer Script 512 sink
      let last := writer.behind [.append .truncated, .append (.ofByte 98 121)]
      (writer.perform (.append .truncated)).answer = .appended (.error (.lengthMismatch 5 1)) ∧
        last.phase = .accepting ∧ last.bytesWritten % 4 = 0 ∧
        ∃ records : List Record,
          last.destination.inner.data.toList = (records.map Record.bytes).flatten) ∧
      let sink : Sink := { failOnceAt := some 113, largestWrite := some 50, interrupts := 2 }
      let last := (Newc.writer Script 512 sink).behind
        [.append (.ofByte 97 120), .append (.ofByte 98 121)]
      last.phase = .accepting ∧ last.bytesWritten = 229 ∧
        ∃ arrivals : List Arrival,
          last.destination.inner.data.toList = (arrivals.map Arrival.bytes).flatten ∧
          Arrival.totalMissing arrivals % 4 ≠ 0 := by
  have henvironment : ∀ {d : Sink}, True → Always (Destination.environment d) := fun _ => trivial
  constructor
  · intro sink writer last
    have hfirst : (writer.perform (.append .truncated)).answer =
        .appended (.error (.lengthMismatch 5 1)) := by
      dsimp only [writer, sink]
      set_option maxRecDepth 100000 in cbv
    have hsecond : ((writer.behind [.append .truncated]).perform
        (.append (.ofByte 98 121))).answer = .appended (.ok ⟨112, 1, 3⟩) := by
      dsimp only [writer, sink]
      set_option maxRecDepth 100000 in cbv
    obtain ⟨arrivals, hphase, -, -, -, hwhole, -⟩ :=
      record_boundaries Sink.faithful henvironment (d := sink) trivial 512 [.truncated]
        (.ofByte 98 121) (by
          intro e he
          cases hsecond.symm.trans he)
    have hpadded : ∀ turn ∈ writer.turns [.append .truncated, .append (.ofByte 98 121)],
        turn.IsPadded := by
      refine List.forall_mem_cons.2 ⟨.of_answer hfirst ?_, List.forall_mem_singleton.2
        (.of_answer hsecond ?_)⟩
      · rintro ⟨cause, hcause⟩
        cases hcause
      · rintro ⟨cause, hcause⟩
        cases hcause
    obtain ⟨hboundary, hheld⟩ := hwhole hpadded
    exact ⟨hfirst, hphase, hboundary, _, hheld⟩
  · intro sink last
    have hrun : ((((Newc.writer Script 512 sink).behind [.append (.ofByte 97 120)]).perform
          (.append (.ofByte 98 121))).answer, last.bytesWritten) =
        (.appended (.ok ⟨112, 1, 3⟩), 229) := by
      dsimp only [last, sink]
      set_option maxRecDepth 100000 in cbv
    obtain ⟨hanswer, hwritten⟩ := Prod.mk.inj hrun
    obtain ⟨arrivals, hphase, -, hheld, -, -, haligned⟩ :=
      record_boundaries Sink.faithful henvironment (d := sink) trivial 512 [.ofByte 97 120]
        (.ofByte 98 121) (by
          intro e he
          cases hanswer.symm.trans he)
    refine ⟨hphase, hwritten, arrivals, hheld, ?_⟩
    rw [ne_eq, ← haligned]
    change ¬ last.bytesWritten % 4 = 0
    rw [hwritten]
    decide

/-- **A record boundary can be lost while the writer goes on.**  One write fails, in the padding of
the only entry.  That is no fatal error, and the archive is closed without another; but the trailer
starts one byte behind a multiple of four, and the archive cannot be read. -/
theorem record_boundary_lost :
    let sink : Sink := { failOnceAt := some 113 }
    let turn := (Newc.writer Script 512 sink).perform (.append (.ofByte 97 120))
    let closing := turn.after.perform .finish
    turn.answer = .appended (.error (.entryUnfinished sink.error)) ∧
      (ArchiveError.entryUnfinished sink.error).isFatal = false ∧
      turn.after.phase = .accepting ∧
      turn.after.bytesWritten % 4 = 1 ∧
      closing.answer = .finished (.ok ()) ∧
      (readArchive closing.after.destination.inner.data.toList).toOption = none := by
  intro sink turn closing
  -- The run is evaluated once, for all that is said of it.
  have hrun : (turn.answer, turn.after.phase, turn.after.bytesWritten % 4, closing.answer,
        closing.after.destination.inner.data.toList) =
      (.appended (.error (.entryUnfinished sink.error)), .accepting, 1, .finished (.ok ()),
        (Header.ofMetadata [97] (.regular 1 0o644)).image ++ [120] ++ trailerRecord) := by
    dsimp only [closing, turn, sink]
    set_option maxRecDepth 100000 in cbv
  simp only [Prod.mk.injEq] at hrun
  obtain ⟨hanswer, hphase, hwritten, hclosing, hdata⟩ := hrun
  refine ⟨hanswer, rfl, hphase, hwritten, hclosing, ?_⟩
  rw [hdata]
  decide +kernel

end CpioArchive
