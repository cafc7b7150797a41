import CpioArchive.Creation.Event
import CpioArchive.Creation.Input
import CpioArchive.Creation.Report
import CpioArchive.Stream.Metered
import CpioArchive.Writer
/-!
# Creation runs

A run visits its inputs in order and appends those that resolve.  An error that costs only one input
is recorded and the run goes on; a fatal error ends it.  After the last input the archive is
finished.  In every case the writer is given up at the end.
-/

namespace CpioArchive

/-- The report on a run that visited these inputs and then finished. -/
def Report.ofVisits (visits : List Visit) (bytesWritten : Nat) (duration : Duration) : Report where
  filesAdded := visits.countP (·.isAdded)
  skipped := visits.filterMap fun visit => visit.skipText?.map (⟨visit.path, ·⟩)
  entriesFailed := visits.countP (·.isContentFailure)
  bytesRead := visits.foldr (fun visit total => visit.accountedBytes + total) 0
  bytesWritten
  duration
  warnings := visits.filterMap (·.warning?)

/-- What a run leaves behind. -/
structure Creation (δ : Type) where
  /-- The inputs that were visited, in order. -/
  visits : List Visit
  /-- How many inputs there were. -/
  total : Nat
  result : Except ArchiveError Report
  /-- The destination after the writer has been given up. -/
  destination : δ

namespace Creation

/-- The events of visited inputs, of which the first has the given number. -/
def eventsFrom (total number : Nat) : List Visit → List Event
  | [] => []
  | visit :: rest => visit.events total number ++ eventsFrom total (number + 1) rest

/-- The events of a run, in order. -/
def events {δ : Type} (creation : Creation δ) : List Event :=
  eventsFrom creation.total 1 creation.visits
    ++ match creation.result with
      | .ok _ => [.finished]
      | .error _ => []

end Creation

variable {β δ ε ς : Type} [Destination δ ε]

/-- Visits one input. -/
def visit (writer : Writer β δ (Metered ς)) (input : Input ε ς) :
    Visit × Writer β δ (Metered ς) :=
  match input.resolve (Destination.environment writer.destination) with
  | .error reason => (⟨input.path, .skipped reason⟩, writer)
  | .ok ⟨_, name, status, content⟩ =>
    let metadata := status.normalize
    let (result, writer, source) :=
      writer.append name metadata (.start content Metered.usualThreshold)
    (⟨input.path, .attempted source.close metadata.size result⟩, writer)

/-- Visits inputs in order, up to the first fatal error, which is returned. -/
def visitAll (writer : Writer β δ (Metered ς)) :
    List (Input ε ς) → List Visit × Option ArchiveError × Writer β δ (Metered ς)
  | [] => ([], none, writer)
  | input :: rest =>
    let (visited, writer) := visit writer input
    match visited.fatal? with
    | some e => ([visited], some e, writer)
    | none =>
      let (visits, failure, writer) := visitAll writer rest
      (visited :: visits, failure, writer)

/-- Runs through all inputs, finishes the archive and gives the writer up.  `elapsed` is the time
that the report states. -/
def createOn (writer : Writer β δ (Metered ς)) (inputs : List (Input ε ς)) (elapsed : Duration) :
    Creation δ :=
  match visitAll writer inputs with
  | (visits, some e, writer) => ⟨visits, inputs.length, .error e, writer.release⟩
  | (visits, none, writer) =>
    match writer.finish with
    | (.error e, writer) => ⟨visits, inputs.length, .error e, writer.release⟩
    | (.ok (), writer) =>
      ⟨visits, inputs.length, .ok (.ofVisits visits writer.bytesWritten elapsed), writer.release⟩

end CpioArchive
