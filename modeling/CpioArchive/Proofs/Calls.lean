import CpioArchive.Writer

/-!
# Calls on a writer

A writer is used by a sequence of calls and then given up.  A `Turn` is one call, with the writer
before and behind it and with the answer; `Writer.turns` are the turns of a whole sequence.

* `Writer.turns_append`, `Writer.behind_append` — a sequence goes on where its first part ended;
* `Writer.inner_behind_farewell` — giving a writer up comes to calls on `finish`.
-/

namespace CpioArchive

/-- An entry as it is handed to a writer. -/
structure Submission (ς : Type) where
  name : Bytes
  metadata : Metadata
  source : ς

/-- A call on a writer. -/
inductive Call (ς : Type) where
  /-- Appends an entry. -/
  | append (submission : Submission ς)
  /-- Writes the trailer. -/
  | finish

/-- What a call returns. -/
inductive Answer where
  | appended (result : Except ArchiveError RecordSize)
  | finished (result : Except ArchiveError Unit)

/-- A call, the writer it is made on, what it returns and what it leaves behind. -/
structure Turn (β δ ς : Type) where
  before : Writer β δ ς
  call : Call ς
  answer : Answer
  after : Writer β δ ς

/-- How a writer is given up. -/
inductive Farewell where
  /-- It is unwrapped, and its destination is handed back. -/
  | unwrapped
  /-- It is released, and nothing is reported. -/
  | released

namespace Writer

variable {β δ ε ς : Type} [Destination δ ε]

/-- Makes a call. -/
def perform (writer : Writer β δ ς) (call : Call ς) : Turn β δ ς :=
  match call with
  | .append submission =>
    let (result, after, _) := writer.append submission.name submission.metadata submission.source
    ⟨writer, call, .appended result, after⟩
  | .finish =>
    let (result, after) := writer.finish
    ⟨writer, call, .finished result, after⟩

/-- The turns of a sequence of calls. -/
def turns (writer : Writer β δ ς) : List (Call ς) → List (Turn β δ ς)
  | [] => []
  | call :: rest => writer.perform call :: (writer.perform call).after.turns rest

/-- The writer behind a sequence of calls. -/
def behind (writer : Writer β δ ς) : List (Call ς) → Writer β δ ς
  | [] => writer
  | call :: rest => (writer.perform call).after.behind rest

@[simp] theorem before_perform (writer : Writer β δ ς) (call : Call ς) :
    (writer.perform call).before = writer := by
  cases call <;> rfl

@[simp] theorem call_perform (writer : Writer β δ ς) (call : Call ς) :
    (writer.perform call).call = call := by
  cases call <;> rfl

theorem turns_append (writer : Writer β δ ς) (first rest : List (Call ς)) :
    writer.turns (first ++ rest) = writer.turns first ++ (writer.behind first).turns rest := by
  induction first generalizing writer with
  | nil => rfl
  | cons call first ih =>
    rw [List.cons_append, turns, ih]
    rfl

theorem behind_append (writer : Writer β δ ς) (first rest : List (Call ς)) :
    writer.behind (first ++ rest) = (writer.behind first).behind rest := by
  induction first generalizing writer with
  | nil => rfl
  | cons call first ih => exact ih (writer.perform call).after

/-- What holds of every call holds of every turn. -/
theorem forall_mem_turns {motive : Turn β δ ς → Prop}
    (hperform : ∀ (writer : Writer β δ ς) (call : Call ς), motive (writer.perform call))
    (writer : Writer β δ ς) (calls : List (Call ς)) :
    ∀ turn ∈ writer.turns calls, motive turn := by
  induction calls generalizing writer with
  | nil => simp [turns]
  | cons call rest ih =>
    exact List.forall_mem_cons.2 ⟨hperform writer call, ih (writer.perform call).after⟩

/-! ## Giving a writer up -/

/-- The destination that is left when a writer is given up. -/
def giveUp (writer : Writer β δ ς) : Farewell → δ
  | .unwrapped => writer.intoInner.2
  | .released => writer.release

/-- The calls that giving a writer up comes to.  A writer that is unwrapped in vain is released. -/
def farewellCalls (writer : Writer β δ ς) : Farewell → List (Call ς)
  | .released => [.finish]
  | .unwrapped =>
    match writer.finish.1 with
    | .ok _ => [.finish]
    | .error _ => [.finish, .finish]

/-- Giving a writer up begins with a call on `finish`. -/
theorem exists_farewellCalls_eq (writer : Writer β δ ς) (farewell : Farewell) :
    ∃ more, writer.farewellCalls farewell = .finish :: more := by
  cases farewell with
  | released => exact ⟨[], rfl⟩
  | unwrapped =>
    rw [farewellCalls]
    split
    · exact ⟨[], rfl⟩
    · exact ⟨[.finish], rfl⟩

/-- **Giving a writer up is calling `finish`**, once or twice. -/
theorem inner_behind_farewell (writer : Writer β δ ς) (farewell : Farewell) :
    (writer.behind (writer.farewellCalls farewell)).destination.inner = writer.giveUp farewell := by
  cases farewell with
  | released => rfl
  | unwrapped =>
    rw [giveUp, intoInner, farewellCalls]
    rcases hfinish : writer.finish with ⟨_ | _, after⟩
    · dsimp only [behind, perform]
      rw [hfinish]
      rfl
    · dsimp only [behind, perform]
      rw [hfinish]

end Writer

end CpioArchive
