import CpioArchive.Proofs.Calls

/-!
# The life of a writer

What a writer does in the course of its life, whatever its encoder writes and returns and however
its destination behaves.

* `Writer.perform_of_finished`, `Writer.perform_of_poisoned`, `Writer.perform_append`,
  `Writer.perform_finish` — everything that one call can do;
* `Writer.isOrderly_perform` — each call keeps to the phases;
* `Writer.behind_recorded` — noting what is asked of the encoder changes nothing, and what is asked
  are exactly the calls that were made while the writer was accepting;
* `Writer.phase_behind_iff`, `Writer.entries_behind`, `Writer.count_trailer_requests_le` — what that
  comes to over a sequence of calls;
* `writer_life` — all of it together, for a whole life.
-/

namespace CpioArchive

/-! ## What a turn is -/

/-- What a finished writer answers. -/
def Call.answerOfFinished {ς : Type} : Call ς → Answer
  | .append _ => .appended (.error .alreadyFinished)
  | .finish => .finished (.ok ())

/-- What a poisoned writer answers. -/
def Call.answerOfPoisoned {ς : Type} : Call ς → Answer
  | .append _ => .appended (.error .poisoned)
  | .finish => .finished (.error .poisoned)

/-- Something that a writer asks of its encoder. -/
inductive Request where
  | entry
  | trailer
  deriving DecidableEq

/-- What a call asks of the encoder of an accepting writer. -/
def Call.request {ς : Type} : Call ς → Request
  | .append _ => .entry
  | .finish => .trailer

namespace Turn

variable {β δ ε ς : Type} [Destination δ ε]

/-- What the call asked of the encoder. -/
def requests (turn : Turn β δ ς) : List Request :=
  if turn.before.phase = .accepting then [turn.call.request] else []

/-- Whether the call counts as an entry: it succeeded, or it failed in a way that the writer
survives and left bytes at the destination all the same. -/
def leavesEntry (turn : Turn β δ ς) : Bool :=
  match turn.answer with
  | .appended (.ok _) => true
  | .appended (.error e) =>
    !e.isFatal && turn.after.bytesWritten != turn.before.bytesWritten
  | .finished _ => false

/-- The call wrote the trailer, and the flush behind it succeeded. -/
def ClosesArchive (turn : Turn β δ ς) : Prop :=
  turn.call = .finish ∧ ∃ length state written,
    turn.before.encoder.encodeTrailer turn.before.state turn.before.destination =
        (.ok length, state, written) ∧
      (Destination.flush written).1 = .ok ()

/-- The call was an append that met a fatal error, or a finish that failed. -/
def Breaks (turn : Turn β δ ς) : Prop :=
  (∃ e, turn.answer = .appended (.error e) ∧ e.isFatal = true) ∨
    ∃ e, turn.answer = .finished (.error e)

/-- The call keeps to the phases of a writer. -/
structure IsOrderly (turn : Turn β δ ς) : Prop where
  /-- A writer only ever stops accepting. -/
  phase_eq : turn.before.phase ≠ .accepting → turn.after.phase = turn.before.phase
  /-- From then on its destination is flushed at most. -/
  destination_eq : turn.before.phase ≠ .accepting →
    turn.after.destination = turn.before.destination ∨
      turn.after.destination = (Destination.flush turn.before.destination).2
  /-- A finished writer has nothing left to do. -/
  of_finished : turn.before.phase = .finished →
    turn.answer = turn.call.answerOfFinished ∧ turn.after = turn.before
  /-- A poisoned writer refuses every call. -/
  of_poisoned : turn.before.phase = .poisoned → turn.answer = turn.call.answerOfPoisoned
  /-- What finishes a writer. -/
  finished_iff : turn.before.phase = .accepting →
    (turn.after.phase = .finished ↔ turn.ClosesArchive)
  /-- What poisons a writer. -/
  poisoned_iff : turn.before.phase = .accepting → (turn.after.phase = .poisoned ↔ turn.Breaks)

end Turn

namespace Writer

variable {β δ ε ς : Type} [Destination δ ε] {writer : Writer β δ ς}

/-! ## What one call can do -/

theorem perform_of_finished (hphase : writer.phase = .finished) (call : Call ς) :
    writer.perform call = ⟨writer, call, call.answerOfFinished, writer⟩ := by
  obtain ⟨encoder, state, destination, entries, phase⟩ := writer
  obtain rfl : phase = .finished := hphase
  cases call <;> rfl

theorem perform_of_poisoned (hphase : writer.phase = .poisoned) (call : Call ς) :
    writer.perform call =
      ⟨writer, call, call.answerOfPoisoned,
        match call with
        | .append _ => writer
        | .finish => { writer with destination := (Destination.flush writer.destination).2 }⟩ := by
  obtain ⟨encoder, state, destination, entries, phase⟩ := writer
  obtain rfl : phase = .poisoned := hphase
  cases call <;> rfl

/-- Appending to an accepting writer is up to its encoder. -/
theorem perform_append (hphase : writer.phase = .accepting) (submission : Submission ς) :
    ∃ result transfer,
      writer.encoder.encodeEntry writer.state writer.destination submission.name
          submission.metadata submission.source = (result, transfer) ∧
        writer.perform (.append submission) =
          ⟨writer, .append submission, .appended result,
            ⟨writer.encoder, transfer.state, transfer.destination,
              (account result (transfer.destination.position != writer.bytesWritten)
                writer.entries).1,
              (account result (transfer.destination.position != writer.bytesWritten)
                writer.entries).2⟩⟩ := by
  obtain ⟨encoder, state, destination, entries, phase⟩ := writer
  obtain rfl : phase = .accepting := hphase
  exact ⟨_, _, rfl, rfl⟩

/-- Finishing an accepting writer is up to its encoder, and then to its destination. -/
theorem perform_finish (hphase : writer.phase = .accepting) :
    ∃ trailer state written,
      writer.encoder.encodeTrailer writer.state writer.destination = (trailer, state, written) ∧
        writer.perform .finish =
          match trailer with
          | .error e =>
            ⟨writer, .finish, .finished (.error e),
              ⟨writer.encoder, state, written, writer.entries, .poisoned⟩⟩
          | .ok _ =>
            match Destination.flush written with
            | (.error cause, flushed) =>
              ⟨writer, .finish, .finished (.error (.io cause)),
                ⟨writer.encoder, state, flushed, writer.entries, .poisoned⟩⟩
            | (.ok _, flushed) =>
              ⟨writer, .finish, .finished (.ok ()),
                ⟨writer.encoder, state, flushed, writer.entries, .finished⟩⟩ := by
  obtain ⟨encoder, state, destination, entries, phase⟩ := writer
  obtain rfl : phase = .accepting := hphase
  rcases htrailer : encoder.encodeTrailer state destination with ⟨_ | length, after, written⟩
  · refine ⟨_, _, _, rfl, ?_⟩
    rw [perform, finish]
    dsimp only
    rw [htrailer]
  · refine ⟨_, _, _, rfl, ?_⟩
    rw [perform, finish]
    dsimp only
    rw [htrailer]
    dsimp only
    rw [show written.flush = Destination.flush written from rfl]
    rcases Destination.flush written with ⟨_ | _, flushed⟩ <;> rfl

/-! ## Each call keeps to the phases -/

/-- The phase of an accepting writer behind an entry. -/
theorem account_phase (result : Except ArchiveError RecordSize) (advanced : Bool) (entries : Nat) :
    (account result advanced entries).2 ≠ .finished ∧
      ((account result advanced entries).2 = .poisoned ↔
        ∃ e, result = .error e ∧ e.isFatal = true) := by
  cases result with
  | ok size => simp [account]
  | error e =>
    by_cases hfatal : e.isFatal = true
    · simp [account, hfatal]
    · simp [account, hfatal]

/-- A writer survives an append that is not answered with a fatal error. -/
theorem accepting_of_survived {submission : Submission ς}
    (h : ∀ e, (writer.perform (.append submission)).answer = .appended (.error e) →
      e.isFatal = false) :
    (writer.perform (.append submission)).after.phase = .accepting := by
  cases hphase : writer.phase with
  | accepting =>
    obtain ⟨result, transfer, -, hperform⟩ := perform_append hphase submission
    rw [hperform] at h ⊢
    obtain ⟨hfinished, hpoisoned⟩ := account_phase result
      (transfer.destination.position != writer.bytesWritten) writer.entries
    cases hafter : (account result (transfer.destination.position != writer.bytesWritten)
      writer.entries).2 with
    | accepting => rfl
    | finished => exact absurd hafter hfinished
    | poisoned =>
      obtain ⟨e, rfl, hfatal⟩ := hpoisoned.1 hafter
      rw [h e rfl] at hfatal
      cases hfatal
  | finished =>
    rw [perform_of_finished hphase] at h
    exact absurd (h .alreadyFinished rfl) (by decide)
  | poisoned =>
    rw [perform_of_poisoned hphase] at h
    exact absurd (h .poisoned rfl) (by decide)

/-- An accepting writer does not accept any more behind a call on `finish`. -/
theorem phase_perform_finish (hphase : writer.phase = .accepting) :
    (writer.perform .finish).after.phase ≠ .accepting := by
  obtain ⟨trailer, state, written, -, hperform⟩ := perform_finish hphase
  rw [hperform]
  cases trailer with
  | error e => nofun
  | ok length =>
    dsimp only
    rcases Destination.flush written with ⟨_ | _, flushed⟩ <;> nofun

/-- A turn of an accepting writer only has to end in the right phase. -/
theorem isOrderly_of_accepting {turn : Turn β δ ς} (hphase : turn.before.phase = .accepting)
    (hfinished : turn.after.phase = .finished ↔ turn.ClosesArchive)
    (hpoisoned : turn.after.phase = .poisoned ↔ turn.Breaks) : turn.IsOrderly where
  phase_eq hne := absurd hphase hne
  destination_eq hne := absurd hphase hne
  of_finished h := by
    rw [hphase] at h
    cases h
  of_poisoned h := by
    rw [hphase] at h
    cases h
  finished_iff _ := hfinished
  poisoned_iff _ := hpoisoned

theorem isOrderly_perform_append (hphase : writer.phase = .accepting)
    (submission : Submission ς) : (writer.perform (.append submission)).IsOrderly := by
  obtain ⟨result, transfer, -, hperform⟩ := perform_append hphase submission
  rw [hperform]
  obtain ⟨hne, hpoisoned⟩ := account_phase result
    (transfer.destination.position != writer.bytesWritten) writer.entries
  refine isOrderly_of_accepting hphase ⟨fun h => absurd h hne, ?_⟩ (hpoisoned.trans ⟨?_, ?_⟩)
  · rintro ⟨hcall, -⟩
    cases hcall
  · rintro ⟨e, rfl, hfatal⟩
    exact .inl ⟨e, rfl, hfatal⟩
  · rintro (⟨e, hanswer, hfatal⟩ | ⟨e, hanswer⟩)
    · exact ⟨e, Answer.appended.inj hanswer, hfatal⟩
    · cases hanswer

theorem isOrderly_perform_finish (hphase : writer.phase = .accepting) :
    (writer.perform .finish).IsOrderly := by
  obtain ⟨trailer, state, written, htrailer, hperform⟩ := perform_finish hphase
  rw [hperform]
  -- A call that failed leaves the writer poisoned, and the trailer or its flush is what failed.
  have hfailed : ∀ {e : ArchiveError} {after : Writer β δ ς}, after.phase = .poisoned →
      (∀ length, trailer = .ok length → (Destination.flush written).1 ≠ .ok ()) →
      (Turn.mk writer .finish (.finished (.error e)) after).IsOrderly := by
    intro e after hafter hnot
    refine isOrderly_of_accepting hphase ⟨fun h => ?_, ?_⟩ ⟨fun _ => .inr ⟨e, rfl⟩, fun _ => hafter⟩
    · rw [show after.phase = .finished from h] at hafter
      cases hafter
    · rintro ⟨-, length, state', written', htrailer', hflush⟩
      rw [htrailer, Prod.mk.injEq, Prod.mk.injEq] at htrailer'
      obtain ⟨hok, -, rfl⟩ := htrailer'
      exact absurd hflush (hnot length hok)
  cases trailer with
  | error e => exact hfailed rfl nofun
  | ok length =>
    dsimp only
    rcases hflush : Destination.flush written with ⟨cause | _, flushed⟩
    · refine hfailed rfl fun _ _ => ?_
      rw [hflush]
      nofun
    · refine isOrderly_of_accepting hphase ⟨fun _ => ⟨rfl, length, state, written, htrailer, ?_⟩,
        fun _ => rfl⟩ ⟨nofun, ?_⟩
      · rw [hflush]
      · rintro (⟨e, hanswer, -⟩ | ⟨e, hanswer⟩) <;> cases hanswer

/-- **Each call keeps to the phases.** -/
theorem isOrderly_perform (writer : Writer β δ ς) (call : Call ς) :
    (writer.perform call).IsOrderly := by
  cases hphase : writer.phase with
  | accepting =>
    cases call with
    | append submission => exact isOrderly_perform_append hphase submission
    | finish => exact isOrderly_perform_finish hphase
  | finished =>
    rw [perform_of_finished hphase]
    refine ⟨fun _ => rfl, fun _ => .inl rfl, fun _ => ⟨rfl, rfl⟩, ?_, ?_, ?_⟩ <;>
      intro h <;> rw [hphase] at h <;> cases h
  | poisoned =>
    rw [perform_of_poisoned hphase]
    refine ⟨fun _ => ?_, fun _ => ?_, ?_, fun _ => rfl, ?_, ?_⟩
    · cases call <;> rfl
    · cases call with
      | append submission => exact .inl rfl
      | finish => exact .inr rfl
    all_goals
      intro h
      rw [hphase] at h
      cases h

/-! ## Noting what is asked of the encoder -/

end Writer

/-- The encoder, with a note of everything that is asked of it. -/
def Encoder.recorded {β δ ς : Type} (encoder : Encoder β δ ς) :
    Encoder (β × List Request) δ ς where
  format := encoder.format
  encodeEntry := fun (state, asked) destination name metadata source =>
    let (result, transfer) := encoder.encodeEntry state destination name metadata source
    (result, ⟨(transfer.state, asked ++ [.entry]), transfer.destination, transfer.source⟩)
  encodeTrailer := fun (state, asked) destination =>
    let (result, state, destination) := encoder.encodeTrailer state destination
    (result, (state, asked ++ [.trailer]), destination)

namespace Writer

variable {β δ ε ς : Type} [Destination δ ε] {writer : Writer β δ ς}

/-- The writer with an encoder that notes what is asked of it, and with the notes so far. -/
def recorded (writer : Writer β δ ς) (asked : List Request) : Writer (β × List Request) δ ς :=
  ⟨writer.encoder.recorded, (writer.state, asked), writer.destination, writer.entries, writer.phase⟩

/-- Everything that a sequence of calls asks of the encoder. -/
def requests (writer : Writer β δ ς) (calls : List (Call ς)) : List Request :=
  (writer.turns calls).flatMap Turn.requests

theorem requests_cons (writer : Writer β δ ς) (call : Call ς) (rest : List (Call ς)) :
    writer.requests (call :: rest) =
      (writer.perform call).requests ++ (writer.perform call).after.requests rest := by
  rw [requests, turns, List.flatMap_cons]
  rfl

theorem requests_append (writer : Writer β δ ς) (first rest : List (Call ς)) :
    writer.requests (first ++ rest) =
      writer.requests first ++ (writer.behind first).requests rest := by
  rw [requests, turns_append, List.flatMap_append]
  rfl

theorem requests_perform_of_ne (hphase : writer.phase ≠ .accepting) (call : Call ς) :
    (writer.perform call).requests = [] := by
  rw [Turn.requests, before_perform, if_neg hphase]

theorem requests_perform (hphase : writer.phase = .accepting) (call : Call ς) :
    (writer.perform call).requests = [call.request] := by
  rw [Turn.requests, before_perform, if_pos hphase, call_perform]

theorem encodeTrailer_recorded {asked : List Request} {state : β}
    {trailer : Except ArchiveError Nat} {written : Counted δ}
    (h : writer.encoder.encodeTrailer writer.state writer.destination =
      (trailer, state, written)) :
    (writer.recorded asked).encoder.encodeTrailer (writer.recorded asked).state
        (writer.recorded asked).destination =
      (trailer, (state, asked ++ [.trailer]), written) := by
  change (let (result, state, destination) :=
    writer.encoder.encodeTrailer writer.state writer.destination
    (result, (state, asked ++ [Request.trailer]), destination)) = _
  rw [h]

/-- A call behaves the same whether notes are taken or not. -/
theorem perform_recorded (writer : Writer β δ ς) (asked : List Request) (call : Call ς) :
    (writer.recorded asked).perform call =
      ⟨writer.recorded asked, call, (writer.perform call).answer,
        (writer.perform call).after.recorded (asked ++ (writer.perform call).requests)⟩ := by
  cases hphase : writer.phase with
  | accepting =>
    rw [requests_perform hphase]
    cases call with
    | append submission =>
      obtain ⟨encoder, state, destination, entries, phase⟩ := writer
      obtain rfl : phase = .accepting := hphase
      rfl
    | finish =>
      obtain ⟨trailer, state, written, htrailer, hperform⟩ := perform_finish hphase
      have hphase' : (writer.recorded asked).phase = .accepting := hphase
      obtain ⟨trailer', state', written', htrailer', hperform'⟩ := perform_finish hphase'
      rw [encodeTrailer_recorded htrailer, Prod.mk.injEq, Prod.mk.injEq] at htrailer'
      obtain ⟨rfl, rfl, rfl⟩ := htrailer'
      rw [hperform, hperform']
      cases trailer with
      | error e => rfl
      | ok length =>
        dsimp only
        rcases Destination.flush written with ⟨_ | _, flushed⟩ <;> rfl
  | finished =>
    have hphase' : (writer.recorded asked).phase = .finished := hphase
    rw [perform_of_finished hphase', requests_perform_of_ne (by rw [hphase]; nofun),
      perform_of_finished hphase, List.append_nil]
  | poisoned =>
    have hphase' : (writer.recorded asked).phase = .poisoned := hphase
    rw [perform_of_poisoned hphase', requests_perform_of_ne (by rw [hphase]; nofun),
      perform_of_poisoned hphase, List.append_nil]
    cases call <;> rfl

/-- **Notes change nothing**, and what they hold in the end is what the calls asked while the writer
was accepting. -/
theorem behind_recorded (writer : Writer β δ ς) (asked : List Request) (calls : List (Call ς)) :
    (writer.recorded asked).behind calls =
      (writer.behind calls).recorded (asked ++ writer.requests calls) := by
  induction calls generalizing writer asked with
  | nil =>
    rw [show writer.requests [] = [] from rfl, List.append_nil]
    rfl
  | cons call rest ih =>
    rw [requests_cons, ← List.append_assoc]
    change ((writer.recorded asked).perform call).after.behind rest = _
    rw [perform_recorded]
    exact ih _ _

/-! ## A sequence of calls -/

/-- A writer that is not accepting stays so, and asks nothing more of its encoder. -/
theorem behind_of_ne (hphase : writer.phase ≠ .accepting) (calls : List (Call ς)) :
    (writer.behind calls).phase = writer.phase ∧ writer.requests calls = [] ∧
      ∀ turn ∈ writer.turns calls, turn.before.phase = writer.phase := by
  induction calls generalizing writer with
  | nil => simp [behind, requests, turns]
  | cons call rest ih =>
    have hafter : (writer.perform call).after.phase = writer.phase := by
      have hstays := (isOrderly_perform writer call).phase_eq
      rw [before_perform] at hstays
      exact hstays hphase
    have hne : (writer.perform call).after.phase ≠ .accepting := by
      rw [hafter]
      exact hphase
    obtain ⟨hbehind, hrequests, hturns⟩ := ih hne
    refine ⟨hbehind.trans hafter, ?_, List.forall_mem_cons.2 ⟨?_, ?_⟩⟩
    · rw [requests_cons, requests_perform_of_ne hphase, hrequests, List.append_nil]
    · rw [before_perform]
    · intro turn hturn
      exact (hturns turn hturn).trans hafter

/-- **A phase is reached in one turn.**  An accepting writer ends up finished, or poisoned, if and
only if one of the calls that were made while it was accepting made it so. -/
theorem phase_behind_iff {phase : Phase} (hne : phase ≠ .accepting)
    (hphase : writer.phase = .accepting) (calls : List (Call ς)) :
    (writer.behind calls).phase = phase ↔
      ∃ turn ∈ writer.turns calls,
        turn.before.phase = .accepting ∧ turn.after.phase = phase := by
  induction calls generalizing writer with
  | nil => simp [behind, turns, hphase, hne.symm]
  | cons call rest ih =>
    simp only [turns, List.mem_cons, exists_eq_or_imp, before_perform]
    change ((writer.perform call).after.behind rest).phase = phase ↔ _
    by_cases hafter : (writer.perform call).after.phase = .accepting
    · rw [ih hafter]
      constructor
      · intro hrest
        exact .inr hrest
      · rintro (⟨-, hreached⟩ | hrest)
        · exact absurd (hreached.symm.trans hafter) hne
        · exact hrest
    · obtain ⟨hbehind, -, hturns⟩ := behind_of_ne hafter rest
      rw [hbehind]
      constructor
      · intro hreached
        exact .inl ⟨hphase, hreached⟩
      · rintro (⟨-, hreached⟩ | ⟨turn, hturn, hbefore, -⟩)
        · exact hreached
        · exact absurd ((hturns turn hturn).symm.trans hbefore) hafter

/-- An accepting writer was asked for no trailer before, and every other one for one at most. -/
theorem count_trailer_requests_le (writer : Writer β δ ς) (calls : List (Call ς)) :
    (writer.requests calls).count .trailer ≤ 1 ∧
      ((writer.behind calls).phase = .accepting → (writer.requests calls).count .trailer = 0) := by
  induction calls generalizing writer with
  | nil => exact ⟨Nat.zero_le _, fun _ => rfl⟩
  | cons call rest ih =>
    by_cases hphase : writer.phase = .accepting
    · rw [requests_cons, requests_perform hphase, List.singleton_append]
      change _ ∧ (((writer.perform call).after.behind rest).phase = .accepting → _)
      cases call with
      | append submission =>
        rw [List.count_cons_of_ne (by nofun)]
        exact ih _
      | finish =>
        obtain ⟨hbehind, hrequests, -⟩ := behind_of_ne (phase_perform_finish hphase) rest
        rw [hrequests, hbehind]
        exact ⟨Nat.le_refl 1, fun haccepting => absurd haccepting (phase_perform_finish hphase)⟩
    · obtain ⟨-, hrequests, -⟩ := behind_of_ne hphase (call :: rest)
      rw [hrequests]
      exact ⟨Nat.zero_le _, fun _ => rfl⟩

/-- One call and the number of entries. -/
theorem entries_perform (writer : Writer β δ ς) (call : Call ς) :
    (writer.perform call).after.entries =
      writer.entries + if (writer.perform call).leavesEntry then 1 else 0 := by
  cases hphase : writer.phase with
  | accepting =>
    cases call with
    | append submission =>
      obtain ⟨result, transfer, -, hperform⟩ := perform_append hphase submission
      rw [hperform]
      cases result with
      | ok size => rfl
      | error e =>
        by_cases hfatal : e.isFatal = true
        · simp [Turn.leavesEntry, account, hfatal]
        · by_cases hadvanced : transfer.destination.position = writer.destination.position
          · simp [Turn.leavesEntry, account, hfatal, hadvanced, bytesWritten]
          · simp [Turn.leavesEntry, account, hfatal, hadvanced, bytesWritten]
    | finish =>
      obtain ⟨trailer, state, written, -, hperform⟩ := perform_finish hphase
      rw [hperform]
      cases trailer with
      | error e => rfl
      | ok length =>
        dsimp only
        rcases Destination.flush written with ⟨_ | _, flushed⟩ <;> rfl
  | finished =>
    rw [perform_of_finished hphase]
    cases call <;> rfl
  | poisoned =>
    rw [perform_of_poisoned hphase]
    cases call <;> rfl

/-- **How many entries a writer counts.** -/
theorem entries_behind (writer : Writer β δ ς) (calls : List (Call ς)) :
    (writer.behind calls).entries =
      writer.entries + (writer.turns calls).countP Turn.leavesEntry := by
  induction calls generalizing writer with
  | nil => rfl
  | cons call rest ih =>
    change ((writer.perform call).after.behind rest).entries = _
    rw [ih, entries_perform, turns, List.countP_cons]
    omega

end Writer

/-! ## A whole life -/

section Life

variable {β δ ε ς : Type} [Destination δ ε]

/-- **The life of a writer**, from its creation to the moment it is given up, with any calls in
between, in any order, whatever its encoder does and however its destination behaves:

* each call keeps to the phases, and the destination that is left is the one behind the last;
* the encoder is asked for an entry by each append and for the trailer by each finish that is made
  while the writer is accepting, and for nothing else; for the trailer at most once, and exactly
  once if the writer is still accepting when it is given up;
* in the end the writer is finished if a finish wrote and flushed the trailer, and poisoned if an
  append met a fatal error or a finish failed, each while the writer was accepting;
* the writer counts the appends that succeeded, and those that failed without being fatal but moved
  the destination. -/
theorem writer_life (encoder : Encoder β (Counted δ) ς) (state : β) (d : δ)
    (calls : List (Call ς)) (farewell : Farewell) :
    let writer := Writer.fresh encoder state d
    let closing := writer.behind calls
    let life := calls ++ closing.farewellCalls farewell
    let last := writer.behind life
    (∀ turn ∈ writer.turns life, turn.IsOrderly) ∧
      closing.giveUp farewell = last.destination.inner ∧
      (writer.recorded []).behind life = last.recorded (writer.requests life) ∧
      (writer.requests life).count .trailer ≤ 1 ∧
      (closing.phase = .accepting → (writer.requests life).count .trailer = 1) ∧
      last.phase ≠ .accepting ∧
      (last.phase = .finished ↔
        ∃ turn ∈ writer.turns life, turn.before.phase = .accepting ∧ turn.ClosesArchive) ∧
      (last.phase = .poisoned ↔
        ∃ turn ∈ writer.turns life, turn.before.phase = .accepting ∧ turn.Breaks) ∧
      last.entries = (writer.turns life).countP Turn.leavesEntry := by
  intro writer closing life last
  have horderly : ∀ turn ∈ writer.turns life, turn.IsOrderly :=
    Writer.forall_mem_turns Writer.isOrderly_perform writer life
  have hlast : last = closing.behind (closing.farewellCalls farewell) :=
    Writer.behind_append writer calls _
  obtain ⟨more, hfarewell⟩ := closing.exists_farewellCalls_eq farewell
  have hcount := Writer.count_trailer_requests_le writer calls
  refine ⟨horderly, ?_, Writer.behind_recorded writer [] life, ?_, ?_, ?_, ?_, ?_, ?_⟩
  · rw [hlast]
    exact (closing.inner_behind_farewell farewell).symm
  · exact (Writer.count_trailer_requests_le writer life).1
  · intro hclosing
    obtain ⟨-, hrequests, -⟩ := Writer.behind_of_ne (Writer.phase_perform_finish hclosing) more
    have hlife : writer.requests life = writer.requests calls ++
        closing.requests (closing.farewellCalls farewell) :=
      Writer.requests_append writer calls _
    rw [hlife, hfarewell, Writer.requests_cons, Writer.requests_perform hclosing, hrequests,
      List.count_append, hcount.2 hclosing]
    rfl
  · rw [hlast]
    by_cases hclosing : closing.phase = .accepting
    · have hfinish := Writer.phase_perform_finish hclosing
      rw [hfarewell]
      change ((closing.perform .finish).after.behind more).phase ≠ .accepting
      rw [(Writer.behind_of_ne hfinish more).1]
      exact hfinish
    · rw [(Writer.behind_of_ne hclosing _).1]
      exact hclosing
  · refine (Writer.phase_behind_iff (by decide) rfl life).trans (exists_congr fun turn => ?_)
    exact and_congr_right fun hturn =>
      and_congr_right fun hbefore => (horderly turn hturn).finished_iff hbefore
  · refine (Writer.phase_behind_iff (by decide) rfl life).trans (exists_congr fun turn => ?_)
    exact and_congr_right fun hturn =>
      and_congr_right fun hbefore => (horderly turn hturn).poisoned_iff hbefore
  · exact (Writer.entries_behind writer life).trans (Nat.zero_add _)

end Life

end CpioArchive
