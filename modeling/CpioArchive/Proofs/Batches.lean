import CpioArchive.Proofs.Metering

/-!
# Reports in batches

A metered source adds up what its reads deliver and reports it in batches.  Whoever reads from it
notices nothing of that, and the reports neither lose a byte nor count one twice, whatever the reads
ask for and whichever of them fail.

* `readEach` — reads made one after the other;
* `Metered.Books` — what a single read does to the account;
* `Metered.IsBatched` — what holds of the account between two reads;
* `metered_reads` — all of that for every number of reads, and for the report at the end.
-/

namespace CpioArchive

/-! ## Reads one after the other -/

/-- A read: in an environment, and for at most so many bytes. -/
structure ReadCall (ε : Type) where
  environment : ε
  limit : Nat

section Reads

variable {ε ς : Type} [Source ε ς]

/-- Makes reads one after the other.  Returns what came of each of them, and the source behind the
last one. -/
def readEach (source : ς) : List (ReadCall ε) → List (Attempt Bytes) × ς
  | [] => ([], source)
  | call :: calls =>
    let (outcome, next) := Source.read call.environment source call.limit
    let (outcomes, last) := readEach next calls
    (outcome :: outcomes, last)

/-- The bytes that came of some reads, one behind the other. -/
def receivedOf (outcomes : List (Attempt Bytes)) : Bytes := outcomes.flatMap Attempt.received

theorem readEach_cons {source next : ς} {call : ReadCall ε} {outcome : Attempt Bytes}
    (h : Source.read call.environment source call.limit = (outcome, next))
    (calls : List (ReadCall ε)) :
    readEach source (call :: calls) =
      (outcome :: (readEach next calls).1, (readEach next calls).2) := by
  rw [readEach, h]

theorem readEach_concat (source : ς) (calls : List (ReadCall ε)) (call : ReadCall ε) :
    readEach source (calls ++ [call]) =
      ((readEach source calls).1 ++
          [(Source.read call.environment (readEach source calls).2 call.limit).1],
        (Source.read call.environment (readEach source calls).2 call.limit).2) := by
  induction calls generalizing source with
  | nil => rfl
  | cons first calls ih =>
    rcases hread : Source.read first.environment source first.limit with ⟨outcome, next⟩
    rw [List.cons_append, readEach_cons hread, readEach_cons hread, ih]
    rfl

/-- A view of a source answers reads as the source does. -/
theorem readEach_view {τ : Type} [Source ε τ] {look : ς → τ} (hlook : Source.IsView ε look)
    (source : ς) (calls : List (ReadCall ε)) :
    readEach (look source) calls = ((readEach source calls).1, look (readEach source calls).2) := by
  induction calls generalizing source with
  | nil => rfl
  | cons call calls ih =>
    rcases hread : Source.read call.environment source call.limit with ⟨outcome, next⟩
    rw [readEach_cons hread, readEach_cons (hlook hread), ih]

theorem readsTo_readEach (source : ς) (calls : List (ReadCall ε)) :
    ReadsTo ε source (receivedOf (readEach source calls).1) (readEach source calls).2 := by
  induction calls generalizing source with
  | nil => exact .refl source
  | cons call calls ih =>
    rcases hread : Source.read call.environment source call.limit with ⟨outcome, next⟩
    rw [readEach_cons hread]
    exact .read hread (ih next)

end Reads

/-! ## The account -/

namespace Metered

variable {ε ς : Type}

/-- What a read does to the account of a metered source: it gives `batch` to report, and together
with what is unreported afterwards that is what was unreported before and what the read delivered.
A read that is interrupted or fails leaves the account as it is. -/
structure Books (source : Metered ς) (outcome : Attempt Bytes) (batch : List Nat)
    (next : Metered ς) : Prop where
  threshold : next.threshold = source.threshold
  reports : next.reports.toList = source.reports.toList ++ batch
  single : batch.length ≤ 1
  total : totalOf batch + next.unreported = source.unreported + outcome.received.length
  unmoved : (∀ bytes, outcome ≠ .done bytes) → batch = [] ∧ next.unreported = source.unreported

/-- Less than a batch is unreported, and everything reported so far was a batch. -/
structure IsBatched (source : Metered ς) : Prop where
  unreported_lt : source.unreported < source.threshold
  threshold_le : ∀ count ∈ source.reports.toList, source.threshold ≤ count

theorem isBatched_start (inner : ς) (threshold : Nat) : (start inner threshold).IsBatched where
  unreported_lt := Nat.lt_of_lt_of_le Nat.one_pos (Nat.le_max_right threshold 1)
  threshold_le := nofun

/-- What a source still reports when it is closed. -/
theorem close_eq (source : Metered ς) :
    source.close = source.reports.toList ++
      if 0 < source.unreported then [source.unreported] else [] := by
  rw [close, settle]
  split
  · exact Array.toList_push
  · exact (List.append_nil _).symm

/-- What is left to report when a source is closed is less than a batch. -/
theorem IsBatched.close {source : Metered ς} (h : source.IsBatched) :
    ∃ last, source.close = source.reports.toList ++ last ∧ last.length ≤ 1 ∧
      ∀ count ∈ last, count < source.threshold := by
  refine ⟨_, source.close_eq, ?_⟩
  split
  · refine ⟨Nat.le_refl 1, fun count hcount => ?_⟩
    rw [List.mem_singleton.1 hcount]
    exact h.unreported_lt
  · exact ⟨Nat.zero_le 1, nofun⟩

/-- A count that reaches the threshold together with what is unreported makes a batch of both. -/
theorem record_of_le (source : Metered ς) {count : Nat}
    (h : source.threshold ≤ source.unreported + count) (hpos : 0 < source.threshold) :
    source.record count = ⟨source.inner, source.threshold, 0,
      source.reports.push (source.unreported + count)⟩ := by
  rw [record]
  dsimp only
  rw [if_pos h, settle, if_pos (Nat.lt_of_lt_of_le hpos h)]

theorem record_of_lt (source : Metered ς) {count : Nat}
    (h : source.unreported + count < source.threshold) :
    source.record count = { source with unreported := source.unreported + count } := by
  rw [record]
  dsimp only
  rw [if_neg (Nat.not_le.2 h)]

variable [Source ε ς]

/-- **One read** is booked, and leaves less than a batch unreported. -/
theorem IsBatched.read {source next : Metered ς} (h : source.IsBatched) {environment : ε}
    {limit : Nat} {outcome : Attempt Bytes}
    (hread : Source.read environment source limit = (outcome, next)) :
    next.IsBatched ∧ ∃ batch, source.Books outcome batch next := by
  obtain ⟨hlt, hle⟩ := h
  change Metered.read environment source limit = _ at hread
  rw [Metered.read] at hread
  rcases hinner : Source.read environment source.inner limit with ⟨bytes | cause | cause, after⟩ <;>
    rw [hinner] at hread <;> cases hread
  case done =>
    have hpos : 0 < source.threshold := Nat.lt_of_le_of_lt (Nat.zero_le _) hlt
    by_cases hfull : source.threshold ≤ source.unreported + bytes.length
    · rw [record_of_le { source with inner := after } hfull hpos]
      refine ⟨⟨hpos, ?_⟩, [source.unreported + bytes.length], rfl, Array.toList_push, Nat.le_refl 1,
        rfl, fun hnone => absurd rfl (hnone bytes)⟩
      dsimp only
      rw [Array.toList_push]
      intro count hcount
      rcases List.mem_append.1 hcount with hcount | hcount
      · exact hle count hcount
      · rwa [List.mem_singleton.1 hcount]
    · have hshort : source.unreported + bytes.length < source.threshold := Nat.not_le.1 hfull
      rw [record_of_lt { source with inner := after } hshort]
      exact ⟨⟨hshort, hle⟩, [], rfl, (List.append_nil _).symm, Nat.zero_le 1, Nat.zero_add _,
        fun hnone => absurd rfl (hnone bytes)⟩
  case interrupted =>
    exact ⟨⟨hlt, hle⟩, [], rfl, (List.append_nil _).symm, Nat.zero_le 1, Nat.zero_add _,
      fun _ => ⟨rfl, rfl⟩⟩
  case failed =>
    exact ⟨⟨hlt, hle⟩, [], rfl, (List.append_nil _).symm, Nat.zero_le 1, Nat.zero_add _,
      fun _ => ⟨rfl, rfl⟩⟩

/-- **All reads** leave less than a batch unreported. -/
theorem IsBatched.readEach {source : Metered ς} (h : source.IsBatched)
    (calls : List (ReadCall ε)) :
    (readEach source calls).2.IsBatched ∧
      (readEach source calls).2.threshold = source.threshold := by
  induction calls generalizing source with
  | nil => exact ⟨h, rfl⟩
  | cons call calls ih =>
    rcases hread : Source.read call.environment source call.limit with ⟨outcome, next⟩
    obtain ⟨hnext, batch, hbooks⟩ := h.read hread
    rw [readEach_cons hread, ← hbooks.threshold]
    exact ih hnext

/-- A read behind others is booked as well, and gives what the source within gives. -/
theorem IsBatched.readEach_concat {source : Metered ς} (h : source.IsBatched)
    (calls : List (ReadCall ε)) (call : ReadCall ε) :
    let before := CpioArchive.readEach source calls
    let after := CpioArchive.readEach source (calls ++ [call])
    let outcome := (Source.read call.environment before.2.inner call.limit).1
    after.1 = before.1 ++ [outcome] ∧ ∃ batch, before.2.Books outcome batch after.2 := by
  intro before after outcome
  rcases hread : Source.read call.environment before.2 call.limit with ⟨own, next⟩
  have hown : outcome = own := congrArg Prod.fst (Metered.isView_inner hread)
  have hafter : after = (before.1 ++ [own], next) := by
    dsimp only [after]
    rw [CpioArchive.readEach_concat]
    dsimp only [before] at hread
    rw [hread]
  rw [hafter, hown]
  exact ⟨rfl, ((h.readEach calls).1.read hread).2⟩

end Metered

/-- **What metering does to reads**, for every source, every threshold and all reads.

* Each read gives what the source within gives, and leaves the source within as it would be.
* The reports, the last one included, are positive and add up to the bytes that were delivered.
* Before the source is closed every report is of at least the threshold, and less than that is
  unreported; closing adds at most one report, of less than the threshold.
* A further read adds at most one report.  Nothing is lost or counted twice by it, and if it is
  interrupted or fails, it changes nothing. -/
theorem metered_reads {ε ς : Type} [Source ε ς] (inner : ς) (threshold : Nat)
    (calls : List (ReadCall ε)) :
    let bare := readEach inner calls
    let metered := readEach (Metered.start inner threshold) calls
    let source := metered.2
    metered.1 = bare.1 ∧ source.inner = bare.2 ∧
      (∀ count ∈ source.close, 0 < count) ∧
      totalOf source.close = (receivedOf bare.1).length ∧
      (∀ count ∈ source.reports.toList, max threshold 1 ≤ count) ∧
      source.unreported < max threshold 1 ∧
      (∃ last, source.close = source.reports.toList ++ last ∧ last.length ≤ 1 ∧
        ∀ count ∈ last, count < max threshold 1) ∧
      ∀ call : ReadCall ε,
        let outcome := (Source.read call.environment bare.2 call.limit).1
        let further := readEach (Metered.start inner threshold) (calls ++ [call])
        further.1 = metered.1 ++ [outcome] ∧ ∃ batch, source.Books outcome batch further.2 := by
  intro bare metered source
  have hview : bare = (metered.1, source.inner) :=
    readEach_view Metered.isView_inner (Metered.start inner threshold) calls
  have houtcomes : metered.1 = bare.1 := (congrArg Prod.fst hview).symm
  have hinner : source.inner = bare.2 := (congrArg Prod.snd hview).symm
  obtain ⟨hpositive, htotal⟩ :=
    (readsTo_readEach (Metered.start inner threshold) calls).close
  have hstart := Metered.isBatched_start inner threshold
  obtain ⟨hbatched, hthreshold⟩ := hstart.readEach calls
  have hleast : source.threshold = max threshold 1 := hthreshold
  refine ⟨houtcomes, hinner, hpositive (Metered.isTelling_start inner threshold), ?_,
    hleast ▸ hbatched.threshold_le, hleast ▸ hbatched.unreported_lt, hleast ▸ hbatched.close, ?_⟩
  · rw [Metered.close_start] at htotal
    rw [← houtcomes, htotal]
    exact Nat.zero_add _
  · intro call outcome further
    dsimp only [outcome]
    rw [← hinner]
    exact hstart.readEach_concat calls call

/-- Reads of three, three, three and one byte, in batches of four. -/
example :
    let script : Script := ⟨[.deliver [0, 1, 2, 3, 4, 5, 6, 7, 8, 9]]⟩
    (readEach (Metered.start script 4) (List.replicate 5 ⟨(), 3⟩)).2.close = [6, 4] := by
  decide

end CpioArchive
