import CpioArchive.Stream.Basic
/-!
# Sinks

A destination that keeps what it is given and whose failures are governed by a few numbers: an
offset at which it fails once, an offset at which it fails for good, the most it takes in one call,
and how often it is interrupted first.
-/

namespace CpioArchive

/-- A destination in memory. -/
structure Sink where
  /-- The bytes accepted so far. -/
  data : Array UInt8 := #[]
  /-- How often it was flushed. -/
  flushes : Nat := 0
  /-- How many bytes it takes before it fails for good. -/
  limit : Option Nat := none
  /-- How many bytes it takes before it fails once. -/
  failOnceAt : Option Nat := none
  /-- The most bytes it takes in one call. -/
  largestWrite : Option Nat := none
  /-- How many calls are interrupted before the first one gets through. -/
  interrupts : Nat := 0
  /-- The error it fails with. -/
  error : IoError := .described "disk full"
  /-- The error every flush fails with, if any. -/
  flushError : Option IoError := none

namespace Sink

/-- A sink that takes everything. -/
def empty : Sink := {}

/-- The part of some bytes that a bound leaves room for. -/
def withinBound (bound : Option Nat) (bytes : Bytes) : Bytes :=
  match bound with
  | some n => bytes.take n
  | none => bytes

theorem length_withinBound_le (bound : Option Nat) (bytes : Bytes) :
    (withinBound bound bytes).length ≤ bytes.length := by
  cases bound with
  | none => exact Nat.le_refl _
  | some n => exact List.length_take_le' _ _

/-- Takes what its numbers leave room for.  An interruption comes first, then the failure that
happens once, then the one that stays. -/
def write (sink : Sink) (bytes : Bytes) : Attempt Nat × Sink :=
  if 0 < sink.interrupts then
    (.interrupted .interrupted, { sink with interrupts := sink.interrupts - 1 })
  else
    let size := sink.data.size
    if sink.failOnceAt.any (· ≤ size) then
      (.refused sink.error, { sink with failOnceAt := none })
    else if sink.limit.any (· ≤ size) then (.failed sink.error, sink)
    else
      let accepted := withinBound (sink.failOnceAt.map (· - size)) bytes
      let accepted := withinBound (sink.limit.map (· - size)) accepted
      let accepted := withinBound sink.largestWrite accepted
      (.done accepted.length, { sink with data := sink.data.appendList accepted })

/-- Counts the call. -/
def flush (sink : Sink) : Except IoError Unit × Sink :=
  let sink := { sink with flushes := sink.flushes + 1 }
  match sink.flushError with
  | some cause => (.error cause, sink)
  | none => (.ok (), sink)

/-- How many interruptions are still to come. -/
def patience (sink : Sink) : Nat := sink.interrupts + if sink.failOnceAt.isSome then 1 else 0

theorem accepted_le_of_write {sink next : Sink} {bytes : Bytes} {accepted : Nat}
    (h : sink.write bytes = (.done accepted, next)) : accepted ≤ bytes.length := by
  simp only [write, Attempt.refused] at h
  repeat' split at h
  all_goals cases h
  exact Nat.le_trans (length_withinBound_le _ _)
    (Nat.le_trans (length_withinBound_le _ _) (length_withinBound_le _ _))

theorem patience_lt_of_interrupted {sink next : Sink} {bytes : Bytes} {cause : IoError}
    (h : sink.write bytes = (.interrupted cause, next)) : next.patience < sink.patience := by
  simp only [write] at h
  split at h
  · cases h
    simp only [patience]
    omega
  · split at h
    next honce =>
      simp only [Prod.mk.injEq] at h
      rw [← h.2]
      cases hfail : sink.failOnceAt with
      | none => simp [hfail] at honce
      | some n => simp [patience, hfail]
    · split at h <;> cases h

end Sink

instance : Destination Sink Unit where
  write := Sink.write
  flush := Sink.flush
  environment _ := ()
  patience := Sink.patience
  accepted_le_of_write := Sink.accepted_le_of_write
  patience_lt_of_interrupted := Sink.patience_lt_of_interrupted

/-- A destination with surroundings: sources see the surroundings, which writing leaves alone. -/
structure Surrounded (δ ε : Type) where
  destination : δ
  surroundings : ε

instance (δ ε φ : Type) [Destination δ φ] : Destination (Surrounded δ ε) ε where
  write
    | ⟨destination, surroundings⟩, bytes =>
      let (outcome, next) := Destination.write destination bytes
      (outcome, ⟨next, surroundings⟩)
  flush
    | ⟨destination, surroundings⟩ =>
      let (outcome, next) := Destination.flush destination
      (outcome, ⟨next, surroundings⟩)
  environment d := d.surroundings
  patience d := Destination.patience d.destination
  accepted_le_of_write h := by
    simp only [Prod.mk.injEq] at h
    exact Destination.accepted_le_of_write (Prod.ext h.1 rfl)
  patience_lt_of_interrupted h := by
    simp only [Prod.mk.injEq] at h
    obtain ⟨h, rfl⟩ := h
    exact Destination.patience_lt_of_interrupted (Prod.ext h rfl)

end CpioArchive
