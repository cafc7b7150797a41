import CpioArchive.Stream.Basic
/-!
# Metered sources

A source whose reads are added up and reported in batches: as soon as the bytes not yet reported
reach a threshold they are reported, and what is left is reported when the source is closed.
-/

namespace CpioArchive

/-- A source and the account of what it delivered. -/
structure Metered (ς : Type) where
  inner : ς
  /-- How many bytes make a report. -/
  threshold : Nat
  /-- Bytes delivered but not yet reported. -/
  unreported : Nat
  /-- The reports so far, in order. -/
  reports : Array Nat

namespace Metered

/-- The threshold that is used where none is asked for: 1 MiB. -/
def usualThreshold : Nat := 1024 * 1024

/-- A source with nothing delivered yet.  A threshold of zero acts as one. -/
def start {ς : Type} (inner : ς) (threshold : Nat) : Metered ς := ⟨inner, max threshold 1, 0, #[]⟩

/-- Reports what is not yet reported. -/
def settle {ς : Type} : Metered ς → Metered ς
  | ⟨inner, threshold, unreported, reports⟩ =>
    ⟨inner, threshold, 0, if 0 < unreported then reports.push unreported else reports⟩

/-- Adds up the bytes of a read. -/
def record {ς : Type} (source : Metered ς) (count : Nat) : Metered ς :=
  let source := { source with unreported := source.unreported + count }
  if source.threshold ≤ source.unreported then source.settle else source

/-- All reports of a source that is closed now. -/
def close {ς : Type} (source : Metered ς) : List Nat := source.settle.reports.toList

variable {ε ς : Type} [Source ε ς]

/-- Reads from the source within; only bytes that arrive are added up. -/
def read (environment : ε) (source : Metered ς) (limit : Nat) : Attempt Bytes × Metered ς :=
  match Source.read environment source.inner limit with
  | (.done bytes, next) => (.done bytes, { source with inner := next }.record bytes.length)
  | (.interrupted cause, next) => (.interrupted cause, { source with inner := next })
  | (.failed cause, next) => (.failed cause, { source with inner := next })

@[simp] theorem inner_settle {ς : Type} (source : Metered ς) : source.settle.inner = source.inner :=
  rfl

@[simp] theorem inner_record {ς : Type} (source : Metered ς) (count : Nat) :
    (source.record count).inner = source.inner := by
  simp only [record]
  split <;> rfl

end Metered

instance (ε ς : Type) [Source ε ς] : Source ε (Metered ς) where
  read := Metered.read
  remaining environment source := Source.remaining environment source.inner
  length_le_of_read h := by
    simp only [Metered.read] at h
    split at h <;> cases h
    exact Source.length_le_of_read ‹_›
  remaining_lt_of_done h hne := by
    simp only [Metered.read] at h
    split at h <;> cases h
    rw [Metered.inner_record]
    exact Source.remaining_lt_of_done ‹_› hne
  remaining_lt_of_interrupted h := by
    simp only [Metered.read] at h
    split at h <;> cases h
    exact Source.remaining_lt_of_interrupted ‹_›

end CpioArchive
