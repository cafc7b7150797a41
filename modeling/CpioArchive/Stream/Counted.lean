import CpioArchive.Stream.Basic
/-!
# Counted destinations

A destination together with the number of bytes it accepted through the count.  A call that fails
or is interrupted accepts nothing and counts nothing, so the count is right after every call.
-/

namespace CpioArchive

/-- A destination and the number of bytes written to it so far. -/
structure Counted (δ : Type) where
  inner : δ
  position : Nat

namespace Counted

/-- A destination with nothing counted yet. -/
def fresh {δ : Type} (inner : δ) : Counted δ := ⟨inner, 0⟩

/-- Whether the count is a multiple of four, where a record may start. -/
def isAligned {δ : Type} (d : Counted δ) : Bool := d.position % 4 == 0

variable {δ ε : Type} [Destination δ ε]

/-- Writes and counts what was accepted. -/
def write : Counted δ → Bytes → Attempt Nat × Counted δ
  | ⟨inner, position⟩, bytes =>
    match Destination.write inner bytes with
    | (.done accepted, next) => (.done accepted, ⟨next, position + accepted⟩)
    | (.interrupted cause, next) => (.interrupted cause, ⟨next, position⟩)
    | (.failed cause, next) => (.failed cause, ⟨next, position⟩)

/-- Flushes, which counts nothing. -/
def flush : Counted δ → Except IoError Unit × Counted δ
  | ⟨inner, position⟩ =>
    let (outcome, next) := Destination.flush inner
    (outcome, ⟨next, position⟩)

end Counted

instance (δ ε : Type) [Destination δ ε] : Destination (Counted δ) ε where
  write := Counted.write
  flush := Counted.flush
  environment d := Destination.environment d.inner
  patience d := Destination.patience d.inner
  accepted_le_of_write h := by
    simp only [Counted.write] at h
    split at h <;> cases h
    exact Destination.accepted_le_of_write ‹_›
  patience_lt_of_interrupted h := by
    simp only [Counted.write] at h
    split at h <;> cases h
    exact Destination.patience_lt_of_interrupted ‹_›

end CpioArchive
