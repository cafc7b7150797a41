import CpioArchive.Stream.Basic
/-!
# Scripted sources

A source whose every answer is written down beforehand.  Any behaviour of a source can be put into
such a script: short reads, interruptions, errors at any point, an end that is no end.
-/

namespace CpioArchive

/-- What a scripted source does next. -/
inductive Step where
  /-- Delivers these bytes, over as many reads as that takes. -/
  | deliver (bytes : Bytes)
  /-- Refuses one read. -/
  | refuse (cause : IoError)
  /-- Answers one read as if the content had ended. -/
  | pretendEnd
  deriving DecidableEq

/-- A scripted source: its steps, in order.  Behind the last one the content ends. -/
structure Script where
  steps : List Step
  deriving DecidableEq

namespace Script

/-- How many calls a list of steps can answer with bytes or an interruption. -/
def weight : List Step → Nat
  | [] => 0
  | .deliver bytes :: rest => bytes.length + 1 + weight rest
  | _ :: rest => 1 + weight rest

/-- How many bytes a list of steps holds. -/
def held : List Step → Nat
  | [] => 0
  | .deliver bytes :: rest => bytes.length + held rest
  | _ :: rest => held rest

/-- One read.  Bytes of different steps are never joined, and a read of no bytes takes none. -/
def readSteps : List Step → Nat → Attempt Bytes × List Step
  | [], _ => (.done [], [])
  | .deliver [] :: rest, limit => readSteps rest limit
  | .deliver bytes :: rest, limit =>
    (.done (bytes.take limit), .deliver (bytes.drop limit) :: rest)
  | .refuse cause :: rest, _ => (.refused cause, rest)
  | .pretendEnd :: rest, _ => (.done [], rest)

theorem length_le_of_readSteps {steps next : List Step} {limit : Nat} {bytes : Bytes}
    (h : readSteps steps limit = (.done bytes, next)) : bytes.length ≤ limit := by
  fun_induction readSteps steps limit with
  | case1 => cases h; exact Nat.zero_le _
  | case2 rest limit ih => exact ih h
  | case3 => cases h; exact List.length_take_le _ _
  | case4 cause =>
    simp only [Attempt.refused] at h
    split at h <;> cases h
  | case5 => cases h; exact Nat.zero_le _

theorem weight_lt_of_done {steps next : List Step} {limit : Nat} {bytes : Bytes}
    (h : readSteps steps limit = (.done bytes, next)) (hne : bytes ≠ []) :
    weight next < weight steps := by
  fun_induction readSteps steps limit with
  | case1 => cases h; exact absurd rfl hne
  | case2 rest limit ih =>
    have := ih h
    simp only [weight]
    omega
  | case3 stepBytes rest limit =>
    cases h
    cases limit with
    | zero => exact absurd rfl hne
    | succ limit =>
      cases stepBytes with
      | nil => exact absurd rfl hne
      | cons b bs => simp only [weight, List.length_drop, List.length_cons]; omega
  | case4 cause =>
    simp only [Attempt.refused] at h
    split at h <;> cases h
  | case5 => cases h; exact absurd rfl hne

theorem weight_lt_of_interrupted {steps next : List Step} {limit : Nat} {cause : IoError}
    (h : readSteps steps limit = (.interrupted cause, next)) : weight next < weight steps := by
  fun_induction readSteps steps limit with
  | case1 => cases h
  | case2 rest limit ih =>
    have := ih h
    simp only [weight]
    omega
  | case3 => cases h
  | case4 =>
    simp only [Prod.mk.injEq] at h
    rw [← h.2]
    simp only [weight]
    omega
  | case5 => cases h

end Script

instance (ε : Type) : Source ε Script where
  read _ script limit :=
    let (outcome, steps) := Script.readSteps script.steps limit
    (outcome, ⟨steps⟩)
  remaining _ script := Script.weight script.steps
  length_le_of_read h := by
    simp only [Prod.mk.injEq] at h
    exact Script.length_le_of_readSteps (Prod.ext h.1 rfl)
  remaining_lt_of_done h hne := by
    simp only [Prod.mk.injEq] at h
    obtain ⟨h, rfl⟩ := h
    exact Script.weight_lt_of_done (Prod.ext h rfl) hne
  remaining_lt_of_interrupted h := by
    simp only [Prod.mk.injEq] at h
    obtain ⟨h, rfl⟩ := h
    exact Script.weight_lt_of_interrupted (Prod.ext h rfl)

/-- Either of two kinds of sources is a source. -/
instance (ε ς τ : Type) [Source ε ς] [Source ε τ] : Source ε (ς ⊕ τ) where
  read environment source limit :=
    match source with
    | .inl s =>
      let (outcome, next) := Source.read environment s limit
      (outcome, .inl next)
    | .inr t =>
      let (outcome, next) := Source.read environment t limit
      (outcome, .inr next)
  remaining environment source :=
    match source with
    | .inl s => Source.remaining environment s
    | .inr t => Source.remaining environment t
  length_le_of_read {environment source _ _ _} h := by
    cases source <;> simp only [Prod.mk.injEq] at h <;>
      exact @Source.length_le_of_read _ _ _ environment _ _ _ _ (Prod.ext h.1 rfl)
  remaining_lt_of_done {_ source _ _ _} h hne := by
    cases source <;> simp only [Prod.mk.injEq] at h <;> obtain ⟨h, rfl⟩ := h <;>
      exact Source.remaining_lt_of_done (Prod.ext h rfl) hne
  remaining_lt_of_interrupted {_ source _ _ _} h := by
    cases source <;> simp only [Prod.mk.injEq] at h <;> obtain ⟨h, rfl⟩ := h <;>
      exact Source.remaining_lt_of_interrupted (Prod.ext h rfl)

end CpioArchive
