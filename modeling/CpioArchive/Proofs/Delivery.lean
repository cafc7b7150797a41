import CpioArchive.Stream.Metered
import CpioArchive.Stream.Script

/-!
# What sources deliver

A source is read in steps whose number and size depend on the reader.  `Delivers` says what
comes of all of them together: the bytes up to the first end or failure, and which of the
two it was.  Interruptions leave no trace in it.

* `exists_delivers` — every source comes to an end or a failure;
* `Source.IsView`, `Delivers.view` — what is seen of a source may take its place;
* `Delivers.inner` — metering a source changes nothing of what it delivers;
* `Script.delivered` — what a script delivers, read off its steps, and `Delivers.script` —
  that it delivers this and nothing else, however it is read.
-/

namespace CpioArchive

/-- How a source stops delivering. -/
inductive Ending where
  /-- The content ends. -/
  | ended
  /-- A read fails. -/
  | failed (cause : IoError)
  deriving DecidableEq

/-- `Delivers seen source bytes ending` says that `source` may deliver exactly `bytes` before it
stops as `ending` says, when every read asks for something and happens in an environment that
satisfies `seen`. -/
inductive Delivers {ε ς : Type} [Source ε ς] (seen : ε → Prop) : ς → Bytes → Ending → Prop
  | ended {environment : ε} {source next : ς} {limit : Nat} (hseen : seen environment)
      (hlimit : 0 < limit) (hread : Source.read environment source limit = (.done [], next)) :
      Delivers seen source [] .ended
  | failed {environment : ε} {source next : ς} {limit : Nat} {cause : IoError}
      (hseen : seen environment) (hlimit : 0 < limit)
      (hread : Source.read environment source limit = (.failed cause, next)) :
      Delivers seen source [] (.failed cause)
  | again {environment : ε} {source next : ς} {limit : Nat} {cause : IoError} {bytes : Bytes}
      {ending : Ending} (hseen : seen environment) (hlimit : 0 < limit)
      (hread : Source.read environment source limit = (.interrupted cause, next))
      (hrest : Delivers seen next bytes ending) : Delivers seen source bytes ending
  | more {environment : ε} {source next : ς} {limit : Nat} {chunk bytes : Bytes}
      {ending : Ending} (hseen : seen environment) (hlimit : 0 < limit) (hne : chunk ≠ [])
      (hread : Source.read environment source limit = (.done chunk, next))
      (hrest : Delivers seen next bytes ending) : Delivers seen source (chunk ++ bytes) ending

/-- Holds in every environment. -/
def Always {ε : Type} (_ : ε) : Prop := True

theorem always_environment {δ ε : Type} [Destination δ ε] {good : δ → Prop} {d : δ} (_ : good d) :
    Always (Destination.environment d) := trivial

section Sources

variable {ε ς : Type} [Source ε ς] {seen : ε → Prop}

/-- Every source comes to an end or a failure. -/
theorem exists_delivers {environment : ε} (hseen : seen environment) (source : ς) :
    ∃ bytes ending, Delivers seen source bytes ending := by
  induction hremaining : Source.remaining environment source using Nat.strongRecOn
    generalizing source with
  | ind remaining ih =>
    subst hremaining
    rcases hread : Source.read environment source 1 with ⟨chunk | cause | cause, next⟩
    · cases chunk with
      | nil => exact ⟨[], .ended, .ended hseen Nat.one_pos hread⟩
      | cons b chunk =>
        have hne := List.cons_ne_nil b chunk
        obtain ⟨bytes, ending, hrest⟩ :=
          ih _ (Source.remaining_lt_of_done hread hne) next rfl
        exact ⟨_, ending, .more hseen Nat.one_pos hne hread hrest⟩
    · obtain ⟨bytes, ending, hrest⟩ :=
        ih _ (Source.remaining_lt_of_interrupted hread) next rfl
      exact ⟨bytes, ending, .again hseen Nat.one_pos hread hrest⟩
    · exact ⟨[], .failed cause, .failed hseen Nat.one_pos hread⟩

/-! ## Views -/

/-- What is seen of a source answers every read as the source does. -/
def Source.IsView (ε : Type) {ς τ : Type} [Source ε ς] [Source ε τ] (view : ς → τ) : Prop :=
  ∀ {environment : ε} {source next : ς} {limit : Nat} {outcome : Attempt Bytes},
    Source.read environment source limit = (outcome, next) →
      Source.read environment (view source) limit = (outcome, view next)

/-- A view delivers what the source delivers. -/
theorem Delivers.view {τ : Type} [Source ε τ] {look : ς → τ} (hlook : Source.IsView ε look)
    {source : ς} {bytes : Bytes} {ending : Ending} (h : Delivers seen source bytes ending) :
    Delivers seen (look source) bytes ending := by
  induction h with
  | ended hseen hlimit hread => exact .ended hseen hlimit (hlook hread)
  | failed hseen hlimit hread => exact .failed hseen hlimit (hlook hread)
  | again hseen hlimit hread _ ih => exact .again hseen hlimit (hlook hread) ih
  | more hseen hlimit hne hread _ ih => exact .more hseen hlimit hne (hlook hread) ih

/-- The source within answers every read as the metered source does. -/
theorem Metered.isView_inner : Source.IsView ε (Metered.inner : Metered ς → ς) := by
  intro environment source next limit outcome h
  change Metered.read environment source limit = _ at h
  rw [Metered.read] at h
  rcases hread : Source.read environment source.inner limit with ⟨_ | _ | _, after⟩ <;>
    rw [hread] at h <;> cases h
  · rw [Metered.inner_record]
  · rfl
  · rfl

/-- Metering changes nothing of what a source delivers. -/
theorem Delivers.inner {source : Metered ς} {bytes : Bytes} {ending : Ending}
    (h : Delivers seen source bytes ending) : Delivers seen source.inner bytes ending :=
  h.view Metered.isView_inner

end Sources

/-! ## Scripts -/

namespace Script

/-- The bytes of some steps before the first end or failure, and which of the two it is. -/
def deliveredBy : List Step → Bytes × Ending
  | [] => ([], .ended)
  | .deliver bytes :: rest => (bytes ++ (deliveredBy rest).1, (deliveredBy rest).2)
  | .refuse cause :: rest =>
    if cause.isInterruption then deliveredBy rest else ([], .failed cause)
  | .pretendEnd :: _ => ([], .ended)

/-- What a script delivers, and how it stops. -/
def delivered (script : Script) : Bytes × Ending := deliveredBy script.steps

/-- What one read leaves of what some steps deliver. -/
theorem deliveredBy_readSteps (steps : List Step) {limit : Nat} (hlimit : 0 < limit) :
    deliveredBy steps =
      match readSteps steps limit with
      | (.done [], _) => ([], .ended)
      | (.done (b :: bytes), rest) =>
        (b :: bytes ++ (deliveredBy rest).1, (deliveredBy rest).2)
      | (.interrupted _, rest) => deliveredBy rest
      | (.failed cause, _) => ([], .failed cause) := by
  fun_induction readSteps steps limit with
  | case1 => rfl
  | case2 rest limit ih =>
    rw [deliveredBy, List.nil_append]
    exact ih hlimit
  | case3 bytes rest limit hne =>
    obtain ⟨b, bytes, rfl⟩ := List.exists_cons_of_ne_nil (l := bytes) (by rintro rfl; exact hne rfl)
    obtain ⟨limit, rfl⟩ : ∃ n, limit = n + 1 := ⟨limit - 1, by omega⟩
    simp only [deliveredBy, List.take_succ_cons, List.drop_succ_cons, List.cons_append,
      ← List.append_assoc (bytes.take limit), List.take_append_drop]
  | case4 cause rest limit =>
    rw [deliveredBy, Attempt.refused]
    split <;> rfl
  | case5 => rfl

theorem readSteps_of_read {ε : Type} {environment : ε} {script next : Script} {limit : Nat}
    {outcome : Attempt Bytes} (h : Source.read environment script limit = (outcome, next)) :
    readSteps script.steps limit = (outcome, next.steps) := by
  cases h
  rfl

end Script

/-- **A script delivers what its steps say**, however it is read. -/
theorem Delivers.script {ε : Type} {seen : ε → Prop} {script : Script} {bytes : Bytes}
    {ending : Ending} (h : Delivers seen script bytes ending) :
    script.delivered = (bytes, ending) := by
  induction h with
  | ended _ hlimit hread =>
    rw [Script.delivered, Script.deliveredBy_readSteps _ hlimit, Script.readSteps_of_read hread]
  | failed _ hlimit hread =>
    rw [Script.delivered, Script.deliveredBy_readSteps _ hlimit, Script.readSteps_of_read hread]
  | again _ hlimit hread _ ih =>
    rw [Script.delivered, Script.deliveredBy_readSteps _ hlimit, Script.readSteps_of_read hread]
    exact ih
  | @more _ script next limit chunk bytes ending _ hlimit hne hread _ ih =>
    obtain ⟨b, chunk, rfl⟩ := List.exists_cons_of_ne_nil hne
    rw [Script.delivered] at ih ⊢
    rw [Script.deliveredBy_readSteps _ hlimit, Script.readSteps_of_read hread]
    dsimp only
    rw [ih]

end CpioArchive
