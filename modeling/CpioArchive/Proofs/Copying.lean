import CpioArchive.Proofs.Delivery
import CpioArchive.Proofs.Writing
import CpioArchive.Stream.Copy

/-!
# What a copy writes

A copy of `length` bytes is a sequence of writes whose number and size depend on the source
and on the buffer.  Joined, they are always the same bytes: those the source delivers, cut
off at `length` or filled up to it with NUL bytes (`fitted`).

* `fillWithNuls_spec`, `drain_spec` — what the two loops around the copy do;
* `copyOnward_spec` — what is left of a copy writes what is left of its bytes, whatever was
  copied before: the step over which the induction goes;
* `copyExact_spec` — a whole copy writes `fitted length` of what the source delivers, and
  its result is `copyOutcome` unless a write fails.
-/

namespace CpioArchive

/-! ## What a copy comes to -/

/-- Some bytes cut off at a size, or filled up to it with NUL bytes. -/
def fitted (size : Nat) (bytes : Bytes) : Bytes := bytes.take size ++ nuls (size - bytes.length)

@[simp] theorem length_fitted (size : Nat) (bytes : Bytes) : (fitted size bytes).length = size := by
  rw [fitted, List.length_append, List.length_take, length_nuls]
  omega

@[simp] theorem fitted_zero (bytes : Bytes) : fitted 0 bytes = [] :=
  List.eq_nil_of_length_eq_zero (length_fitted 0 bytes)

@[simp] theorem fitted_nil (size : Nat) : fitted size [] = nuls size := by
  simp [fitted]

/-- Bytes of the right number stay as they are. -/
theorem fitted_self (bytes : Bytes) : fitted bytes.length bytes = bytes := by
  simp [fitted, nuls]

theorem fitted_append {size : Nat} {first : Bytes} (hle : first.length ≤ size) (rest : Bytes) :
    fitted size (first ++ rest) = first ++ fitted (size - first.length) rest := by
  rw [fitted, fitted, List.take_append, List.take_of_length_le hle, List.length_append,
    Nat.sub_add_eq, List.append_assoc]

/-- The result of draining a source that delivered `extra` bytes in all. -/
def drainOutcome (extra : Nat) (ending : Ending) : Except IoError Nat :=
  match ending with
  | .ended => .ok extra
  | .failed cause => if 0 < extra then .ok extra else .error cause

/-- The result of copying `length` bytes of a source that delivered `delivered`. -/
def copyOutcome (length delivered : Nat) (ending : Ending) : Except ArchiveError Copied :=
  if length < delivered then .ok ⟨length, some (delivered - length)⟩
  else
    match ending with
    | .failed cause => .error (.contentRead cause)
    | .ended =>
      if delivered < length then .error (.lengthMismatch length delivered) else .ok ⟨length, none⟩

/-- A copy fails only for what the source does. -/
theorem isContentFailure_of_copyOutcome {length delivered : Nat} {ending : Ending}
    {e : ArchiveError} (h : copyOutcome length delivered ending = .error e) :
    e.isContentFailure = true := by
  cases ending <;> rw [copyOutcome] at h <;> repeat' split at h
  all_goals cases h
  all_goals rfl

/-- A copy without surplus had a source of the declared length. -/
theorem of_copyOutcome_eq_ok {length delivered count : Nat} {ending : Ending}
    (h : copyOutcome length delivered ending = .ok ⟨count, none⟩) :
    delivered = length ∧ ending = .ended := by
  cases ending <;> rw [copyOutcome] at h <;> repeat' split at h
  all_goals cases h
  exact ⟨by omega, rfl⟩

/-- When everything is copied, draining the source decides the result. -/
theorem copyOutcome_drain (length extra : Nat) (ending : Ending) :
    copyOutcome length (length + extra) ending =
      match drainOutcome extra ending with
      | .ok extra => .ok ⟨length, if 0 < extra then some extra else none⟩
      | .error cause => .error (.contentRead cause) := by
  cases ending with
  | ended =>
    rw [copyOutcome, drainOutcome, Nat.add_sub_cancel_left]
    by_cases hextra : 0 < extra
    · rw [if_pos (by omega)]
      simp only [if_pos hextra]
    · rw [if_neg (by omega), if_neg (by omega)]
      simp only [if_neg hextra]
  | failed cause =>
    rw [copyOutcome, drainOutcome, Nat.add_sub_cancel_left]
    by_cases hextra : 0 < extra
    · rw [if_pos (by omega)]
      simp only [if_pos hextra]
    · rw [if_neg (by omega), if_neg hextra]

section Copies

variable {δ ε ς : Type} [Destination δ ε]

/-- The outcome of something whose writes came to `written`: a failed write is an error of its
own. -/
def afterWrites {α : Type} (written : Except IoError Unit × δ) (outcome : Except ArchiveError α) :
    Except ArchiveError α × δ :=
  match written with
  | (.ok (), d) => (outcome, d)
  | (.error cause, d) => (.error (.io cause), d)

/-- NUL bytes are written in pieces, which do not depend on the destination. -/
theorem fillWithNuls_spec (buffer : CopyBuffer) (count : Nat) :
    ∃ pieces : List Bytes, pieces.flatten = nuls count ∧
      ∀ {δ ε : Type} [Destination δ ε] (d : δ),
        fillWithNuls d buffer count = writePieces d pieces := by
  induction count using Nat.strongRecOn with
  | ind count ih =>
    by_cases hcount : count = 0
    · subst hcount
      exact ⟨[], rfl, fun d => by rw [fillWithNuls, if_pos rfl, writePieces]⟩
    · have hless : count - buffer.size < count := by have := buffer.size_pos; omega
      obtain ⟨pieces, hflatten, hfill⟩ := ih _ hless
      refine ⟨nuls (min count buffer.size) :: pieces, ?_, fun d => ?_⟩
      · rw [List.flatten_cons, hflatten, ← nuls_add]
        congr 1
        omega
      · rw [fillWithNuls, if_neg hcount, CopyBuffer.front_clear, writePieces]
        rcases writeAll d (nuls (min count buffer.size)) with ⟨_ | _, next⟩
        · rfl
        · exact hfill next

theorem makeUp_spec (buffer : CopyBuffer) (missing : Nat) (e : ArchiveError) :
    ∃ pieces : List Bytes, pieces.flatten = nuls missing ∧
      ∀ {δ ε ς : Type} [Destination δ ε] (d : δ) (source : ς),
        ((makeUp d source buffer missing e).1, (makeUp d source buffer missing e).2.destination) =
          afterWrites (writePieces d pieces) (.error e) := by
  obtain ⟨pieces, hflatten, hfill⟩ := fillWithNuls_spec buffer missing
  refine ⟨pieces, hflatten, fun d source => ?_⟩
  rw [makeUp, hfill]
  rcases writePieces d pieces with ⟨_ | _, next⟩ <;> rfl

variable [Source ε ς] {seen : ε → Prop}

/-- Draining a source counts what it delivers. -/
theorem drain_spec {environment : ε} (hseen : seen environment) (source : ς)
    (buffer : CopyBuffer) (extra : Nat) :
    ∃ bytes ending, Delivers seen source bytes ending ∧
      (drain environment source buffer extra).1 = drainOutcome (extra + bytes.length) ending := by
  fun_induction drain environment source buffer extra with
  | case1 source buffer extra next hread =>
    exact ⟨[], .ended, .ended hseen buffer.size_pos hread, rfl⟩
  | case2 source buffer extra b chunk next hread ih =>
    obtain ⟨bytes, ending, hdelivers, hdrain⟩ := ih
    have hne := List.cons_ne_nil b chunk
    refine ⟨_, ending, .more hseen buffer.size_pos hne hread hdelivers, ?_⟩
    rw [hdrain, List.length_append, Nat.add_assoc]
  | case3 source buffer extra cause next hread ih =>
    obtain ⟨bytes, ending, hdelivers, hdrain⟩ := ih
    exact ⟨bytes, ending, .again hseen buffer.size_pos hread hdelivers, hdrain⟩
  | case4 source buffer extra cause next hread hpos =>
    refine ⟨[], .failed cause, .failed hseen buffer.size_pos hread, ?_⟩
    rw [List.length_nil, Nat.add_zero, drainOutcome, if_pos hpos]
  | case5 source buffer extra cause next hread hzero =>
    refine ⟨[], .failed cause, .failed hseen buffer.size_pos hread, ?_⟩
    rw [List.length_nil, Nat.add_zero, drainOutcome, if_neg hzero]

variable {good : δ → Prop} {held : δ → Bytes}

/-- **What is left of a copy writes what is left of its bytes.**  Nothing of what was copied
before, or of what the buffer still holds of it, has a part in that. -/
theorem copyOnward_spec (F : Faithful good held)
    (henvironment : ∀ {d : δ}, good d → seen (Destination.environment d)) {d : δ} (hd : good d)
    (source : ς) (buffer : CopyBuffer) {length copied : Nat} (hcopied : copied ≤ length) :
    ∃ bytes ending pieces, Delivers seen source bytes ending ∧
      pieces.flatten = fitted (length - copied) bytes ∧
      ((copyOnward d source buffer length copied).1,
          (copyOnward d source buffer length copied).2.destination) =
        afterWrites (writePieces d pieces)
          (copyOutcome length (copied + bytes.length) ending) := by
  fun_induction copyOnward d source buffer length copied with
  | case1 d source buffer copied hlt next hread =>
    have hlimit : 0 < min (length - copied) buffer.size := by have := buffer.size_pos; omega
    obtain ⟨pieces, hflatten, hmakeUp⟩ := makeUp_spec buffer (length - copied)
      (.lengthMismatch length copied)
    refine ⟨[], .ended, pieces, .ended (henvironment hd) hlimit hread, ?_, ?_⟩
    · rw [hflatten, fitted_nil]
    · rw [hmakeUp, List.length_nil, Nat.add_zero, copyOutcome, if_neg (by omega), if_pos hlt]
  | case2 d source buffer copied hlt b chunk next hread count loaded after hwrite ih =>
    have hchunk := Source.length_le_of_read hread
    have hlimit : 0 < min (length - copied) buffer.size := by have := buffer.size_pos; omega
    have hgood := (F.writeAll hd (loaded.front count)).1
    rw [hwrite] at hgood
    obtain ⟨bytes, ending, pieces, hdelivers, hflatten, hcopy⟩ := ih hgood (by omega)
    rw [CopyBuffer.front_load] at hwrite
    have hne := List.cons_ne_nil b chunk
    refine ⟨_, ending, (b :: chunk) :: pieces,
      .more (henvironment hd) hlimit hne hread hdelivers, ?_, ?_⟩
    · rw [List.flatten_cons, hflatten, fitted_append (by omega), Nat.sub_add_eq]
    · rw [hcopy, writePieces, hwrite, List.length_append, Nat.add_assoc]
  | case3 d source buffer copied hlt b chunk next hread count loaded cause after hwrite =>
    -- The rest is never read, but it would deliver something, and that is what is missing.
    have hchunk := Source.length_le_of_read hread
    have hlimit : 0 < min (length - copied) buffer.size := by have := buffer.size_pos; omega
    obtain ⟨bytes, ending, hdelivers⟩ := exists_delivers (henvironment hd) next
    rw [CopyBuffer.front_load] at hwrite
    have hne := List.cons_ne_nil b chunk
    refine ⟨_, ending, [b :: chunk, fitted (length - copied - count) bytes],
      .more (henvironment hd) hlimit hne hread hdelivers, ?_, ?_⟩
    · rw [List.flatten_cons, List.flatten_singleton, fitted_append (by omega)]
    · rw [writePieces, hwrite]
      rfl
  | case4 d source buffer copied hlt cause next hread ih =>
    have hlimit : 0 < min (length - copied) buffer.size := by have := buffer.size_pos; omega
    obtain ⟨bytes, ending, pieces, hdelivers, hcopy⟩ := ih hd hcopied
    exact ⟨bytes, ending, pieces, .again (henvironment hd) hlimit hread hdelivers, hcopy⟩
  | case5 d source buffer copied hlt cause next hread =>
    have hlimit : 0 < min (length - copied) buffer.size := by have := buffer.size_pos; omega
    obtain ⟨pieces, hflatten, hmakeUp⟩ := makeUp_spec buffer (length - copied)
      (.contentRead cause)
    refine ⟨[], .failed cause, pieces, .failed (henvironment hd) hlimit hread, ?_, ?_⟩
    · rw [hflatten, fitted_nil]
    · rw [hmakeUp, List.length_nil, Nat.add_zero, copyOutcome, if_neg (by omega)]
  | case6 d source buffer copied hge extra next buffer' hdrain =>
    obtain rfl : copied = length := by omega
    obtain ⟨bytes, ending, hdelivers, hresult⟩ := drain_spec (henvironment hd) source buffer 0
    refine ⟨bytes, ending, [], hdelivers, by simp, ?_⟩
    rw [hdrain, Nat.zero_add] at hresult
    rw [writePieces, afterWrites, copyOutcome_drain, ← hresult]
  | case7 d source buffer copied hge cause next buffer' hdrain =>
    obtain rfl : copied = length := by omega
    obtain ⟨bytes, ending, hdelivers, hresult⟩ := drain_spec (henvironment hd) source buffer 0
    refine ⟨bytes, ending, [], hdelivers, by simp, ?_⟩
    rw [hdrain, Nat.zero_add] at hresult
    rw [writePieces, afterWrites, copyOutcome_drain, ← hresult]

/-- **A whole copy writes the declared number of bytes**, whatever the source delivers: what
it delivers, cut off or filled up. -/
theorem copyExact_spec (F : Faithful good held)
    (henvironment : ∀ {d : δ}, good d → seen (Destination.environment d)) {d : δ} (hd : good d)
    (source : ς) (buffer : CopyBuffer) (length : Nat) :
    ∃ bytes ending pieces, Delivers seen source bytes ending ∧
      pieces.flatten = fitted length bytes ∧
      ((copyExact d source buffer length).1, (copyExact d source buffer length).2.destination) =
        afterWrites (writePieces d pieces) (copyOutcome length bytes.length ending) := by
  obtain ⟨bytes, ending, pieces, hdelivers, hflatten, hcopy⟩ :=
    copyOnward_spec F henvironment hd source buffer (Nat.zero_le length)
  rw [Nat.zero_add] at hcopy
  exact ⟨bytes, ending, pieces, hdelivers, hflatten, hcopy⟩

end Copies

end CpioArchive
