import CpioArchive.Proofs.Metering
import CpioArchive.Proofs.Sinks
import CpioArchive.Proofs.Views

/-!
# What a copy asks for

A copy and its source talk in reads: the copy says how much it wants, the source what there is.  A
source that logs the reads shows what the copy wants.

* `AreModest` — reads that ask for something, and for no more than is missing as long as anything
  is;
* `Logged.copyOnward_requests` — the reads of a copy are modest, and not many;
* `copy_contract` — what a copy reads, writes and returns, if no write fails.
-/

namespace CpioArchive

/-! ## Modest reads -/

/-- How many bytes came of some reads. -/
def received (requests : List ReadRequest) : Nat :=
  totalOf (requests.map fun request => request.outcome.received.length)

/-- Every read asks for something, and for no more than is still missing as long as anything is. -/
def AreModest (missing : Nat) (requests : List ReadRequest) : Prop :=
  ∀ earlier request later, requests = earlier ++ request :: later →
    0 < request.limit ∧
      (received earlier < missing → request.limit ≤ missing - received earlier)

theorem AreModest.nil (missing : Nat) : AreModest missing [] := by
  intro earlier request later h
  exact absurd h.symm (List.append_ne_nil_of_right_ne_nil _ (List.cons_ne_nil _ _))

theorem AreModest.cons {missing : Nat} {request : ReadRequest} {requests : List ReadRequest}
    (hpos : 0 < request.limit) (hle : 0 < missing → request.limit ≤ missing)
    (h : AreModest (missing - request.outcome.received.length) requests) :
    AreModest missing (request :: requests) := by
  intro earlier other later heq
  cases earlier with
  | nil =>
    cases heq
    exact ⟨hpos, hle⟩
  | cons first earlier =>
    obtain ⟨rfl, hrest⟩ := List.cons.inj heq
    obtain ⟨hother, hlimit⟩ := h earlier other later hrest
    have hreceived : received (request :: earlier) =
        request.outcome.received.length + received earlier := rfl
    refine ⟨hother, fun hlt => ?_⟩
    have := hlimit (by omega)
    omega

/-! ## The reads of a copy -/

namespace Logged

variable {δ ε ς : Type} [Destination δ ε] [Source ε ς]

/-- Some reads were added to a log; they are modest and not more than a number. -/
def Adds (source next : Logged ς) (missing most : Nat) : Prop :=
  ∃ requests, next.requests = source.requests ++ requests ∧ AreModest missing requests ∧
    requests.length ≤ most

/-- One read in front of others. -/
theorem Adds.read {environment : ε} {source middle next : Logged ς} {limit missing most : Nat}
    {outcome : Attempt Bytes} (hread : Source.read environment source limit = (outcome, middle))
    (hpos : 0 < limit) (hle : 0 < missing → limit ≤ missing)
    (h : Adds middle next (missing - outcome.received.length) most) :
    Adds source next missing (most + 1) := by
  obtain ⟨requests, hrequests, hmodest, hlength⟩ := h
  refine ⟨⟨limit, outcome⟩ :: requests, ?_, .cons hpos hle hmodest, Nat.succ_le_succ hlength⟩
  rw [hrequests, requests_read hread, List.append_assoc]
  rfl

/-- A single read. -/
theorem Adds.single {environment : ε} {source next : Logged ς} {limit missing : Nat} (most : Nat)
    {outcome : Attempt Bytes} (hread : Source.read environment source limit = (outcome, next))
    (hpos : 0 < limit) (hle : 0 < missing → limit ≤ missing) :
    Adds source next missing (most + 1) :=
  .read hread hpos hle ⟨[], (List.append_nil _).symm, .nil _, Nat.zero_le _⟩

theorem Adds.mono {source next : Logged ς} {missing most more : Nat}
    (h : Adds source next missing most) (hle : most ≤ more) : Adds source next missing more := by
  obtain ⟨requests, hrequests, hmodest, hlength⟩ := h
  exact ⟨requests, hrequests, hmodest, Nat.le_trans hlength hle⟩

variable {budget : ς → Nat}

/-- Draining a source whose bound is the same everywhere asks no more often than that, and once for
the end. -/
theorem drain_requests
    (hbudget : ∀ (environment : ε) (source : ς), Source.remaining environment source = budget source)
    (environment : ε) (source : Logged ς) (buffer : CopyBuffer) (extra : Nat) :
    Adds source (drain environment source buffer extra).2.1 0 (budget source.inner + 1) := by
  have hany : ∀ {limit : Nat}, 0 < 0 → limit ≤ 0 := fun h => absurd h (Nat.lt_irrefl 0)
  fun_induction drain environment source buffer extra with
  | case1 source buffer extra next hread => exact .single _ hread buffer.size_pos hany
  | case2 source buffer extra b chunk next hread ih =>
    have hless := Source.remaining_lt_of_done (isView_inner hread) (List.cons_ne_nil b chunk)
    rw [hbudget, hbudget] at hless
    have hrest := Adds.mono ih hless
    rw [← Nat.zero_sub (b :: chunk).length] at hrest
    exact .read hread buffer.size_pos hany hrest
  | case3 source buffer extra cause next hread ih =>
    have hless := Source.remaining_lt_of_interrupted (isView_inner hread)
    rw [hbudget, hbudget] at hless
    exact .read hread buffer.size_pos hany (ih.mono hless)
  | case4 source buffer extra cause next hread hpos => exact .single _ hread buffer.size_pos hany
  | case5 source buffer extra cause next hread hzero => exact .single _ hread buffer.size_pos hany

/-- **The reads of a copy are modest.**  A source whose bound is the same everywhere is read no more
often than that, and once for the end. -/
theorem copyOnward_requests
    (hbudget : ∀ (environment : ε) (source : ς), Source.remaining environment source = budget source)
    (d : δ) (source : Logged ς) (buffer : CopyBuffer) (length copied : Nat) :
    Adds source (copyOnward d source buffer length copied).2.source (length - copied)
      (budget source.inner + 1) := by
  have hlimit : ∀ (buffer : CopyBuffer) {copied : Nat}, copied < length →
      0 < min (length - copied) buffer.size ∧
        (0 < length - copied → min (length - copied) buffer.size ≤ length - copied) := by
    intro buffer copied hlt
    have := buffer.size_pos
    omega
  fun_induction copyOnward d source buffer length copied with
  | case1 d source buffer copied hlt next hread =>
    rw [source_makeUp]
    exact .single _ hread (hlimit buffer hlt).1 (hlimit buffer hlt).2
  | case2 d source buffer copied hlt b chunk next hread count loaded after hwrite ih =>
    have hless := Source.remaining_lt_of_done (isView_inner hread) (List.cons_ne_nil b chunk)
    rw [hbudget, hbudget] at hless
    have hrest := ih.mono hless
    rw [Nat.sub_add_eq] at hrest
    exact .read hread (hlimit buffer hlt).1 (hlimit buffer hlt).2 hrest
  | case3 d source buffer copied hlt b chunk next hread count loaded cause after hwrite =>
    exact .single _ hread (hlimit buffer hlt).1 (hlimit buffer hlt).2
  | case4 d source buffer copied hlt cause next hread ih =>
    have hless := Source.remaining_lt_of_interrupted (isView_inner hread)
    rw [hbudget, hbudget] at hless
    exact .read hread (hlimit buffer hlt).1 (hlimit buffer hlt).2 (ih.mono hless)
  | case5 d source buffer copied hlt cause next hread =>
    rw [source_makeUp]
    exact .single _ hread (hlimit buffer hlt).1 (hlimit buffer hlt).2
  | case6 d source buffer copied hge extra next buffer' hdrain =>
    have hrequests := drain_requests hbudget (Destination.environment d) source buffer 0
    rw [hdrain] at hrequests
    rwa [show length - copied = 0 by omega]
  | case7 d source buffer copied hge cause next buffer' hdrain =>
    have hrequests := drain_requests hbudget (Destination.environment d) source buffer 0
    rw [hdrain] at hrequests
    rwa [show length - copied = 0 by omega]

/-- A log changes nothing of a copy. -/
theorem copyExact_inner (d : δ) (source : Logged ς) (buffer : CopyBuffer) (length : Nat) :
    copyExact d source.inner buffer length =
      ((copyExact d source buffer length).1,
        (copyExact d source buffer length).2.map id inner) :=
  copyExact_view Destination.isView_id isView_inner d source buffer length

/-- The reads of a copy from a script. -/
theorem copyExact_requests (d : δ) (script : Script) (buffer : CopyBuffer) (length : Nat) :
    AreModest length (copyExact d (start script) buffer length).2.source.requests ∧
      (copyExact d (start script) buffer length).2.source.requests.length ≤
        Script.weight script.steps + 1 := by
  have hweight : ∀ (environment : ε) (script : Script),
      Source.remaining environment script = Script.weight script.steps := fun _ _ => rfl
  obtain ⟨requests, hrequests, hmodest, hcount⟩ :=
    copyOnward_requests hweight d (start script) buffer length 0
  rw [copyExact, hrequests]
  exact ⟨hmodest, hcount⟩

end Logged

/-! ## The contract -/

section Contract

variable {δ ε : Type} [Destination δ ε] {good : δ → Prop} {held : δ → Bytes}

/-- If no write fails, a copy writes what the source delivers, cut off or filled up, and the source
decides its result. -/
theorem Reliable.copyExact {ς : Type} [Source ε ς] (R : Reliable good held) {d : δ} (hd : good d)
    (source : ς) (buffer : CopyBuffer) (length : Nat) :
    ∃ bytes ending, Delivers (@Always ε) source bytes ending ∧
      (copyExact d source buffer length).1 = copyOutcome length bytes.length ending ∧
      held (CpioArchive.copyExact d source buffer length).2.destination =
        held d ++ fitted length bytes := by
  obtain ⟨bytes, ending, pieces, hdelivers, hflatten, hcopy⟩ :=
    copyExact_spec R.toFaithful always_environment hd source buffer length
  obtain ⟨-, accepted, -, hheld, hall⟩ := R.toFaithful.writePieces hd pieces
  obtain ⟨next, hwrite, -⟩ := R.writePieces_ok hd pieces
  rw [hwrite] at hcopy hheld hall
  obtain ⟨hresult, hdestination⟩ := Prod.mk.inj hcopy
  refine ⟨bytes, ending, hdelivers, hresult, ?_⟩
  rw [hdestination, hheld, hall rfl, hflatten]

/-- **The contract of a copy**, for a destination that takes everything, a source that keeps to a
script, and a buffer of any size and with anything in it.  What the script delivers before its first
end or failure decides what is written and returned: too few bytes are filled up with NUL bytes and
reported together with the end or the failure; of the right number, a failure is still reported; too
many are cut off, and then it does not matter how the script goes on.  Every read asks for something
and, until `length` bytes are copied, for no more than are missing, and there are no more reads than
the script can answer, and one. -/
theorem copy_contract (R : Reliable good held) {d : δ} (hd : good d) {script : Script}
    {bytes : Bytes} {ending : Ending} (hscript : script.delivered = (bytes, ending))
    (buffer : CopyBuffer) (length : Nat) :
    ∃ result state destination source requests,
      copyExact d script buffer length = (result, ⟨state, destination, source⟩) ∧
      copyExact d (Logged.start script) buffer length =
        (result, ⟨state, destination, ⟨source, requests⟩⟩) ∧
      (bytes.length < length →
        held destination = held d ++ (bytes ++ nuls (length - bytes.length)) ∧
        (ending = .ended → result = .error (.lengthMismatch length bytes.length)) ∧
        ∀ cause, ending = .failed cause → result = .error (.contentRead cause)) ∧
      (bytes.length = length →
        held destination = held d ++ bytes ∧
        (ending = .ended → result = .ok ⟨length, none⟩) ∧
        ∀ cause, ending = .failed cause → result = .error (.contentRead cause)) ∧
      (length < bytes.length →
        held destination = held d ++ bytes.take length ∧
        result = .ok ⟨length, some (bytes.length - length)⟩) ∧
      AreModest length requests ∧ requests.length ≤ Script.weight script.steps + 1 := by
  obtain ⟨bytes', ending', hdelivers, hresult, hheld⟩ := R.copyExact hd script buffer length
  obtain ⟨rfl, rfl⟩ := Prod.mk.inj (hdelivers.script.symm.trans hscript)
  have hinner : copyExact d script buffer length = _ :=
    Logged.copyExact_inner d (Logged.start script) buffer length
  have hrequests := Logged.copyExact_requests d script buffer length
  rw [hinner] at hresult hheld
  generalize copyExact d (Logged.start script) buffer length = logged
    at hinner hrequests hresult hheld ⊢
  obtain ⟨result, state, destination, source, requests⟩ := logged
  dsimp only at hresult
  subst hresult
  refine ⟨_, state, destination, source, requests, hinner, rfl,
    fun hlt => ⟨hheld.trans ?_, ?_, ?_⟩, fun heq => ⟨hheld.trans ?_, ?_, ?_⟩,
    fun hgt => ⟨hheld.trans ?_, ?_⟩, hrequests⟩
  -- Too few bytes.
  · rw [fitted, List.take_of_length_le (Nat.le_of_lt hlt)]
  · rintro rfl
    rw [copyOutcome, if_neg (Nat.lt_asymm hlt)]
    exact if_pos hlt
  · rintro cause rfl
    rw [copyOutcome, if_neg (Nat.lt_asymm hlt)]
  -- The right number.
  · rw [← heq, fitted_self]
  · rintro rfl
    rw [copyOutcome, if_neg (by omega)]
    exact if_neg (by omega)
  · rintro cause rfl
    rw [copyOutcome, if_neg (by omega)]
  -- Too many.
  · rw [fitted, Nat.sub_eq_zero_of_le (Nat.le_of_lt hgt)]
    exact congrArg (held d ++ ·) (List.append_nil _)
  · exact if_pos hgt

/-- A source that is interrupted, delivers four bytes and then fails: three bytes of it are copied,
and the fourth is all that is known of what was left. -/
theorem copy_contract_failing_source :
    ∃ result state destination source requests,
      copyExact Sink.empty (Logged.start
        (⟨[.refuse .interrupted, .deliver [1, 2, 3, 4], .refuse .nothingAccepted]⟩ : Script))
        (.ofSize 2) 3 = (result, ⟨state, destination, ⟨source, requests⟩⟩) ∧
      destination.data.toList = [1, 2, 3] ∧ result = .ok ⟨3, some 1⟩ ∧ AreModest 3 requests := by
  have hscript :
      Script.delivered ⟨[.refuse .interrupted, .deliver [1, 2, 3, 4], .refuse .nothingAccepted]⟩ =
        ([1, 2, 3, 4], .failed .nothingAccepted) := rfl
  obtain ⟨result, state, destination, source, requests, -, hlogged, -, -, hlong, hmodest, -⟩ :=
    copy_contract Sink.reliable Sink.unlimited_empty hscript (.ofSize 2) 3
  obtain ⟨hheld, hresult⟩ := hlong (by decide)
  exact ⟨result, state, destination, source, requests, hlogged, hheld, hresult, hmodest⟩

end Contract

end CpioArchive
