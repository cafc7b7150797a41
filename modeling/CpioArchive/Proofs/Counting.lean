import Mathlib
import CpioArchive.Proofs.Metering
import CpioArchive.Proofs.Sinks
import CpioArchive.Proofs.Views

/-!
# Counts that do not drift

A counted destination is called through its count, and directly, past the count.  In whatever order
the calls are made and however the destination answers them, the count is the number of the bytes
that were accepted through it.

* `CountedTurn` — a call on one of the two routes, with its answer and what it leaves behind;
* `Operation.Accepts` — what a call got accepted of the bytes it offered, in view of its answer;
* `Faithful.isCounted_perform` — one call adds to the count what was accepted through it;
* `Faithful.tracks_behind` — so the count is right behind any sequence of calls;
* `counted_calls` — that of every destination, with a record of what it accepts.
-/

namespace CpioArchive

/-! ## Calls on two routes -/

/-- A call on a destination. -/
inductive Operation where
  /-- Offers some bytes once. -/
  | write (bytes : Bytes)
  /-- Offers some bytes until all of them are accepted. -/
  | writeAll (bytes : Bytes)
  | flush

/-- What a call on a destination returns. -/
inductive Response where
  | wrote (outcome : Attempt Nat)
  | wroteAll (outcome : Except IoError Unit)
  | flushed (outcome : Except IoError Unit)

/-- The way to the destination behind a count. -/
inductive Route where
  /-- Through the count. -/
  | counted
  /-- Past the count. -/
  | direct
  deriving DecidableEq

/-- A call on the destination behind a count. -/
structure CountedCall where
  route : Route
  operation : Operation

/-- A call, the counted destination it is made on, what it returns and what it leaves behind. -/
structure CountedTurn (δ : Type) where
  before : Counted δ
  call : CountedCall
  response : Response
  after : Counted δ

section Calls

variable {δ ε : Type} [Destination δ ε]

/-- Makes a call on a destination. -/
def Operation.run (d : δ) : Operation → Response × δ
  | .write bytes =>
    let (outcome, next) := Destination.write d bytes
    (.wrote outcome, next)
  | .writeAll bytes =>
    let (outcome, next) := CpioArchive.writeAll d bytes
    (.wroteAll outcome, next)
  | .flush =>
    let (outcome, next) := Destination.flush d
    (.flushed outcome, next)

namespace Counted

/-- Makes a call on its route. -/
def perform (d : Counted δ) (call : CountedCall) : CountedTurn δ :=
  match call.route with
  | .counted =>
    let (response, next) := call.operation.run d
    ⟨d, call, response, next⟩
  | .direct =>
    let (response, next) := call.operation.run d.inner
    ⟨d, call, response, { d with inner := next }⟩

/-- The turns of a sequence of calls. -/
def turns (d : Counted δ) : List CountedCall → List (CountedTurn δ)
  | [] => []
  | call :: calls => d.perform call :: (d.perform call).after.turns calls

/-- The counted destination behind a sequence of calls. -/
def behind (d : Counted δ) : List CountedCall → Counted δ
  | [] => d
  | call :: calls => (d.perform call).after.behind calls

@[simp] theorem call_perform (d : Counted δ) (call : CountedCall) :
    (d.perform call).call = call := by
  rw [perform]
  split <;> rfl

end Counted

end Calls

/-! ## What is accepted -/

/-- `operation.Accepts response accepted` says that a call with this answer got these bytes
accepted: of a single write as many as it says, and none if it was interrupted or failed; of a whole
write all, or a part without the end if it failed. -/
inductive Operation.Accepts : Operation → Response → Bytes → Prop
  | written {bytes : Bytes} {count : Nat} :
      Accepts (.write bytes) (.wrote (.done count)) (bytes.take count)
  | refused {bytes : Bytes} {outcome : Attempt Nat} (h : ∀ count, outcome ≠ .done count) :
      Accepts (.write bytes) (.wrote outcome) []
  | whole {bytes : Bytes} : Accepts (.writeAll bytes) (.wroteAll (.ok ())) bytes
  | partly {accepted missing : Bytes} {cause : IoError} (h : missing ≠ []) :
      Accepts (.writeAll (accepted ++ missing)) (.wroteAll (.error cause)) accepted
  | flushed {outcome : Except IoError Unit} : Accepts .flush (.flushed outcome) []

namespace CountedTurn

variable {δ : Type}

/-- A call that got some bytes accepted, and moved the count by their number if it was made through
the count.  What `held` shows of the destination has grown by just these bytes. -/
def IsCounted (held : δ → Bytes) (turn : CountedTurn δ) : Prop :=
  ∃ accepted, turn.call.operation.Accepts turn.response accepted ∧
    held turn.after.inner = held turn.before.inner ++ accepted ∧
    turn.after.position = turn.before.position +
      match turn.call.route with
      | .counted => accepted.length
      | .direct => 0

/-- By how much the destination has grown in a call, if that was made on the given route. -/
def growthOn (held : δ → Bytes) (route : Route) (turn : CountedTurn δ) : Nat :=
  if turn.call.route = route then (held turn.after.inner).length - (held turn.before.inner).length
  else 0

end CountedTurn

/-- By how much a destination has grown in the calls on one route. -/
def grown {δ : Type} (held : δ → Bytes) (route : Route) (turns : List (CountedTurn δ)) : Nat :=
  totalOf (turns.map (·.growthOn held route))

section Counts

variable {δ ε : Type} [Destination δ ε] {good : δ → Prop} {held : δ → Bytes}

/-- A faithful destination keeps what a call got accepted. -/
theorem Faithful.run (F : Faithful good held) {d : δ} (hd : good d) (operation : Operation) :
    good (operation.run d).2 ∧ ∃ accepted, operation.Accepts (operation.run d).1 accepted ∧
      held (operation.run d).2 = held d ++ accepted := by
  cases operation with
  | write bytes =>
    rw [Operation.run]
    rcases hwrite : Destination.write d bytes with ⟨count | cause | cause, next⟩
    · exact ⟨F.good_write hd hwrite, _, .written, F.held_done hd hwrite⟩
    · refine ⟨F.good_write hd hwrite, _, .refused nofun, ?_⟩
      rw [F.held_interrupted hd hwrite, List.append_nil]
    · refine ⟨F.good_write hd hwrite, _, .refused nofun, ?_⟩
      rw [F.held_failed hd hwrite, List.append_nil]
  | writeAll bytes =>
    rw [Operation.run]
    obtain ⟨hgood, accepted, -, hheld, hall⟩ := F.writeAll hd bytes
    rcases hwrite : CpioArchive.writeAll d bytes with ⟨cause | _, next⟩ <;>
      rw [hwrite] at hgood hheld hall
    · obtain ⟨accepted, missing, rfl, hmissing, hheld⟩ := F.writeAll_error hd hwrite
      exact ⟨hgood, accepted, .partly hmissing, hheld⟩
    · obtain rfl := hall rfl
      exact ⟨hgood, accepted, .whole, hheld⟩
  | flush =>
    refine ⟨F.good_flush hd, [], .flushed, ?_⟩
    rw [List.append_nil]
    exact F.held_flush hd

/-- **One call is counted**, and leaves the count at a place where it tells how much was written
through it.  What a direct call writes moves only the beginning of that. -/
theorem Faithful.isCounted_perform (F : Faithful good held) {start : Nat} {d : Counted δ}
    (hd : Counted.Tracks good held start d) (call : CountedCall) :
    let turn := d.perform call
    turn.IsCounted held ∧ turn.after.position = d.position + turn.growthOn held .counted ∧
      Counted.Tracks good held (start + turn.growthOn held .direct) turn.after := by
  obtain ⟨route, operation⟩ := call
  have hbefore := hd.2
  cases route with
  | counted =>
    obtain ⟨htracks, accepted, haccepts, hheld⟩ := (F.counted start).run hd operation
    have hlength := htracks.2
    rw [hheld, List.length_append] at hlength
    have hposition : (operation.run d).2.position = d.position + accepted.length := by omega
    refine ⟨⟨accepted, haccepts, hheld, hposition⟩, ?_, htracks⟩
    show (operation.run d).2.position =
      d.position + ((held (operation.run d).2.inner).length - (held d.inner).length)
    rw [hheld, List.length_append]
    omega
  | direct =>
    obtain ⟨hgood, accepted, haccepts, hheld⟩ := F.run hd.1 operation
    refine ⟨⟨accepted, haccepts, hheld, rfl⟩, rfl, hgood, ?_⟩
    show (held (operation.run d.inner).2).length =
      start + ((held (operation.run d.inner).2).length - (held d.inner).length) + d.position
    rw [hheld, List.length_append]
    omega

/-- **The count is right behind any sequence of calls.** -/
theorem Faithful.tracks_behind (F : Faithful good held) {start : Nat} {d : Counted δ}
    (hd : Counted.Tracks good held start d) (calls : List CountedCall) :
    (∀ turn ∈ d.turns calls, turn.IsCounted held) ∧
      (d.behind calls).position = d.position + grown held .counted (d.turns calls) ∧
      Counted.Tracks good held (start + grown held .direct (d.turns calls)) (d.behind calls) := by
  induction calls generalizing start d with
  | nil => exact ⟨nofun, rfl, hd⟩
  | cons call calls ih =>
    obtain ⟨hcounted, hposition, htracks⟩ := F.isCounted_perform hd call
    obtain ⟨hall, hposition', htracks'⟩ := ih htracks
    rw [Counted.turns, Counted.behind]
    refine ⟨List.forall_mem_cons.2 ⟨hcounted, hall⟩, ?_, ?_⟩
    · rw [hposition', hposition, Nat.add_assoc]
      rfl
    · rw [Nat.add_assoc] at htracks'
      exact htracks'

end Counts

/-! ## Counts in front of views -/

section Views

variable {δ φ ε : Type} [Destination δ ε] [Destination φ ε] {see : δ → φ}

/-- A count in front of what is seen of its destination. -/
def Counted.map (see : δ → φ) (d : Counted δ) : Counted φ := ⟨see d.inner, d.position⟩

/-- A turn as it looks when its destination is seen through a view. -/
def CountedTurn.map (see : δ → φ) (turn : CountedTurn δ) : CountedTurn φ :=
  ⟨turn.before.map see, turn.call, turn.response, turn.after.map see⟩

/-- A view of a destination that is also flushed as the destination is. -/
structure Destination.IsFullView (see : δ → φ) : Prop extends Destination.IsView see where
  flush (d : δ) : Destination.flush (see d) =
    ((Destination.flush d).1, see (Destination.flush d).2)

theorem Destination.IsFullView.counted (hsee : Destination.IsFullView see) :
    Destination.IsFullView (Counted.map see) where
  write {d next bytes outcome} h := by
    obtain ⟨hinner, hposition⟩ := Counted.write_cases h
    change Counted.write ⟨see d.inner, d.position⟩ bytes =
      (outcome, ⟨see next.inner, next.position⟩)
    rw [Counted.write, hsee.write hinner, hposition]
    cases outcome <;> rfl
  environment d := hsee.environment d.inner
  flush d := by
    change ((Destination.flush (see d.inner)).1,
      (⟨(Destination.flush (see d.inner)).2, d.position⟩ : Counted φ)) = _
    rw [hsee.flush]
    rfl

/-- Every call is answered through a view as it is without it. -/
theorem Operation.run_view (hsee : Destination.IsFullView see) (operation : Operation) (d : δ) :
    operation.run (see d) = ((operation.run d).1, see (operation.run d).2) := by
  cases operation with
  | write bytes => rw [run, hsee.write rfl]; rfl
  | writeAll bytes => rw [run, writeAll_view hsee.toIsView]; rfl
  | flush => rw [run, hsee.flush]; rfl

theorem Counted.perform_view (hsee : Destination.IsFullView see) (d : Counted δ)
    (call : CountedCall) : (d.map see).perform call = (d.perform call).map see := by
  obtain ⟨route, operation⟩ := call
  cases route with
  | counted =>
    rw [perform, perform]
    dsimp only
    rw [Operation.run_view hsee.counted]
    rfl
  | direct =>
    rw [perform, perform]
    dsimp only
    rw [map, Operation.run_view hsee]
    rfl

/-- **A count cannot tell a destination from a view of it.** -/
theorem Counted.turns_view (hsee : Destination.IsFullView see) (d : Counted δ)
    (calls : List CountedCall) :
    (d.map see).turns calls = (d.turns calls).map (·.map see) ∧
      (d.map see).behind calls = (d.behind calls).map see := by
  induction calls generalizing d with
  | nil => exact ⟨rfl, rfl⟩
  | cons call calls ih =>
    obtain ⟨hturns, hbehind⟩ := ih (d.perform call).after
    rw [turns, behind, perform_view hsee]
    exact ⟨congrArg _ hturns, hbehind⟩

end Views

/-! ## Destinations with a record -/

section Records

variable {δ ε : Type} [Destination δ ε] {good : δ → Prop} {held : δ → Bytes}

/-- The destinations that hold what they held at the start, and behind it what is on record. -/
def Recorded.Follows (good : δ → Prop) (held : δ → Bytes) (start : Bytes) (d : Recorded δ) : Prop :=
  good d.inner ∧ held d.inner = start ++ d.accepted

/-- A faithful destination holds what is on record. -/
theorem Faithful.recorded (F : Faithful good held) (start : Bytes) :
    Faithful (Recorded.Follows good held start) Recorded.accepted where
  good_write {d next bytes outcome} hd h := by
    have hinner := Recorded.isView_inner.write h
    refine ⟨F.good_write hd.1 hinner, ?_⟩
    rw [Recorded.accepted_write h, ← List.append_assoc, ← hd.2]
    cases outcome with
    | done count => exact F.held_done hd.1 hinner
    | interrupted cause =>
      rw [F.held_interrupted hd.1 hinner, Attempt.taken, List.append_nil]
    | failed cause =>
      rw [F.held_failed hd.1 hinner, Attempt.taken, List.append_nil]
  good_flush hd := ⟨F.good_flush hd.1, (F.held_flush hd.1).trans hd.2⟩
  held_done _ h := Recorded.accepted_write h
  held_interrupted _ h := (Recorded.accepted_write h).trans (List.append_nil _)
  held_failed _ h := (Recorded.accepted_write h).trans (List.append_nil _)
  held_flush _ := rfl

end Records

/-- **A count does not drift**, whatever the destination behind it does and whatever calls are made
on it, through the count and past it.  A record of what the destination accepts makes no difference
to the calls, and with it behind any calls:

* every call moved the count by the bytes it got accepted if it was made through the count, and left
  the count alone if it was not.  A flush and a write that is interrupted or fails got none
  accepted, and a whole write that failed midway what had been accepted by then;
* the count is what was accepted in the calls made through it: what the destination accepted
  altogether, less what it accepted in direct calls;
* a destination that keeps what it accepts has grown by just what is on record. -/
theorem counted_calls {δ ε : Type} [Destination δ ε] (d : δ) (calls : List CountedCall) :
    let turns := (Counted.fresh (Recorded.start d)).turns calls
    let last := (Counted.fresh (Recorded.start d)).behind calls
    ((Counted.fresh d).turns calls = turns.map (·.map Recorded.inner) ∧
      (Counted.fresh d).behind calls = last.map Recorded.inner) ∧
      (∀ turn ∈ turns, turn.IsCounted Recorded.accepted) ∧
      last.position = grown Recorded.accepted .counted turns ∧
      last.inner.accepted.length = last.position + grown Recorded.accepted .direct turns ∧
      ∀ (good : δ → Prop) (held : δ → Bytes), Faithful good held → good d →
        held last.inner.inner = held d ++ last.inner.accepted := by
  intro turns last
  have hrecord : Faithful (fun d : Recorded δ => True) Recorded.accepted :=
    Recorded.faithful (fun _ => True) (fun _ _ => trivial) (fun _ => trivial)
  have hstart : (Recorded.start d).accepted = [] := rfl
  obtain ⟨hcounted, hposition, -, hlength⟩ :=
    hrecord.tracks_behind (Counted.tracks_fresh trivial) calls
  refine ⟨?_, hcounted, ?_, ?_, fun good held F hd => ?_⟩
  · have hview : Destination.IsFullView (Recorded.inner : Recorded δ → δ) :=
      ⟨Recorded.isView_inner, fun _ => rfl⟩
    exact Counted.turns_view hview (Counted.fresh (Recorded.start d)) calls
  · exact hposition.trans (Nat.zero_add _)
  · rw [Nat.add_comm, hlength, hstart, List.length_nil, Nat.zero_add]
  · have hfollows : Recorded.Follows good held (held d) (Recorded.start d) :=
      ⟨hd, (List.append_nil _).symm⟩
    obtain ⟨-, -, hgood, -⟩ :=
      (F.recorded (held d)).tracks_behind (Counted.tracks_fresh hfollows) calls
    exact hgood.2

/-- A whole write that fails midway, a byte past the count, a flush, and a write of which a part is
taken. -/
theorem counted_calls_failing_once :
    let sink : Sink := { failOnceAt := some 3, largestWrite := some 2, interrupts := 1 }
    let calls : List CountedCall :=
      [⟨.counted, .writeAll [1, 2, 3, 4, 5]⟩, ⟨.direct, .writeAll [9]⟩, ⟨.counted, .flush⟩,
        ⟨.counted, .write [6, 7, 8]⟩]
    let last := (Counted.fresh (Recorded.start sink)).behind calls
    last.position = 5 ∧ last.inner.accepted = [1, 2, 3, 9, 6, 7] ∧
      Faithful (δ := Sink) (fun _ => True) (fun sink => sink.data.toList) ∧
      last.inner.inner.data.toList = sink.data.toList ++ [1, 2, 3, 9, 6, 7] := by
  intro sink calls last
  have hposition : last.position = 5 := by
    dsimp only [last, calls, sink]
    cbv
  have haccepted : last.inner.accepted = [1, 2, 3, 9, 6, 7] := by
    dsimp only [last, calls, sink]
    cbv
  obtain ⟨-, -, -, -, hheld⟩ := counted_calls sink calls
  refine ⟨hposition, haccepted, Sink.faithful, ?_⟩
  rw [← haccepted]
  exact hheld _ _ Sink.faithful trivial

end CpioArchive
