import CpioArchive.Proofs.Writing
import CpioArchive.Stream.Sink

/-!
# What sinks promise

The failures of a sink are tied to offsets of what it holds.  From that follow the three
promises of `CpioArchive.Proofs.Writing`:

* `Sink.faithful` — every sink keeps exactly what it accepts;
* `Sink.seamless` — no sink can tell how what it is given was cut into pieces, whatever
  the most it takes in one call and however often it is interrupted first;
* `Sink.reliable` — a sink without limits takes everything.

Surroundings take none of this away from a destination (`Reliable.surrounded`).
-/

namespace CpioArchive

namespace Sink

/-! ## One call -/

/-- The sink after it took some bytes. -/
def put (sink : Sink) (bytes : Bytes) : Sink :=
  { sink with data := sink.data.appendList bytes }

/-- Whether so many more bytes fit in before the next failure. -/
def HasRoom (sink : Sink) (count : Nat) : Prop :=
  (∀ offset ∈ sink.failOnceAt, sink.data.size + count ≤ offset) ∧
    ∀ offset ∈ sink.limit, sink.data.size + count ≤ offset

/-- The bytes of a call that are taken when the call is not refused. -/
def accepted (sink : Sink) (bytes : Bytes) : Bytes :=
  withinBound sink.largestWrite
    (withinBound (sink.limit.map (· - sink.data.size))
      (withinBound (sink.failOnceAt.map (· - sink.data.size)) bytes))

/-- The answer to a call that is refused, whatever it offers. -/
def refusal? (sink : Sink) : Option (Attempt Nat × Sink) :=
  if 0 < sink.interrupts then
    some (.interrupted .interrupted, { sink with interrupts := sink.interrupts - 1 })
  else if sink.failOnceAt.any (· ≤ sink.data.size) then
    some (.refused sink.error, { sink with failOnceAt := none })
  else if sink.limit.any (· ≤ sink.data.size) then some (.failed sink.error, sink)
  else none

theorem write_eq (sink : Sink) (bytes : Bytes) :
    sink.write bytes =
      match sink.refusal? with
      | some answer => answer
      | none => (.done (sink.accepted bytes).length, sink.put (sink.accepted bytes)) := by
  rw [write, refusal?]
  split
  · rfl
  · dsimp only
    split
    · rfl
    · split <;> rfl

theorem withinBound_isPrefix (bound : Option Nat) (bytes : Bytes) :
    withinBound bound bytes <+: bytes := by
  cases bound with
  | none => exact List.prefix_rfl
  | some n => exact List.take_prefix n bytes

theorem length_withinBound_le_of_mem {bound : Option Nat} {n : Nat} (h : n ∈ bound)
    (bytes : Bytes) : (withinBound bound bytes).length ≤ n := by
  rw [Option.mem_def] at h
  subst h
  exact List.length_take_le n bytes

theorem withinBound_ne_nil {bound : Option Nat} {bytes : Bytes} (h : ∀ n ∈ bound, n ≠ 0)
    (hne : bytes ≠ []) : withinBound bound bytes ≠ [] := by
  cases bound with
  | none => exact hne
  | some n =>
    intro hnil
    rcases List.take_eq_nil_iff.1 hnil with hn | hbytes
    · exact h n rfl hn
    · exact hne hbytes

/-- The accepted part of a call is a beginning of what was offered. -/
theorem accepted_isPrefix (sink : Sink) (bytes : Bytes) : sink.accepted bytes <+: bytes :=
  (withinBound_isPrefix _ _).trans ((withinBound_isPrefix _ _).trans (withinBound_isPrefix _ _))

theorem refusal?_eq_none_iff (sink : Sink) :
    sink.refusal? = none ↔ sink.interrupts = 0 ∧ sink.HasRoom 1 := by
  have hany : ∀ bound : Option Nat, bound.any (· ≤ sink.data.size) = false ↔
      ∀ offset ∈ bound, sink.data.size + 1 ≤ offset := by
    intro bound
    cases bound with
    | none => simp
    | some offset =>
      simp only [Option.any_some, decide_eq_false_iff_not, Option.mem_some_iff, forall_eq']
      omega
  rw [HasRoom, ← hany, ← hany, refusal?]
  by_cases hinterrupts : 0 < sink.interrupts
  · rw [if_pos hinterrupts]
    simp only [reduceCtorEq, false_iff]
    omega
  · rw [if_neg hinterrupts, show sink.interrupts = 0 by omega]
    by_cases honce : sink.failOnceAt.any (· ≤ sink.data.size) = true
    · simp [honce]
    · by_cases hlimit : sink.limit.any (· ≤ sink.data.size) = true <;> simp [honce, hlimit]

theorem refusal?_ne_done {sink : Sink} {count : Nat} {next : Sink} :
    sink.refusal? ≠ some (.done count, next) := by
  intro h
  simp only [refusal?, Attempt.refused] at h
  repeat' split at h
  all_goals cases h

/-- A call that transfers something was not refused. -/
theorem write_done {sink next : Sink} {bytes : Bytes} {count : Nat}
    (h : Destination.write sink bytes = (.done count, next)) :
    sink.interrupts = 0 ∧ sink.HasRoom 1 ∧ count = (sink.accepted bytes).length ∧
      next = sink.put (sink.accepted bytes) := by
  change sink.write bytes = _ at h
  rw [write_eq] at h
  cases hrefusal : sink.refusal? with
  | some answer =>
    rw [hrefusal] at h
    obtain rfl : answer = _ := h
    exact absurd hrefusal refusal?_ne_done
  | none =>
    rw [hrefusal] at h
    obtain ⟨hinterrupts, hroom⟩ := (refusal?_eq_none_iff sink).1 hrefusal
    cases h
    exact ⟨hinterrupts, hroom, rfl, rfl⟩

theorem refusal?_of_write {sink next : Sink} {bytes : Bytes} {outcome : Attempt Nat}
    (h : Destination.write sink bytes = (outcome, next))
    (houtcome : ∀ count, outcome ≠ .done count) : sink.refusal? = some (outcome, next) := by
  change sink.write bytes = _ at h
  rw [write_eq] at h
  cases hrefusal : sink.refusal? with
  | some answer =>
    rw [hrefusal] at h
    exact congrArg some h
  | none =>
    rw [hrefusal] at h
    cases h
    exact absurd rfl (houtcome _)

/-- A call that is refused would be refused whatever it offered. -/
theorem write_of_refused {sink next : Sink} {bytes : Bytes} {outcome : Attempt Nat}
    (h : Destination.write sink bytes = (outcome, next)) (houtcome : ∀ count, outcome ≠ .done count)
    (others : Bytes) : Destination.write sink others = (outcome, next) := by
  change sink.write others = _
  rw [write_eq, refusal?_of_write h houtcome]

theorem accepted_ne_nil {sink : Sink} {bytes : Bytes} (h : sink.HasRoom 1)
    (hlargest : sink.largestWrite ≠ some 0) (hne : bytes ≠ []) : sink.accepted bytes ≠ [] := by
  obtain ⟨honce, hlimit⟩ := h
  refine withinBound_ne_nil ?_ (withinBound_ne_nil ?_ (withinBound_ne_nil ?_ hne))
  · rintro n hn rfl
    exact hlargest hn
  · intro n hn
    obtain ⟨offset, hoffset, rfl⟩ := Option.map_eq_some_iff.1 hn
    have := hlimit offset hoffset
    omega
  · intro n hn
    obtain ⟨offset, hoffset, rfl⟩ := Option.map_eq_some_iff.1 hn
    have := honce offset hoffset
    omega

/-- There was room for what a call accepts. -/
theorem hasRoom_accepted {sink : Sink} (h : sink.HasRoom 1) (bytes : Bytes) :
    sink.HasRoom (sink.accepted bytes).length := by
  obtain ⟨honce, hlimit⟩ := h
  constructor
  · intro offset hoffset
    have hroom := honce offset hoffset
    have hle := length_withinBound_le_of_mem (Option.mem_map_of_mem (· - sink.data.size) hoffset)
      bytes
    have hle' := length_withinBound_le (sink.limit.map (· - sink.data.size))
      (withinBound (sink.failOnceAt.map (· - sink.data.size)) bytes)
    have hle'' := length_withinBound_le sink.largestWrite
      (withinBound (sink.limit.map (· - sink.data.size))
        (withinBound (sink.failOnceAt.map (· - sink.data.size)) bytes))
    rw [accepted]
    omega
  · intro offset hoffset
    have hroom := hlimit offset hoffset
    have hle := length_withinBound_le_of_mem (Option.mem_map_of_mem (· - sink.data.size) hoffset)
      (withinBound (sink.failOnceAt.map (· - sink.data.size)) bytes)
    have hle' := length_withinBound_le sink.largestWrite
      (withinBound (sink.limit.map (· - sink.data.size))
        (withinBound (sink.failOnceAt.map (· - sink.data.size)) bytes))
    rw [accepted]
    omega

@[simp] theorem toList_put (sink : Sink) (bytes : Bytes) :
    (sink.put bytes).data.toList = sink.data.toList ++ bytes := by
  simp [put]

@[simp] theorem put_nil (sink : Sink) : sink.put [] = sink := by
  simp [put]

theorem put_append (sink : Sink) (first rest : Bytes) :
    sink.put (first ++ rest) = (sink.put first).put rest := by
  have hdata : sink.data.appendList (first ++ rest) =
      (sink.data.appendList first).appendList rest := Array.ext' (by simp)
  rw [put, hdata]
  rfl

theorem hasRoom_put {sink : Sink} {count : Nat} {bytes : Bytes}
    (h : sink.HasRoom (bytes.length + count)) : (sink.put bytes).HasRoom count := by
  obtain ⟨honce, hlimit⟩ := h
  have hsize : (sink.put bytes).data.size = sink.data.size + bytes.length := by
    rw [← Array.length_toList, ← Array.length_toList, toList_put, List.length_append]
  constructor
  · intro offset hoffset
    have := honce offset hoffset
    omega
  · intro offset hoffset
    have := hlimit offset hoffset
    omega

theorem HasRoom.mono {sink : Sink} {m n : Nat} (h : sink.HasRoom n) (hle : m ≤ n) :
    sink.HasRoom m :=
  ⟨fun offset hoffset => by have := h.1 offset hoffset; omega,
    fun offset hoffset => by have := h.2 offset hoffset; omega⟩

/-! ## The three promises -/

/-- A call that is not refused, in a sink that takes something of everything. -/
theorem exists_write_done {sink : Sink} {bytes : Bytes} (hinterrupts : sink.interrupts = 0)
    (hroom : sink.HasRoom 1) (hlargest : sink.largestWrite ≠ some 0) (hne : bytes ≠ []) :
    ∃ n, n + 1 ≤ bytes.length ∧ sink.HasRoom (n + 1) ∧
      Destination.write sink bytes = (.done (n + 1), sink.put (bytes.take (n + 1))) := by
  have hnone := (refusal?_eq_none_iff sink).2 ⟨hinterrupts, hroom⟩
  have htake := List.prefix_iff_eq_take.1 (accepted_isPrefix sink bytes)
  have hroom' := hasRoom_accepted hroom bytes
  have hle := (accepted_isPrefix sink bytes).length_le
  have hpos := List.length_pos_iff.2 (accepted_ne_nil hroom hlargest hne)
  obtain ⟨n, hn⟩ : ∃ n, (sink.accepted bytes).length = n + 1 :=
    ⟨(sink.accepted bytes).length - 1, by omega⟩
  refine ⟨n, by omega, by rwa [← hn], ?_⟩
  change sink.write bytes = _
  rw [write_eq, hnone, ← hn, ← htake]

/-- **Bytes for which there is room can be taken first**, whatever the size of the calls. -/
theorem writeAll_take {sink : Sink} {bytes : Bytes} {count : Nat}
    (hinterrupts : sink.interrupts = 0) (hlargest : sink.largestWrite ≠ some 0)
    (hroom : sink.HasRoom count) (hcount : count ≤ bytes.length) :
    writeAll sink bytes = writeAll (sink.put (bytes.take count)) (bytes.drop count) := by
  induction hlength : bytes.length using Nat.strongRecOn generalizing sink bytes count with
  | ind length ih =>
    -- Once something is taken, the rest is shorter: more may be taken, or less.
    have hmore : ∀ m n, 0 < m → m ≤ n → sink.HasRoom n → n ≤ bytes.length →
        writeAll (sink.put (bytes.take m)) (bytes.drop m) =
          writeAll (sink.put (bytes.take n)) (bytes.drop n) := by
      intro m n hm hmn hroom hn
      have hlength' : (bytes.drop m).length = length - m := by rw [List.length_drop, hlength]
      have htake : (bytes.take m).length = m := List.length_take_of_le (by omega)
      have hroom' : (sink.put (bytes.take m)).HasRoom (n - m) :=
        hasRoom_put (by rwa [htake, Nat.add_sub_cancel' hmn])
      have hinterrupts' : (sink.put (bytes.take m)).interrupts = 0 := hinterrupts
      rw [ih (length - m) (by omega) hinterrupts' hlargest hroom' (by omega) hlength',
        ← put_append, ← List.take_add, List.drop_drop, Nat.add_sub_cancel' hmn]
    cases count with
    | zero => rw [List.take_zero, put_nil, List.drop_zero]
    | succ count =>
      have hne : bytes ≠ [] := List.ne_nil_of_length_pos (by omega)
      obtain ⟨n, hle, hroom', hwrite⟩ :=
        exists_write_done hinterrupts (hroom.mono (by omega)) hlargest hne
      rw [writeAll_step hne hwrite]
      rcases Nat.le_total n count with h | h
      · exact hmore _ _ (by omega) (by omega) hroom hcount
      · exact (hmore _ _ (by omega) (by omega) hroom' hle).symm

/-- **A sink cannot tell where pieces begin and end.**  Its failures are tied to offsets, and
the most it takes in one call only decides how many calls there are. -/
theorem seamless : Seamless (δ := Sink) fun _ => True := by
  intro sink _ first rest
  fun_induction writeAll sink first with
  | case1 sink first hempty => rw [List.isEmpty_iff.1 hempty, List.nil_append]
  | case2 sink first hempty next hwrite =>
    rw [List.isEmpty_iff] at hempty
    obtain ⟨hinterrupts, hroom, hcount, rfl⟩ := write_done hwrite
    have hnil : sink.accepted first = [] := List.eq_nil_of_length_eq_zero hcount.symm
    have hlargest : sink.largestWrite = some 0 :=
      Decidable.byContradiction fun h => accepted_ne_nil hroom h hempty hnil
    have hnil' : sink.accepted (first ++ rest) = [] := by
      rw [accepted, hlargest]
      rfl
    have hwrite' : Destination.write sink (first ++ rest) = (.done 0, sink.put []) := by
      change sink.write (first ++ rest) = _
      rw [write_eq, (refusal?_eq_none_iff sink).2 ⟨hinterrupts, hroom⟩, hnil']
      rfl
    rw [writeAll_step (by simp [hempty]) hwrite', hnil]
  | case3 sink first hempty n next hwrite ih =>
    obtain ⟨hinterrupts, hroom, hcount, rfl⟩ := write_done hwrite
    have hlargest : sink.largestWrite ≠ some 0 := by
      intro h
      rw [accepted, h] at hcount
      cases hcount
    have htake := List.prefix_iff_eq_take.1 (sink.accepted_isPrefix first)
    have hle := (sink.accepted_isPrefix first).length_le
    have hroom' := hasRoom_accepted hroom first
    rw [← hcount] at htake hle hroom'
    rw [writeAll_take hinterrupts hlargest hroom' (by rw [List.length_append]; omega),
      List.take_append_of_le_length hle, List.drop_append_of_le_length hle, ← htake, ih]
  | case4 sink first hempty cause next hwrite ih =>
    rw [writeAll_step (by simp_all) (write_of_refused hwrite (by simp) _), ih]
  | case5 sink first hempty cause next hwrite =>
    rw [writeAll_step (by simp_all) (write_of_refused hwrite (by simp) _)]

theorem data_of_refused {sink next : Sink} {bytes : Bytes} {outcome : Attempt Nat}
    (h : Destination.write sink bytes = (outcome, next))
    (houtcome : ∀ count, outcome ≠ .done count) : next.data = sink.data := by
  have hrefusal := refusal?_of_write h houtcome
  simp only [refusal?] at hrefusal
  repeat' split at hrefusal
  all_goals cases hrefusal
  all_goals rfl

/-- Every sink keeps what it accepts. -/
theorem faithful : Faithful (δ := Sink) (fun _ => True) fun sink => sink.data.toList where
  good_write _ _ := trivial
  good_flush _ := trivial
  held_done {sink next bytes count} _ hwrite := by
    obtain ⟨-, -, rfl, rfl⟩ := write_done hwrite
    rw [toList_put, ← List.prefix_iff_eq_take.1 (sink.accepted_isPrefix bytes)]
  held_interrupted _ hwrite := by rw [data_of_refused hwrite (by simp)]
  held_failed _ hwrite := by rw [data_of_refused hwrite (by simp)]
  held_flush {sink} _ := by
    change (sink.flush).2.data.toList = _
    rw [flush]
    split <;> rfl

/-- The sinks that take everything. -/
structure Unlimited (sink : Sink) : Prop where
  limit : sink.limit = none
  failOnceAt : sink.failOnceAt = none
  largestWrite : sink.largestWrite ≠ some 0
  flushError : sink.flushError = none

theorem unlimited_empty : empty.Unlimited where
  limit := rfl
  failOnceAt := rfl
  largestWrite := nofun
  flushError := rfl

/-- The sinks in which no write fails, if perhaps a flush does. -/
structure Writable (sink : Sink) : Prop where
  limit : sink.limit = none
  failOnceAt : sink.failOnceAt = none
  largestWrite : sink.largestWrite ≠ some 0

theorem Unlimited.writable {sink : Sink} (h : sink.Unlimited) : sink.Writable :=
  ⟨h.limit, h.failOnceAt, h.largestWrite⟩

theorem Writable.hasRoom {sink : Sink} (h : sink.Writable) (count : Nat) :
    sink.HasRoom count := by
  constructor <;> intro offset hoffset
  · rw [h.failOnceAt] at hoffset
    cases hoffset
  · rw [h.limit] at hoffset
    cases hoffset

theorem Writable.write_eq {sink : Sink} (h : sink.Writable) (bytes : Bytes) :
    Destination.write sink bytes =
      if 0 < sink.interrupts then
        (.interrupted .interrupted, { sink with interrupts := sink.interrupts - 1 })
      else (.done (sink.accepted bytes).length, sink.put (sink.accepted bytes)) := by
  change sink.write bytes = _
  by_cases hinterrupts : 0 < sink.interrupts
  · rw [if_pos hinterrupts, write, if_pos hinterrupts]
  · rw [if_neg hinterrupts, Sink.write_eq,
      (refusal?_eq_none_iff sink).2 ⟨by omega, h.hasRoom 1⟩]

/-- No write takes its writability from a sink. -/
theorem Writable.faithful : Faithful Writable fun sink => sink.data.toList where
  good_write {sink next bytes outcome} hd hwrite := by
    rw [hd.write_eq] at hwrite
    split at hwrite <;> cases hwrite <;> exact ⟨hd.limit, hd.failOnceAt, hd.largestWrite⟩
  good_flush {sink} hd := by
    change (sink.flush).2.Writable
    rw [flush]
    split <;> exact ⟨hd.limit, hd.failOnceAt, hd.largestWrite⟩
  held_done _ hwrite := Sink.faithful.held_done trivial hwrite
  held_interrupted _ hwrite := Sink.faithful.held_interrupted trivial hwrite
  held_failed _ hwrite := Sink.faithful.held_failed trivial hwrite
  held_flush _ := Sink.faithful.held_flush trivial

theorem Writable.writeAll_eq_ok {sink : Sink} (h : sink.Writable) (bytes : Bytes) :
    (writeAll sink bytes).1 = .ok () := by
  fun_induction writeAll sink bytes with
  | case1 sink bytes hempty => rfl
  | case2 sink bytes hempty next hwrite =>
    obtain ⟨-, hroom, hcount, -⟩ := write_done hwrite
    have hnil := List.eq_nil_of_length_eq_zero hcount.symm
    exact absurd hnil (accepted_ne_nil hroom h.largestWrite (by simpa using hempty))
  | case3 sink bytes hempty n next hwrite ih => exact ih (Writable.faithful.good_write h hwrite)
  | case4 sink bytes hempty cause next hwrite ih => exact ih (Writable.faithful.good_write h hwrite)
  | case5 sink bytes hempty cause next hwrite =>
    rw [h.write_eq] at hwrite
    split at hwrite <;> cases hwrite

theorem reliable : Reliable Unlimited fun sink => sink.data.toList where
  good_write {sink next bytes outcome} hd hwrite := by
    rw [hd.writable.write_eq] at hwrite
    split at hwrite <;> cases hwrite <;>
      exact ⟨hd.limit, hd.failOnceAt, hd.largestWrite, hd.flushError⟩
  good_flush {sink} hd := by
    change (sink.flush).2.Unlimited
    rw [flush]
    split <;> exact ⟨hd.limit, hd.failOnceAt, hd.largestWrite, hd.flushError⟩
  held_done _ hwrite := faithful.held_done trivial hwrite
  held_interrupted _ hwrite := faithful.held_interrupted trivial hwrite
  held_failed _ hwrite := faithful.held_failed trivial hwrite
  held_flush _ := faithful.held_flush trivial
  accepts {sink next bytes count} hd hne hwrite := by
    obtain ⟨-, hroom, rfl, -⟩ := write_done hwrite
    have := List.length_pos_iff.2 (accepted_ne_nil hroom hd.largestWrite hne)
    omega
  never_fails {sink next bytes cause} hd _ hwrite := by
    rw [hd.writable.write_eq] at hwrite
    split at hwrite <;> cases hwrite
  flushes {sink} hd := by
    change (sink.flush).1 = _
    simp only [flush, hd.flushError]

end Sink

/-! ## Surroundings -/

section Surroundings

variable {δ ε φ : Type} [Destination δ φ] {good : δ → Prop} {held : δ → Bytes}

/-- The destinations that are good within and have the given surroundings. -/
def Surrounded.Keeps (good : δ → Prop) (surroundings : ε) (d : Surrounded δ ε) : Prop :=
  good d.destination ∧ d.surroundings = surroundings

theorem Surrounded.write_cases {d next : Surrounded δ ε} {bytes : Bytes} {outcome : Attempt Nat}
    (h : Destination.write d bytes = (outcome, next)) :
    Destination.write d.destination bytes = (outcome, next.destination) ∧
      next.surroundings = d.surroundings := by
  cases h
  exact ⟨rfl, rfl⟩

/-- Surroundings keep a faithful destination faithful. -/
theorem Faithful.surrounded (F : Faithful good held) (surroundings : ε) :
    Faithful (Surrounded.Keeps good surroundings) fun d => held d.destination where
  good_write hd hwrite :=
    have hinner := Surrounded.write_cases hwrite
    ⟨F.good_write hd.1 hinner.1, hinner.2.trans hd.2⟩
  good_flush hd := ⟨F.good_flush hd.1, hd.2⟩
  held_done hd hwrite := F.held_done hd.1 (Surrounded.write_cases hwrite).1
  held_interrupted hd hwrite := F.held_interrupted hd.1 (Surrounded.write_cases hwrite).1
  held_failed hd hwrite := F.held_failed hd.1 (Surrounded.write_cases hwrite).1
  held_flush hd := F.held_flush hd.1

theorem Reliable.surrounded (R : Reliable good held) (surroundings : ε) :
    Reliable (Surrounded.Keeps good surroundings) fun d => held d.destination where
  toFaithful := R.toFaithful.surrounded surroundings
  accepts hd hne hwrite := R.accepts hd.1 hne (Surrounded.write_cases hwrite).1
  never_fails hd hne hwrite := R.never_fails hd.1 hne (Surrounded.write_cases hwrite).1
  flushes hd := R.flushes hd.1

end Surroundings

end CpioArchive
