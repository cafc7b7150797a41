import CpioArchive.Proofs.Runs

/-!
# Records as they arrive

A write that fails cuts a record off.  If that happens in its header or in its content, the writer
is given up.  If it happens in the padding, the writer goes on, and the record stays without the
last bytes of its padding.  An `Arrival` is a record and the number of bytes it lacks.

* `Faithful.writeRecord_arrival` — a record that does not end the archive arrives, and the result
  tells whether it lacks padding;
* `visit_arrival` — so does the record of a visit that does not end its run;
* `Arrival.Reports.length_bytes_add` — the bytes that arrived and those that are missing make up a
  record.
-/

namespace CpioArchive

open Newc

/-- A record on a destination. -/
structure Arrival where
  record : Record
  /-- How many bytes of its padding did not arrive. -/
  missing : Nat

/-- The result tells of padding that could not be written. -/
def IsUnpadded (result : Except ArchiveError RecordSize) : Prop :=
  ∃ cause, result = .error (.entryUnfinished cause)

theorem Record.not_isUnpadded_outcome (record : Record) : ¬ IsUnpadded record.outcome := by
  rintro ⟨cause, houtcome⟩
  exact (record.isWhole_outcome cause).2 houtcome

namespace Arrival

/-- The bytes that arrived: header and content, and what there is of the padding. -/
def bytes (arrival : Arrival) : Bytes :=
  arrival.record.header.image ++ arrival.record.body ++
    nuls (paddingLength arrival.record.metadata.size - arrival.missing)

/-- How many bytes arrivals lack, all together. -/
def totalMissing : List Arrival → Nat
  | [] => 0
  | arrival :: rest => arrival.missing + totalMissing rest

/-- The results that the arrival of a record can have. -/
inductive Reports : Arrival → Except ArchiveError RecordSize → Prop
  /-- Nothing is missing: the result is that of the content. -/
  | whole (record : Record) : Reports ⟨record, 0⟩ record.outcome
  /-- Padding is missing: the result tells of that, and of nothing else. -/
  | unpadded {record : Record} {missing : Nat} (cause : IoError) (hpos : 0 < missing)
      (hle : missing ≤ paddingLength record.metadata.size) :
      Reports ⟨record, missing⟩ (.error (.entryUnfinished cause))

/-- A record that lacks nothing arrived as it is. -/
@[simp] theorem bytes_whole (record : Record) : bytes ⟨record, 0⟩ = record.bytes := rfl

variable {arrival : Arrival} {result : Except ArchiveError RecordSize}

/-- The bytes of a record without those that are missing. -/
theorem Reports.length_bytes_add (h : arrival.Reports result) :
    arrival.bytes.length + arrival.missing = arrival.record.bytes.length := by
  have hle : arrival.missing ≤ paddingLength arrival.record.metadata.size := by
    cases h with
    | whole => exact Nat.zero_le _
    | unpadded _ _ hle => exact hle
  simp only [bytes, Record.bytes, Record.padding, List.length_append, length_nuls]
  omega

/-- Padding is missing exactly if the result says so. -/
theorem Reports.isUnpadded_iff (h : arrival.Reports result) :
    IsUnpadded result ↔ arrival.missing ≠ 0 := by
  cases h with
  | whole record =>
    constructor
    · intro hunpadded
      exact absurd hunpadded record.not_isUnpadded_outcome
    · intro hne
      exact absurd rfl hne
  | unpadded cause hpos _ => exact ⟨fun _ => Nat.ne_of_gt hpos, fun _ => ⟨cause, rfl⟩⟩

/-- A record that arrives lets the writer go on. -/
theorem Reports.after_eq (h : arrival.Reports result) : Phase.after result = .accepting := by
  cases h with
  | whole record => exact record.after_outcome
  | unpadded cause _ _ => rfl

/-- A record that arrives ends no run. -/
theorem Reports.fatal?_eq_none (h : arrival.Reports result) {visit : Visit} {reads : List Nat}
    {declared : Nat} (hvisit : visit.outcome = .attempted reads declared result) :
    visit.fatal? = none := by
  cases h with
  | whole record => exact record.fatal?_eq_none hvisit
  | unpadded cause _ _ =>
    rw [Visit.fatal?, hvisit]
    rfl

end Arrival

section Destinations

variable {δ ε : Type} [Destination δ ε] {good : δ → Prop} {held : δ → Bytes}

/-- **A record that does not end the archive arrives**, and only its padding may be incomplete. -/
theorem Faithful.writeRecord_arrival (F : Faithful good held) {d : δ} (hd : good d)
    {pieces : List Bytes} {record : Record}
    (hpieces : pieces.flatten = record.header.image ++ record.body) :
    (∃ cause, (CpioArchive.writeRecord d pieces record).1 = .error (.io cause)) ∨
      ∃ missing, Arrival.Reports ⟨record, missing⟩ (CpioArchive.writeRecord d pieces record).1 ∧
        held (CpioArchive.writeRecord d pieces record).2 =
          held d ++ (Arrival.mk record missing).bytes := by
  obtain ⟨hgood, accepted, -, hheld, hall⟩ := F.writePieces hd pieces
  rw [CpioArchive.writeRecord]
  rcases hwrite : CpioArchive.writePieces d pieces with ⟨cause | _, next⟩ <;>
    rw [hwrite] at hgood hheld hall
  · exact .inl ⟨cause, rfl⟩
  · right
    obtain rfl := hall rfl
    rw [hpieces] at hheld
    dsimp only
    rcases hpad : CpioArchive.writeAll next record.padding with ⟨cause | _, after⟩
    · obtain ⟨accepted, missing, hpadding, hmissing, hheld'⟩ := F.writeAll_error hgood hpad
      -- What was accepted of NUL bytes are NUL bytes.
      obtain ⟨hlength, haccepted, -⟩ := List.append_eq_replicate_iff.1 hpadding.symm
      have hpos : 0 < missing.length := List.length_pos_iff.2 hmissing
      refine ⟨missing.length, .unpadded cause hpos (by omega), ?_⟩
      have hcount : paddingLength record.metadata.size - missing.length = accepted.length := by
        omega
      rw [hheld', hheld, Arrival.bytes, hcount, List.append_assoc]
      exact congrArg _ (congrArg _ haccepted)
    · obtain ⟨-, more, -, hheld', hall'⟩ := F.writeAll hgood record.padding
      rw [hpad] at hheld' hall'
      obtain rfl := hall' rfl
      refine ⟨0, .whole record, ?_⟩
      rw [hheld', hheld, Arrival.bytes_whole, List.append_assoc]
      rfl

end Destinations

/-! ## Visits -/

/-- **One visit** leaves the writer as it is, or poisons it by a write that failed, or lets a record
arrive. -/
theorem visit_arrival {δ ε ς : Type} [Destination δ ε] [Source ε ς] {seen : ε → Prop}
    {good : Counted δ → Prop} {held : Counted δ → Bytes} (F : Faithful good held)
    (henvironment : ∀ {d : Counted δ}, good d → seen (Destination.environment d))
    {d : Counted δ} (hd : good d) {writer : Writer CopyBuffer δ (Metered ς)}
    (hwriter : writer.Stands .accepting d) (input : Input ε ς) :
    (Contributes seen input none ∧ (visit writer input).1.IsBlank ∧
        (visit writer input).2 = writer) ∨
      ∃ record pieces, Contributes seen input (some record) ∧
        pieces.flatten = record.header.image ++ record.body ∧
        good (writeRecord d pieces record).2 ∧
        ((∃ cause, (writeRecord d pieces record).1 = .error (.io cause) ∧
            (visit writer input).1.fatal? = some (.io cause) ∧
            (visit writer input).2.Stands .poisoned (writeRecord d pieces record).2) ∨
          ∃ missing result reads, Arrival.Reports ⟨record, missing⟩ result ∧
            (visit writer input).1.outcome = .attempted reads record.metadata.size result ∧
            (visit writer input).2.Stands .accepting (writeRecord d pieces record).2 ∧
            held (writeRecord d pieces record).2 =
              held d ++ (Arrival.mk record missing).bytes) := by
  rcases visit_spec F henvironment hd hwriter input with hblank |
    ⟨record, reads, pieces, hinput, hpieces, hattempted, hstands⟩
  · exact .inl hblank
  · refine .inr ⟨record, pieces, hinput, hpieces, (F.writeRecord hd hpieces).1, ?_⟩
    rcases F.writeRecord_arrival hd hpieces with ⟨cause, hio⟩ | ⟨missing, hreports, hheld⟩
    · left
      rw [hio] at hattempted hstands
      refine ⟨cause, hio, ?_, hstands⟩
      rw [Visit.fatal?, hattempted]
      rfl
    · right
      rw [hreports.after_eq] at hstands
      exact ⟨missing, _, reads, hreports, hattempted, hstands, hheld⟩

end CpioArchive
