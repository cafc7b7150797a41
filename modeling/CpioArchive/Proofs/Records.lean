import CpioArchive.Creation.Archive
import CpioArchive.Proofs.Copying
import CpioArchive.Proofs.Headers

/-!
# Records on a destination

An entry that the encoder begins to write becomes a `Record`: what its name, its metadata and
its source make of it does not depend on the destination or on the buffer.  What a destination
does with it is `writeRecord`.

* `encodeEntry_spec` — the encoder does to a destination what `writeRecord` does;
* `Faithful.writeRecord` — what arrives is a beginning of the record, and all of it unless a
  write fails;
* `Seamless.writeRecord` — on a seamless destination only the bytes of the record count.
-/

namespace CpioArchive

open Newc

/-! ## Records -/

/-- An entry as the encoder finds it: its name, its metadata, and what its source delivers. -/
structure Record where
  name : Bytes
  metadata : Metadata
  delivered : Bytes
  ending : Ending
  deriving DecidableEq

namespace Record

/-- The header of the record. -/
def header (record : Record) : Header := .ofMetadata record.name record.metadata

/-- The content as it stands in the record: always of the declared size. -/
def body (record : Record) : Bytes := fitted record.metadata.size record.delivered

/-- The padding behind the content. -/
def padding (record : Record) : Bytes := nuls (paddingLength record.metadata.size)

/-- All bytes of the record. -/
def bytes (record : Record) : Bytes := record.header.image ++ record.body ++ record.padding

/-- What the encoder returns for the record unless a write fails. -/
def outcome (record : Record) : Except ArchiveError RecordSize :=
  contentOutcome record.header.image.length record.metadata.size
    (paddingLength record.metadata.size)
    (copyOutcome record.metadata.size record.delivered.length record.ending)

/-- The source delivered what was declared, and then ended. -/
def IsIntact (record : Record) : Prop :=
  record.delivered.length = record.metadata.size ∧ record.ending = .ended

/-- **A record ends on a multiple of four** if it starts on one. -/
theorem length_bytes_mod (record : Record) : record.bytes.length % alignment = 0 := by
  have hheader := record.header.length_image_mod
  have hpadding := add_paddingLength_mod record.metadata.size
  rw [bytes, List.length_append, List.length_append, body, length_fitted, padding, length_nuls]
  rw [alignment] at hheader hpadding ⊢
  omega

theorem body_of_isIntact {record : Record} (h : record.IsIntact) :
    record.body = record.delivered := by
  rw [body, ← h.1, fitted_self]

theorem outcome_of_isIntact {record : Record} (h : record.IsIntact) :
    record.outcome = .ok ⟨record.header.image.length, record.metadata.size,
      paddingLength record.metadata.size⟩ := by
  rw [outcome, h.1, h.2, copyOutcome, if_neg (Nat.lt_irrefl _), if_neg (Nat.lt_irrefl _)]
  rfl

/-- A source that does anything else is reported. -/
theorem outcome_of_not_isIntact {record : Record} (h : ¬ record.IsIntact) :
    ∃ e, record.outcome = .error e ∧ e.isContentFailure = true := by
  rw [outcome]
  rcases hcopy : copyOutcome record.metadata.size record.delivered.length record.ending with
    e | ⟨count, _ | extra⟩
  · exact ⟨e, rfl, isContentFailure_of_copyOutcome hcopy⟩
  · exact absurd (of_copyOutcome_eq_ok hcopy) h
  · exact ⟨_, rfl, rfl⟩

/-- The result of a record is a success, or an error of the source that costs its entry only. -/
theorem outcome_cases (record : Record) :
    (∃ size, record.outcome = .ok size) ∨
      ∃ e, record.outcome = .error e ∧ e.isContentFailure = true ∧ e.severity = .skip := by
  by_cases h : record.IsIntact
  · exact .inl ⟨_, outcome_of_isIntact h⟩
  · obtain ⟨e, he, hcontent⟩ := outcome_of_not_isIntact h
    refine .inr ⟨e, he, hcontent, ?_⟩
    cases e <;> first | rfl | cases hcontent

/-- Records that follow each other all start on a multiple of four. -/
theorem length_flatten_bytes_mod (records : List Record) :
    (records.map bytes).flatten.length % alignment = 0 := by
  induction records with
  | nil => rfl
  | cons record records ih =>
    have hrecord := record.length_bytes_mod
    rw [List.map_cons, List.flatten_cons, List.length_append]
    rw [alignment] at ih hrecord ⊢
    omega

end Record

/-! ## Writing records -/

section Destinations

variable {δ ε ς : Type} [Destination δ ε]

/-- Writes the header and the content of a record in the given pieces, and then its padding. -/
def writeRecord (d : δ) (pieces : List Bytes) (record : Record) :
    Except ArchiveError RecordSize × δ :=
  match writePieces d pieces with
  | (.error cause, d) => (.error (.io cause), d)
  | (.ok (), d) =>
    match writeAll d record.padding with
    | (.error cause, d) => (.error (.entryUnfinished cause), d)
    | (.ok (), d) => (record.outcome, d)

/-- A result that does not tell of a failed write. -/
def IsWhole (result : Except ArchiveError RecordSize) : Prop :=
  ∀ cause, result ≠ .error (.io cause) ∧ result ≠ .error (.entryUnfinished cause)

theorem Record.isWhole_outcome (record : Record) : IsWhole record.outcome := by
  intro cause
  rcases record.outcome_cases with ⟨size, hok⟩ | ⟨e, he, hcontent, -⟩
  · rw [hok]
    exact ⟨nofun, nofun⟩
  · rw [he]
    constructor <;> intro heq <;> cases heq <;> cases hcontent

variable {good : δ → Prop} {held : δ → Bytes}

/-- **What arrives of a record is a beginning of it**, and all of it unless the result tells of
a failed write. -/
theorem Faithful.writeRecord (F : Faithful good held) {d : δ} (hd : good d)
    {pieces : List Bytes} {record : Record}
    (hpieces : pieces.flatten = record.header.image ++ record.body) :
    good (writeRecord d pieces record).2 ∧ ∃ accepted, accepted <+: record.bytes ∧
      held (CpioArchive.writeRecord d pieces record).2 = held d ++ accepted ∧
      (IsWhole (CpioArchive.writeRecord d pieces record).1 →
        (CpioArchive.writeRecord d pieces record).1 = record.outcome ∧
          accepted = record.bytes) := by
  obtain ⟨hgood, accepted, hprefix, hheld, hall⟩ := F.writePieces hd pieces
  rw [CpioArchive.writeRecord]
  rcases hwrite : CpioArchive.writePieces d pieces with ⟨cause | _, next⟩ <;>
    rw [hwrite] at hgood hheld hall
  · refine ⟨hgood, accepted, ?_, hheld, fun hwhole => absurd rfl (hwhole cause).1⟩
    rw [hpieces] at hprefix
    exact hprefix.trans (List.prefix_append _ _)
  · obtain rfl := hall rfl
    dsimp only
    obtain ⟨hgood', more, hprefix', hheld', hall'⟩ := F.writeAll hgood record.padding
    rcases hpad : CpioArchive.writeAll next record.padding with ⟨cause | _, after⟩ <;>
      rw [hpad] at hgood' hheld' hall'
    · refine ⟨hgood', pieces.flatten ++ more, ?_, ?_, fun hwhole => absurd rfl (hwhole cause).2⟩
      · rw [hpieces, Record.bytes]
        exact (List.prefix_append_right_inj _).2 hprefix'
      · rw [hheld', hheld, List.append_assoc]
    · obtain rfl := hall' rfl
      rw [hpieces] at hheld
      refine ⟨hgood', record.bytes, List.prefix_rfl, ?_, fun _ => ⟨rfl, rfl⟩⟩
      rw [hheld', hheld, List.append_assoc]
      rfl

/-- A reliable destination takes every record. -/
theorem Reliable.writeRecord (R : Reliable good held) {d : δ} (hd : good d)
    (pieces : List Bytes) (record : Record) :
    (writeRecord d pieces record).1 = record.outcome := by
  obtain ⟨next, hwrite, hgood⟩ := R.writePieces_ok hd pieces
  obtain ⟨after, hpad, -⟩ := R.writeAll_ok hgood record.padding
  rw [CpioArchive.writeRecord, hwrite]
  dsimp only
  rw [hpad]

/-- A seamless destination sees of the pieces only the bytes they make up. -/
theorem Seamless.writeRecord (S : Seamless good) (F : Faithful good held) {d : δ} (hd : good d)
    {pieces : List Bytes} {record : Record}
    (hpieces : pieces.flatten = record.header.image ++ record.body) :
    writeRecord d pieces record =
      CpioArchive.writeRecord d [record.header.image ++ record.body] record := by
  rw [CpioArchive.writeRecord, CpioArchive.writeRecord, S.writePieces F hd, S.writePieces F hd,
    hpieces, List.flatten_singleton]

/-- What is done behind a content, whatever became of it. -/
theorem finishEntry_spec (headerLength declared : Nat) (copied : Except ArchiveError Copied)
    (transfer : Transfer CopyBuffer δ ς) :
    ((finishEntry headerLength declared copied transfer).1,
        (finishEntry headerLength declared copied transfer).2.destination) =
      match writeAll transfer.destination (nuls (paddingLength declared)) with
      | (.error cause, d) => (.error (.entryUnfinished cause), d)
      | (.ok (), d) =>
        (contentOutcome headerLength declared (paddingLength declared) copied, d) := by
  obtain ⟨buffer, d, source⟩ := transfer
  rw [finishEntry]
  rcases writeAll d (nuls (paddingLength declared)) with ⟨_ | _, next⟩ <;> rfl

variable [Source ε ς] {seen : ε → Prop}

/-- A header that cannot be written costs its entry and nothing else. -/
theorem encodeEntry_refused (buffer : CopyBuffer) (d : δ) {name : Bytes} {metadata : Metadata}
    (source : ς) {e : ArchiveError} (h : (Header.ofMetadata name metadata).encode = .error e) :
    encodeEntry buffer d name metadata source = (.error e, ⟨buffer, d, source⟩) := by
  rw [encodeEntry, h]

/-- An entry whose content is copied in pieces is written in these pieces, behind its header. -/
theorem encodeEntry_of_copy {buffer : CopyBuffer} {d : δ} {name : Bytes} {metadata : Metadata}
    {source : ς} {header : Bytes} {pieces : List Bytes} {bytes : Bytes} {ending : Ending}
    (h : (Header.ofMetadata name metadata).encode = .ok header)
    (hcopy : ∀ {next : δ}, writeAll d header = (.ok (), next) →
      ((copyExact next source buffer metadata.size).1,
          (copyExact next source buffer metadata.size).2.destination) =
        afterWrites (writePieces next pieces) (copyOutcome metadata.size bytes.length ending)) :
    ((encodeEntry buffer d name metadata source).1,
        (encodeEntry buffer d name metadata source).2.destination) =
      writeRecord d (header :: pieces) ⟨name, metadata, bytes, ending⟩ := by
  obtain ⟨-, rfl⟩ := (Header.encode_eq_ok_iff _ _).1 h
  rw [encodeEntry, h, writeRecord, writePieces]
  dsimp only
  rcases hwrite : writeAll d (Header.ofMetadata name metadata).image with ⟨cause | _, next⟩
  · rfl
  · specialize hcopy hwrite
    dsimp only
    generalize copyExact next source buffer metadata.size = copy at hcopy ⊢
    obtain ⟨result, transfer⟩ := copy
    generalize hresult : copyOutcome metadata.size bytes.length ending = outcome at hcopy
    rcases hpieces : writePieces next pieces with ⟨cause | _, after⟩ <;>
      rw [hpieces, afterWrites] at hcopy <;> cases hcopy
    · rfl
    · cases result with
      | ok copied =>
        dsimp only
        rw [finishEntry_spec, Record.outcome, hresult]
        rfl
      | error e =>
        dsimp only
        rw [if_pos (isContentFailure_of_copyOutcome hresult), finishEntry_spec, Record.outcome,
          hresult]
        rfl

/-- **The encoder does to a destination what `writeRecord` does**, for the record that name,
metadata and source make up. -/
theorem encodeEntry_spec (F : Faithful good held)
    (henvironment : ∀ {d : δ}, good d → seen (Destination.environment d)) {d : δ} (hd : good d)
    (buffer : CopyBuffer) {name : Bytes} {metadata : Metadata} (source : ς) {header : Bytes}
    (h : (Header.ofMetadata name metadata).encode = .ok header) :
    ∃ bytes ending pieces, Delivers seen source bytes ending ∧
      pieces.flatten = (Record.mk name metadata bytes ending).header.image ++
        (Record.mk name metadata bytes ending).body ∧
      ((encodeEntry buffer d name metadata source).1,
          (encodeEntry buffer d name metadata source).2.destination) =
        writeRecord d pieces ⟨name, metadata, bytes, ending⟩ := by
  obtain ⟨-, rfl⟩ := (Header.encode_eq_ok_iff _ _).1 h
  have hgood := (F.writeAll hd (Header.ofMetadata name metadata).image).1
  rcases hwrite : writeAll d (Header.ofMetadata name metadata).image with ⟨cause | _, next⟩ <;>
    rw [hwrite] at hgood
  · -- The source is never read, but it would deliver something, and that is what is missing.
    obtain ⟨bytes, ending, hdelivers⟩ := exists_delivers (henvironment hd) source
    refine ⟨bytes, ending, [(Header.ofMetadata name metadata).image, fitted metadata.size bytes],
      hdelivers, ?_, encodeEntry_of_copy h fun hnext => ?_⟩
    · rw [List.flatten_cons, List.flatten_singleton]
      rfl
    · rw [hwrite] at hnext
      cases hnext
  · obtain ⟨bytes, ending, pieces, hdelivers, hflatten, hcopy⟩ :=
      copyExact_spec F henvironment hgood source buffer metadata.size
    refine ⟨bytes, ending, (Header.ofMetadata name metadata).image :: pieces, hdelivers, ?_,
      encodeEntry_of_copy h fun hnext => ?_⟩
    · rw [List.flatten_cons, hflatten]
      rfl
    · rw [hwrite] at hnext
      cases hnext
      exact hcopy

end Destinations

end CpioArchive
