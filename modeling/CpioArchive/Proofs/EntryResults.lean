import Mathlib
import CpioArchive.Proofs.Arrivals
import CpioArchive.Proofs.BlindSources
import CpioArchive.Proofs.PrefixCode
import CpioArchive.Proofs.Reaching
import CpioArchive.Proofs.Sinks

/-!
# What the result of an entry tells

An entry is written in three phases, and each of them can end it: the header is refused or cannot be
written, the content cannot be written or its source fails, the padding cannot be written.  The
result says which of these happened, and so how far the stream went.

* `Faithful.writeRecord_io` — a record that ends the archive is cut off before its padding;
* `Reliable.encodeEntry_recorded` — what is written of an entry is a beginning of what would be
  written if no write failed;
* `Tells` — how far the stream went, by the result;
* `entry_tells` — every entry went as far as its result tells, on every destination and with every
  source.
-/

namespace CpioArchive

open Newc

/-! ## Entries that are cut off -/

/-- **A record that ends the archive is cut off** in its header or in its content. -/
theorem Faithful.writeRecord_io {δ ε : Type} [Destination δ ε] {good : δ → Prop}
    {held : δ → Bytes} (F : Faithful good held) {d : δ} (hd : good d) {pieces : List Bytes}
    {record : Record} {cause : IoError}
    (hpieces : pieces.flatten = record.header.image ++ record.body)
    (h : (CpioArchive.writeRecord d pieces record).1 = .error (.io cause)) :
    ∃ accepted missing, record.header.image ++ record.body = accepted ++ missing ∧ missing ≠ [] ∧
      held (CpioArchive.writeRecord d pieces record).2 = held d ++ accepted := by
  rw [CpioArchive.writeRecord] at h ⊢
  rcases hwrite : CpioArchive.writePieces d pieces with ⟨cause' | _, next⟩ <;> rw [hwrite] at h
  · rw [← hpieces]
    exact F.writePieces_error hd hwrite
  · dsimp only at h
    rcases hpad : CpioArchive.writeAll next record.padding with ⟨cause' | _, after⟩ <;>
      rw [hpad] at h
    · cases h
    · exact absurd h (record.isWhole_outcome cause).1

/-- A record of an entry shows a beginning of what a destination takes of it that takes
everything. -/
theorem Reliable.encodeEntry_recorded {φ δ ε ς : Type} [Destination φ ε] [Destination δ ε]
    [Source ε ς] {good : φ → Prop} {held : φ → Bytes} {d₀ : φ} (R : Reliable good held)
    (hd₀ : good d₀) (hblind : Source.IsBlind ε ς) (buffer : CopyBuffer) (d : δ) (name : Bytes)
    (metadata : Metadata) (source : ς) :
    ∃ more, held (encodeEntry buffer d₀ name metadata source).2.destination =
      held d₀ ++ ((encodeEntry buffer (Recorded.start d) name metadata
        (Logged.start source)).2.destination.accepted ++ more) := by
  have F : Faithful (fun _ : Recorded δ => True) Recorded.accepted :=
    Recorded.faithful (fun _ => True) (fun _ _ => trivial) fun _ => trivial
  obtain ⟨accepted, more, haccepted, hwhole⟩ :=
    R.encodeEntry_arrived hd₀ F (d := .start d) trivial hblind buffer name metadata source
  have hlog : encodeEntry buffer (Recorded.start d) name metadata source = _ :=
    encodeEntry_view Destination.isView_id Logged.isView_inner buffer (Recorded.start d) name
      metadata (Logged.start source)
  rw [hlog] at haccepted
  obtain rfl : _ = accepted := haccepted
  exact ⟨more, hwhole⟩

/-! ## Results -/

/-- The environments that a destination can come to lie in while it is written to. -/
def Shown {δ ε : Type} [Destination δ ε] (d : δ) (environment : ε) : Prop :=
  ∃ next, Reaches d next ∧ Destination.environment next = environment

namespace Newc

/-- What the result of an entry tells: of the header, of what was written to the destination, and of
what was read from the source.  The record stands for the entry: its name, its metadata, and what
its source delivers. -/
def Tells {δ ς : Type} (record : Record) (destination : Recorded δ) (source : Logged ς) :
    Except ArchiveError RecordSize → Prop
  | .ok size =>
    record.header.encode = .ok record.header.image ∧
      record.delivered.length = record.metadata.size ∧ record.ending = .ended ∧
      destination.accepted = record.header.image ++ record.delivered ++
        nuls (paddingLength record.metadata.size) ∧
      size = ⟨record.header.image.length, record.metadata.size,
        paddingLength record.metadata.size⟩
  -- Nothing is written, and nothing is read.
  | .error .emptyName | .error (.nameTooLong ..) | .error (.fieldOverflow ..) =>
    destination.accepted = [] ∧ destination.writes = 0 ∧ source.requests = []
  -- The content is cut off or filled up to the declared size.
  | .error (.lengthMismatch ..) | .error (.contentRead _) =>
    record.header.encode = .ok record.header.image ∧
      destination.accepted = record.header.image ++ fitted record.metadata.size record.delivered ++
        nuls (paddingLength record.metadata.size)
  | .error (.entryUnfinished _) =>
    record.header.encode = .ok record.header.image ∧
      ∃ count, count < paddingLength record.metadata.size ∧
        destination.accepted =
          record.header.image ++ fitted record.metadata.size record.delivered ++ nuls count
  | .error (.io _) =>
    record.header.encode = .ok record.header.image ∧
      destination.accepted.length < record.header.image.length + record.metadata.size ∧
      destination.accepted <+: record.header.image ++ fitted record.metadata.size record.delivered
  | .error _ => False

section Results

variable {δ ς : Type} {record : Record} {destination : Recorded δ} {source : Logged ς}

/-- A record that arrived is told of. -/
theorem Tells.of_reports {missing : Nat} {result : Except ArchiveError RecordSize}
    (hheader : record.header.encode = .ok record.header.image)
    (haccepted : destination.accepted = (Arrival.mk record missing).bytes)
    (h : Arrival.Reports ⟨record, missing⟩ result) : Tells record destination source result := by
  cases h with
  | whole =>
    by_cases hintact : record.IsIntact
    · rw [record.outcome_of_isIntact hintact]
      refine ⟨hheader, hintact.1, hintact.2, ?_, rfl⟩
      rw [haccepted, Arrival.bytes_whole, Record.bytes, record.body_of_isIntact hintact]
      rfl
    · obtain ⟨e, he, hcontent⟩ := record.outcome_of_not_isIntact hintact
      rw [he]
      cases e <;> first | exact ⟨hheader, haccepted⟩ | cases hcontent
  | unpadded cause hpos hle =>
    exact ⟨hheader, _, Nat.sub_lt (Nat.lt_of_lt_of_le hpos hle) hpos, haccepted⟩

/-- A header that cannot be written is told of. -/
theorem Tells.of_encode {e : ArchiveError} (h : record.header.encode = .error e)
    (haccepted : destination.accepted = []) (hwrites : destination.writes = 0)
    (hrequests : source.requests = []) : Tells record destination source (.error e) := by
  cases Header.encode_eq_error_iff.1 h <;> exact ⟨haccepted, hwrites, hrequests⟩

/-- **What becomes of a record is told of**, on a destination to which nothing was written yet. -/
theorem Tells.of_writeRecord {ε : Type} [Destination δ ε] {good : Recorded δ → Prop}
    (F : Faithful good Recorded.accepted) {d : δ} (hd : good (.start d)) {pieces : List Bytes}
    (hpieces : pieces.flatten = record.header.image ++ record.body)
    (hheader : record.header.encode = .ok record.header.image) (source : Logged ς) :
    Tells record (writeRecord (Recorded.start d) pieces record).2 source
      (writeRecord (Recorded.start d) pieces record).1 := by
  rcases F.writeRecord_arrival hd hpieces with ⟨cause, hio⟩ | ⟨missing, hreports, hheld⟩
  · obtain ⟨accepted, missing, hbytes, hmissing, hheld⟩ := F.writeRecord_io hd hpieces hio
    have hlength := congrArg List.length hbytes
    have hpos := List.length_pos_iff.2 hmissing
    rw [List.length_append, List.length_append, Record.body, length_fitted] at hlength
    have haccepted := hheld.trans (List.nil_append accepted)
    rw [hio]
    refine ⟨hheader, ?_, missing, ?_⟩
    · rw [haccepted]
      omega
    · rw [haccepted]
      exact hbytes.symm
  · exact .of_reports hheader hheld hreports

end Results

variable {δ ε ς : Type} [Destination δ ε] [Source ε ς]

/-- **Every entry goes as far as its result tells**, whatever its name, its metadata, its source and
its destination, and whatever the buffer holds.  A record of the writes and a log of the reads show
how far that is, and change nothing of the entry.  Unless the source looks at what is written, it is
always a beginning of what any destination that takes everything receives of the same entry. -/
theorem entry_tells (buffer : CopyBuffer) (d : δ) (name : Bytes) (metadata : Metadata)
    (source : ς) :
    ∃ result state destination source' bytes ending,
      encodeEntry buffer d name metadata source =
        (result, ⟨state, destination.inner, source'.inner⟩) ∧
      encodeEntry buffer (Recorded.start d) name metadata (Logged.start source) =
        (result, ⟨state, destination, source'⟩) ∧
      Delivers (Shown d) source bytes ending ∧
      Tells ⟨name, metadata, bytes, ending⟩ destination source' result ∧
      (Source.IsBlind ε ς →
        ∀ {φ : Type} [Destination φ ε] {good : φ → Prop} {held : φ → Bytes} {d₀ : φ},
          Reliable good held → good d₀ →
            ∃ more, held (encodeEntry buffer d₀ name metadata source).2.destination =
              held d₀ ++ (destination.accepted ++ more)) := by
  have hview := encodeEntry_view Recorded.isView_inner Logged.isView_inner buffer
    (Recorded.start d) name metadata (Logged.start source)
  have F := Recorded.faithful (Reaches d) (fun hd h => hd.trans (.write h))
    (fun hd => hd.trans (.flush _))
  have henvironment : ∀ {r : Recorded δ}, Reaches d r.inner →
      Shown d (Destination.environment r) := fun h => ⟨_, h, rfl⟩
  have hstart : Reaches d (Recorded.start d).inner := .refl d
  have harrived (hblind : Source.IsBlind ε ς) {φ : Type} [Destination φ ε] {good : φ → Prop}
      {held : φ → Bytes} {d₀ : φ} (R : Reliable good held) (hd₀ : good d₀) :=
    R.encodeEntry_recorded hd₀ hblind buffer d name metadata source
  cases hencode : (Header.ofMetadata name metadata).encode with
  | error e =>
    obtain ⟨bytes, ending, hdelivers⟩ := exists_delivers (henvironment hstart) source
    have hrefused := encodeEntry_refused buffer (Recorded.start d) (Logged.start source) hencode
    rw [hrefused] at hview harrived
    exact ⟨_, _, _, _, bytes, ending, hview, hrefused, hdelivers, .of_encode hencode rfl rfl rfl,
      harrived⟩
  | ok header =>
    obtain ⟨hwritable, rfl⟩ := (Header.encode_eq_ok_iff _ _).1 hencode
    obtain ⟨bytes, ending, pieces, hdelivers, hpieces, hentry⟩ :=
      encodeEntry_spec F henvironment hstart buffer (Logged.start source) hencode
    have htells := Tells.of_writeRecord F hstart hpieces hencode
      (encodeEntry buffer (Recorded.start d) name metadata (Logged.start source)).2.source
    rw [← hentry] at htells
    exact ⟨_, _, _, _, bytes, ending, hview, rfl, hdelivers.view Logged.isView_inner, htells,
      harrived⟩

/-- A disk that is full behind the first byte of the padding: of three NUL bytes some are missing,
and what is there is the beginning of the record on an empty disk. -/
theorem entry_tells_padding :
    let disk : Sink := { limit := some 118, largestWrite := some 7, interrupts := 3 }
    let source : Script := ⟨[.deliver [1, 2], .refuse .interrupted, .deliver [3, 4, 5]]⟩
    let metadata : Metadata := .regular 5 0o644
    ∃ result state destination source',
      encodeEntry (.ofSize 4) (Recorded.start disk) [97] metadata (Logged.start source) =
        (result, ⟨state, destination, source'⟩) ∧
      (∃ count, count < 3 ∧ destination.accepted =
        (Header.ofMetadata [97] metadata).image ++ [1, 2, 3, 4, 5] ++ nuls count) ∧
      ∃ more, (encodeEntry (.ofSize 4) Sink.empty [97] metadata source).2.destination.data.toList =
        destination.accepted ++ more := by
  intro disk source metadata
  obtain ⟨result, state, destination, source', bytes, ending, hentry, hrecorded, hdelivers, htells,
    harrived⟩ := entry_tells (.ofSize 4) disk [97] metadata source
  obtain ⟨rfl, rfl⟩ := Prod.mk.inj (hdelivers.script.symm.trans
    (rfl : source.delivered = ([1, 2, 3, 4, 5], .ended)))
  have hresult : (encodeEntry (.ofSize 4) disk [97] metadata source).1 =
      .error (.entryUnfinished (.described "disk full")) := by
    set_option maxRecDepth 100000 in cbv
  rw [hentry] at hresult
  obtain rfl : result = _ := hresult
  obtain ⟨-, count, hcount, haccepted⟩ := htells
  have hpadding : paddingLength 5 = 3 := by decide
  exact ⟨_, state, destination, source', hrecorded,
    ⟨count, Nat.lt_of_lt_of_eq hcount hpadding, haccepted⟩,
    harrived (Script.isBlind _) Sink.reliable Sink.unlimited_empty⟩

end Newc

end CpioArchive
