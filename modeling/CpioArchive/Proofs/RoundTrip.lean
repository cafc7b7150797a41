import CpioArchive.Proofs.Appending
import CpioArchive.Proofs.Reading
import CpioArchive.Proofs.Sinks

/-!
# Writing an archive and reading it back

Entries that are appended to a writer come back from the finished archive, however the writer is
given up and however their sources are read.  The one exception is an entry that has the name of
the trailer: with it the archive cannot be read at all.

* `Reliable.appendAll` — what a sequence of entries puts on a reliable destination;
* `round_trip` — what a reader of the archive finds.
-/

namespace CpioArchive

open Newc

/-- Something that is to be archived. -/
structure Item where
  name : Bytes
  metadata : Metadata
  source : Script

namespace Item

/-- What the source delivers. -/
def content (item : Item) : Bytes := item.source.delivered.1

/-- The item can be archived, and its source delivers what the metadata declares. -/
structure IsArchivable (item : Item) : Prop where
  name_ne_nil : item.name ≠ []
  length_name_le : item.name.length ≤ longestName
  fits : (Header.ofMetadata item.name item.metadata).Fits
  length_content : item.content.length = item.metadata.size
  ended : item.source.delivered.2 = .ended

/-- What a reader is to find: one link, no devices, and the epoch for an absent or earlier
time. -/
def entry (item : Item) : Entry where
  header :=
    { inode := item.metadata.inode, mode := item.metadata.mode, uid := item.metadata.uid,
      gid := item.metadata.gid, linkCount := 1,
      modificationTime := (item.metadata.modificationTime.getD 0).toNat,
      contentSize := item.content.length, deviceMajor := 0, deviceMinor := 0, specialMajor := 0,
      specialMinor := 0, name := item.name }
  content := item.content

/-- The record that the item becomes. -/
def record (item : Item) : Record :=
  ⟨item.name, item.metadata, item.source.delivered.1, item.source.delivered.2⟩

variable {item : Item}

theorem IsArchivable.isWritable (h : item.IsArchivable) : item.record.header.IsWritable :=
  ⟨h.name_ne_nil, h.length_name_le, h.fits⟩

theorem IsArchivable.isIntact (h : item.IsArchivable) : item.record.IsIntact :=
  ⟨h.length_content, h.ended⟩

theorem IsArchivable.entry_record (h : item.IsArchivable) : item.record.entry = item.entry := by
  rw [Record.entry, Record.body_of_isIntact h.isIntact, entry, h.length_content]
  rfl

end Item

section Destinations

variable {δ ε : Type} [Destination δ ε]

/-- Appends items in order, and returns what became of each. -/
def Writer.appendAll {β : Type} (writer : Writer β δ Script) :
    List Item → List (Except ArchiveError RecordSize) × Writer β δ Script
  | [] => ([], writer)
  | item :: rest =>
    let (result, writer, _) := writer.append item.name item.metadata item.source
    let (results, writer) := writer.appendAll rest
    (result :: results, writer)

/-- **Items on a reliable destination**: each is appended without an error, and its record stands
behind those before it. -/
theorem Reliable.appendAll {good : Counted δ → Prop} {held : Counted δ → Bytes}
    (R : Reliable good held) {d : Counted δ} (hd : good d)
    {writer : Writer CopyBuffer δ Script} (hwriter : writer.Stands .accepting d)
    {items : List Item} (hitems : ∀ item ∈ items, item.IsArchivable) :
    (∀ result ∈ (writer.appendAll items).1, ∃ size, result = .ok size) ∧
      ∃ last, (writer.appendAll items).2.Stands .accepting last ∧ good last ∧
        held last = held d ++ ((items.map Item.record).map Record.bytes).flatten := by
  induction items generalizing writer d with
  | nil => exact ⟨nofun, d, hwriter, hd, by simp⟩
  | cons item items ih =>
    obtain ⟨hitem, hrest⟩ := List.forall_mem_cons.1 hitems
    obtain ⟨bytes, ending, pieces, hdelivers, hflatten, hresult, hstands⟩ :=
      Writer.append_spec R.toFaithful always_environment hd hwriter item.source hitem.isWritable.encode
    have hrecord : Record.mk item.record.name item.record.metadata bytes ending = item.record := by
      rw [Item.record, hdelivers.script]
    rw [hrecord] at hflatten hresult hstands
    obtain ⟨hgood, accepted, -, hheld, hwhole⟩ := R.toFaithful.writeRecord hd hflatten
    rw [R.writeRecord hd] at hresult hwhole
    obtain ⟨-, rfl⟩ := hwhole item.record.isWhole_outcome
    rw [hresult, item.record.after_outcome] at hstands
    obtain ⟨hresults, last, hlast, hgood', hheld'⟩ := ih hgood hstands hrest
    have hok := hresult.trans (Record.outcome_of_isIntact hitem.isIntact)
    refine ⟨List.forall_mem_cons.2 ⟨⟨_, hok⟩, hresults⟩, last, hlast, hgood', ?_⟩
    · rw [hheld', hheld, List.append_assoc, List.map_cons, List.map_cons, List.flatten_cons]

/-- **What is archived is what is read back.**  Items that a writer takes on a destination that
accepts everything make the same archive whether the writer is finished, unwrapped or just given
up.  The archive gives back every item, in order; but if one of them has the name of the trailer,
it cannot be read. -/
theorem round_trip {good : δ → Prop} {held : δ → Bytes} (R : Reliable good held) {d : δ}
    (hd : good d) (bufferSize : Nat) (items : List Item)
    (hitems : ∀ item ∈ items, item.IsArchivable) :
    ∃ archive,
      let appended := (Newc.writer Script bufferSize d).appendAll items
      (∀ result ∈ appended.1, ∃ size, result = .ok size) ∧
        (appended.2.finish.1 = .ok () ∧
          held appended.2.finish.2.release = held d ++ archive) ∧
        (appended.2.intoInner.1 = .ok () ∧ held appended.2.intoInner.2 = held d ++ archive) ∧
        held appended.2.release = held d ++ archive ∧
        ((∀ item ∈ items, item.name ≠ trailerName) →
          readArchive archive = .ok (items.map Item.entry)) ∧
        ((∃ item ∈ items, item.name = trailerName) →
          ∃ e, readArchive archive = .error e) := by
  have R' := R.counted (held d).length
  obtain ⟨hresults, last, hlast, hgood, hheld⟩ :=
    R'.appendAll (Counted.tracks_fresh hd) (Writer.stands_writer bufferSize d) hitems
  obtain ⟨closed, hclose⟩ := R'.closeArchive_ok hgood
  obtain ⟨-, hheld'⟩ := R'.toFaithful.closeArchive hgood hclose
  obtain ⟨finished, hfinish, hfinished⟩ := Writer.finish_of_closeArchive hlast hclose
  have hwritable : ∀ record ∈ items.map Item.record, record.header.IsWritable :=
    List.forall_mem_map.2 fun item hmem => (hitems item hmem).isWritable
  have harchive : held closed.inner =
      held d ++ (((items.map Item.record).map Record.bytes).flatten ++ trailerRecord) := by
    rw [hheld', hheld, List.append_assoc]
    rfl
  refine ⟨((items.map Item.record).map Record.bytes).flatten ++ trailerRecord, hresults,
    ⟨?_, ?_⟩, ⟨?_, ?_⟩, ?_, ?_, ?_⟩
  · rw [hfinish]
  · rw [hfinish, Writer.release_of_finished hfinished, harchive]
  · rw [Writer.intoInner, hfinish]
  · rw [Writer.intoInner, hfinish]
    dsimp only
    rw [hfinished.destination, harchive]
  · rw [Writer.release, hfinish, hfinished.destination, harchive]
  · intro hnames
    rw [readArchive, Cursor.start, Record.readEntries_records hwritable ?_ rfl, List.map_map]
    · refine congrArg Except.ok (List.map_congr_left ?_)
      exact fun item hmem => (hitems item hmem).entry_record
    · exact List.forall_mem_map.2 hnames
  · intro ⟨item, hmem, hname⟩
    exact Record.readEntries_trailerName hwritable
      ⟨item.record, List.mem_map_of_mem hmem, hname⟩ rfl

/-- A file of three bytes, last changed before the epoch. -/
theorem round_trip_single :
    Sink.empty.Unlimited ∧
      ∃ archive,
        ((Newc.writer Script 512 Sink.empty).appendAll
          [⟨[97], { Metadata.regular 3 0o644 with modificationTime := some (-5) },
            ⟨[.deliver [1], .deliver [2, 3]]⟩⟩]).2.release.data.toList = archive ∧
        readArchive archive =
          .ok [⟨⟨0, 0o100644, 0, 0, 1, 0, 3, 0, 0, 0, 0, [97]⟩, [1, 2, 3]⟩] := by
  obtain ⟨archive, -, -, -, hreleased, hread, -⟩ := round_trip Sink.reliable
    Sink.unlimited_empty 512
    [⟨[97], { Metadata.regular 3 0o644 with modificationTime := some (-5) },
      ⟨[.deliver [1], .deliver [2, 3]]⟩⟩]
    (List.forall_mem_singleton.2 ⟨nofun, by decide, by rw [Header.Fits]; decide, rfl, rfl⟩)
  exact ⟨Sink.unlimited_empty, archive, hreleased, hread (by decide)⟩

end Destinations

end CpioArchive
