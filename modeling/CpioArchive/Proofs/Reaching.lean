import CpioArchive.Proofs.Runs
import Mathlib.Logic.Relation

/-!
# What a run does to its destination

A run writes to its destination and flushes it, and can do nothing else with it.  Whatever no write
and no flush can change, no run can change.

* `Leads`, `Reaches` — one call on a destination, and any number of them;
* `Newc.onlyWrites_encoder` — the newc encoder makes such calls and no others;
* `createOn_reaches`, `Newc.createOn_reaches` — and so does every run with an encoder that keeps to
  them.
-/

namespace CpioArchive

section Destinations

variable {δ ε : Type} [Destination δ ε]

/-- One call leads from a destination to the next, whatever comes of it. -/
inductive Leads : δ → δ → Prop
  | write {d next : δ} {bytes : Bytes} {outcome : Attempt Nat}
      (h : Destination.write d bytes = (outcome, next)) : Leads d next
  | flush (d : δ) : Leads d (Destination.flush d).2

/-- Calls lead from a destination to another one. -/
def Reaches : δ → δ → Prop := Relation.ReflTransGen Leads

namespace Reaches

theorem refl (d : δ) : Reaches d d := Relation.ReflTransGen.refl

theorem trans {d middle next : δ} (h : Reaches d middle) (h' : Reaches middle next) :
    Reaches d next :=
  Relation.ReflTransGen.trans h h'

theorem write {d next : δ} {bytes : Bytes} {outcome : Attempt Nat}
    (h : Destination.write d bytes = (outcome, next)) : Reaches d next :=
  .single (.write h)

theorem flush (d : δ) : Reaches d (Destination.flush d).2 := .single (.flush d)

/-- What no call changes, no sequence of calls changes. -/
theorem preserves {good : δ → Prop} {d next : δ} (h : Reaches d next)
    (hcall : ∀ {d next : δ}, Leads d next → good d → good next) (hd : good d) : good next := by
  induction h with
  | refl => exact hd
  | tail _ hlast ih => exact hcall hlast ih

theorem good {good : δ → Prop} {held : δ → Bytes} {d next : δ} (h : Reaches d next)
    (F : Faithful good held) (hd : good d) : good next := by
  refine h.preserves (fun hlead hgood => ?_) hd
  cases hlead with
  | write hwrite => exact F.good_write hgood hwrite
  | flush => exact F.good_flush hgood

/-- Through a count the destination within is called. -/
theorem inner {d next : Counted δ} (h : Reaches d next) : Reaches d.inner next.inner := by
  induction h with
  | refl => exact .refl d.inner
  | tail _ hlast ih =>
    cases hlast with
    | write hwrite => exact ih.trans (.write (Counted.write_cases hwrite).1)
    | flush => exact ih.trans (.flush _)

end Reaches

/-! ## Copies and records -/

theorem reaches_writeAll (d : δ) (bytes : Bytes) : Reaches d (writeAll d bytes).2 := by
  fun_induction writeAll d bytes with
  | case1 d bytes _ => exact .refl d
  | case2 d bytes _ next hwrite => exact .write hwrite
  | case3 d bytes _ n next hwrite ih => exact (Reaches.write hwrite).trans ih
  | case4 d bytes _ cause next hwrite ih => exact (Reaches.write hwrite).trans ih
  | case5 d bytes _ cause next hwrite => exact .write hwrite

theorem reaches_of_writeAll {d next : δ} {bytes : Bytes} {outcome : Except IoError Unit}
    (h : writeAll d bytes = (outcome, next)) : Reaches d next := by
  have hreaches := reaches_writeAll d bytes
  rwa [h] at hreaches

theorem reaches_fillWithNuls (d : δ) (buffer : CopyBuffer) (count : Nat) :
    Reaches d (fillWithNuls d buffer count).2 := by
  fun_induction fillWithNuls d buffer count with
  | case1 d => exact .refl d
  | case2 d count _ cause next hwrite => exact reaches_of_writeAll hwrite
  | case3 d count _ next hwrite ih => exact (reaches_of_writeAll hwrite).trans ih

theorem reaches_makeUp {ς : Type} (d : δ) (source : ς) (buffer : CopyBuffer) (missing : Nat)
    (e : ArchiveError) : Reaches d (makeUp d source buffer missing e).2.destination := by
  have hreaches := reaches_fillWithNuls d buffer missing
  rw [makeUp]
  rcases hfill : fillWithNuls d buffer missing with ⟨_ | _, next⟩ <;> rwa [hfill] at hreaches

variable {ς : Type} [Source ε ς]

theorem reaches_copyOnward (d : δ) (source : ς) (buffer : CopyBuffer) (length copied : Nat) :
    Reaches d (copyOnward d source buffer length copied).2.destination := by
  fun_induction copyOnward d source buffer length copied with
  | case1 d => exact reaches_makeUp d _ _ _ _
  | case2 d source buffer copied _ b chunk next _ count loaded after hwrite ih =>
    exact (reaches_of_writeAll hwrite).trans ih
  | case3 d source buffer copied _ b chunk next _ count loaded cause after hwrite =>
    exact reaches_of_writeAll hwrite
  | case4 d source buffer copied _ cause next _ ih => exact ih
  | case5 d => exact reaches_makeUp d _ _ _ _
  | case6 d => exact .refl d
  | case7 d => exact .refl d

namespace Newc

omit [Source ε ς] in
theorem reaches_finishEntry (headerLength declared : Nat) (copied : Except ArchiveError Copied)
    (transfer : Transfer CopyBuffer δ ς) :
    Reaches transfer.destination
      (finishEntry headerLength declared copied transfer).2.destination := by
  obtain ⟨buffer, d, source⟩ := transfer
  rw [finishEntry]
  rcases hwrite : writeAll d (nuls (paddingLength declared)) with ⟨_ | _, next⟩ <;>
    exact reaches_of_writeAll hwrite

theorem reaches_encodeEntry (buffer : CopyBuffer) (d : δ) (name : Bytes) (metadata : Metadata)
    (source : ς) : Reaches d (encodeEntry buffer d name metadata source).2.destination := by
  rw [encodeEntry]
  cases (Header.ofMetadata name metadata).encode with
  | error e => exact .refl d
  | ok header =>
    dsimp only
    rcases hwrite : writeAll d header with ⟨cause | _, next⟩
    · exact reaches_of_writeAll hwrite
    · dsimp only
      have hcopy := reaches_copyOnward next source buffer metadata.size 0
      rw [← copyExact] at hcopy
      have hnext := (reaches_of_writeAll hwrite).trans hcopy
      generalize copyExact next source buffer metadata.size = copy at hnext
      obtain ⟨e | copied, transfer⟩ := copy
      · dsimp only at hnext ⊢
        split
        · exact hnext.trans (reaches_finishEntry _ _ _ _)
        · exact hnext
      · exact hnext.trans (reaches_finishEntry _ _ _ _)

theorem reaches_encodeTrailer (buffer : CopyBuffer) (d : δ) :
    Reaches d (encodeTrailer buffer d).2.2 := by
  rw [encodeTrailer]
  rcases hwrite : writeAll d trailerRecord with ⟨_ | _, next⟩ <;>
    exact reaches_of_writeAll hwrite

end Newc

/-! ## Writers and runs -/

/-- Whatever the encoder does with a destination, it writes to it or flushes it.  More than that an
encoder cannot do, since it knows of the destination nothing but that it is one; its type alone
would let it return another one. -/
structure Encoder.OnlyWrites {β : Type} (encoder : Encoder β δ ς) : Prop where
  entry : ∀ (state : β) (d : δ) (name : Bytes) (metadata : Metadata) (source : ς),
    Reaches d (encoder.encodeEntry state d name metadata source).2.destination
  trailer : ∀ (state : β) (d : δ), Reaches d (encoder.encodeTrailer state d).2.2

/-- **The newc encoder writes**, and does nothing else to a destination. -/
theorem Newc.onlyWrites_encoder : (Newc.encoder δ ς).OnlyWrites :=
  ⟨reaches_encodeEntry, reaches_encodeTrailer⟩

end Destinations

section Runs

variable {β δ ε ς : Type} [Destination δ ε]

/-- A writer keeps its encoder, and its destination is reached by calls. -/
structure Writer.LeadsTo (before after : Writer β δ ς) : Prop where
  encoder : after.encoder = before.encoder
  destination : Reaches before.destination after.destination

namespace Writer.LeadsTo

theorem refl (writer : Writer β δ ς) : writer.LeadsTo writer := ⟨rfl, .refl _⟩

theorem trans {before middle after : Writer β δ ς} (h : before.LeadsTo middle)
    (h' : middle.LeadsTo after) : before.LeadsTo after :=
  ⟨h'.encoder.trans h.encoder, h.destination.trans h'.destination⟩

end Writer.LeadsTo

theorem Writer.leadsTo_append {writer : Writer β δ ς} (h : writer.encoder.OnlyWrites) (name : Bytes)
    (metadata : Metadata) (source : ς) :
    writer.LeadsTo (writer.append name metadata source).2.1 := by
  obtain ⟨encoder, state, d, entries, phase⟩ := writer
  cases phase with
  | accepting => exact ⟨rfl, h.entry state d name metadata source⟩
  | finished => exact .refl _
  | poisoned => exact .refl _

theorem Writer.leadsTo_finish {writer : Writer β δ ς} (h : writer.encoder.OnlyWrites) :
    writer.LeadsTo writer.finish.2 := by
  obtain ⟨encoder, state, d, entries, phase⟩ := writer
  cases phase with
  | accepting =>
    have htrailer := h.trailer state d
    rw [finish]
    dsimp only at htrailer ⊢
    generalize encoder.encodeTrailer state d = closing at htrailer ⊢
    obtain ⟨_ | _, state', next⟩ := closing
    · exact ⟨rfl, htrailer⟩
    · have hflush := htrailer.trans (.flush next)
      change Reaches d (next.flush).2 at hflush
      dsimp only
      generalize next.flush = flushed at hflush ⊢
      obtain ⟨_ | _, last⟩ := flushed <;> exact ⟨rfl, hflush⟩
  | finished => exact .refl _
  | poisoned => exact ⟨rfl, .flush d⟩

theorem leadsTo_visit {writer : Writer β δ (Metered ς)} (h : writer.encoder.OnlyWrites)
    (input : Input ε ς) : writer.LeadsTo (visit writer input).2 := by
  cases hresolve : input.resolve (Destination.environment writer.destination) with
  | error reason =>
    rw [visit_of_error hresolve]
    exact .refl writer
  | ok resolved =>
    have happend := Writer.leadsTo_append h resolved.name resolved.status.normalize
      (.start resolved.content Metered.usualThreshold)
    rw [visit_of_ok hresolve rfl]
    exact happend

theorem leadsTo_visitAll {writer : Writer β δ (Metered ς)} (h : writer.encoder.OnlyWrites)
    (inputs : List (Input ε ς)) : writer.LeadsTo (visitAll writer inputs).2.2 := by
  induction inputs generalizing writer with
  | nil => exact .refl writer
  | cons input inputs ih =>
    have hvisit := leadsTo_visit h input
    cases hfatal : (visit writer input).1.fatal? with
    | some e =>
      rw [visitAll_fatal hfatal]
      exact hvisit
    | none =>
      rw [visitAll_cons hfatal rfl]
      exact hvisit.trans (ih (hvisit.encoder ▸ h))

/-- **A run writes to its destination and flushes it**, and does nothing else to it. -/
theorem createOn_reaches (writer : Writer β δ (Metered ς)) (h : writer.encoder.OnlyWrites)
    (inputs : List (Input ε ς)) (elapsed : Duration) :
    Reaches writer.destination.inner (createOn writer inputs elapsed).destination := by
  have hvisits := leadsTo_visitAll h inputs
  rw [createOn]
  generalize visitAll writer inputs = run at hvisits ⊢
  obtain ⟨visits, failure, after⟩ := run
  have hfinish := hvisits.trans (Writer.leadsTo_finish (hvisits.encoder ▸ h))
  cases failure with
  | some e => exact hfinish.destination.inner
  | none =>
    dsimp only at hfinish ⊢
    generalize after.finish = closing at hfinish ⊢
    obtain ⟨outcome, finished⟩ := closing
    have hrelease := hfinish.trans (Writer.leadsTo_finish (hfinish.encoder ▸ h))
    cases outcome <;> exact hrelease.destination.inner

/-- A run of the newc writer calls the destination that the writer was opened on. -/
theorem Newc.createOn_reaches [Source ε ς] (bufferSize : Nat) (d : δ) (inputs : List (Input ε ς))
    (elapsed : Duration) :
    Reaches d (createOn (Newc.writer (Metered ς) bufferSize d) inputs elapsed).destination :=
  CpioArchive.createOn_reaches (Newc.writer (Metered ς) bufferSize d) Newc.onlyWrites_encoder inputs
    elapsed

end Runs

end CpioArchive
