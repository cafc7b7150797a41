import CpioArchive.Proofs.Records
import CpioArchive.Proofs.Views

/-!
# Sources that do not look

A source that answers the same in every environment does not see what is written meanwhile.  What a
copy from it writes is then settled before the first write, and destinations differ only in how much
of it they take.

* `Source.IsBlind` — the source answers the same in every environment;
* `copyOnward_pieces` — what is left of a copy is written in the same pieces to all destinations;
* `Reliable.copyExact_pieces` — the pieces of a whole copy, read off any destination that takes
  everything;
* `Reliable.encodeEntry_arrived` — what a destination takes of an entry is a beginning of what one
  takes that takes everything.
-/

namespace CpioArchive

open Newc

/-- A source answers every read the same in every environment. -/
def Source.IsBlind (ε ς : Type) [Source ε ς] : Prop :=
  ∀ (environment other : ε) (source : ς) (limit : Nat),
    Source.read environment source limit = Source.read other source limit

theorem Script.isBlind (ε : Type) : Source.IsBlind ε Script := fun _ _ _ _ => rfl

section Sources

variable {ε ς : Type} [Source ε ς]

/-! ## Pieces -/

theorem Source.IsBlind.drain_eq (hblind : Source.IsBlind ε ς) (environment other : ε) (source : ς)
    (buffer : CopyBuffer) (extra : Nat) :
    drain other source buffer extra = drain environment source buffer extra := by
  have hlook : ∀ {source next : ς} {limit : Nat} {outcome : Attempt Bytes},
      Source.read environment source limit = (outcome, next) →
        Source.read other (id source) limit = (outcome, id next) :=
    fun hread => (hblind other environment _ _).trans hread
  exact drain_view hlook source buffer extra

/-- **What is left of a copy is settled before it is written**: the pieces and the result are the
same for all destinations.  The induction goes over the reads that the source can still answer. -/
theorem copyOnward_pieces (hblind : Source.IsBlind ε ς) (environment : ε) (source : ς)
    (buffer : CopyBuffer) (length copied : Nat) :
    ∃ (pieces : List Bytes) (outcome : Except ArchiveError Copied),
      ∀ {δ : Type} [Destination δ ε] (d : δ),
        ((copyOnward d source buffer length copied).1,
            (copyOnward d source buffer length copied).2.destination) =
          afterWrites (writePieces d pieces) outcome := by
  induction hremaining : Source.remaining environment source using Nat.strongRecOn
    generalizing source buffer copied with
  | ind remaining ih =>
    subst hremaining
    by_cases hlt : copied < length
    · rcases hread : Source.read environment source (min (length - copied) buffer.size) with
        ⟨outcome, next⟩
      have hsame : ∀ {δ : Type} [Destination δ ε] (d : δ),
          Source.read (Destination.environment d) source (min (length - copied) buffer.size) =
            (outcome, next) := fun d => (hblind _ environment source _).trans hread
      rcases outcome with (_ | ⟨b, chunk⟩) | cause | cause
      · obtain ⟨pieces, -, hmakeUp⟩ := makeUp_spec buffer (length - copied)
          (.lengthMismatch length copied)
        refine ⟨pieces, .error (.lengthMismatch length copied), fun d => ?_⟩
        rw [copyOnward_step hlt (hsame d)]
        exact hmakeUp d next
      · obtain ⟨pieces, outcome, hcopy⟩ :=
          ih _ (Source.remaining_lt_of_done hread (List.cons_ne_nil b chunk)) next
            (buffer.load (b :: chunk)) (copied + (b :: chunk).length) rfl
        refine ⟨(b :: chunk) :: pieces, outcome, fun d => ?_⟩
        rw [copyOnward_step hlt (hsame d), writePieces]
        dsimp only
        rcases writeAll d (b :: chunk) with ⟨cause | _, after⟩
        · rfl
        · exact hcopy after
      · obtain ⟨pieces, outcome, hcopy⟩ :=
          ih _ (Source.remaining_lt_of_interrupted hread) next buffer copied rfl
        refine ⟨pieces, outcome, fun d => ?_⟩
        rw [copyOnward_step hlt (hsame d)]
        exact hcopy d
      · obtain ⟨pieces, -, hmakeUp⟩ := makeUp_spec buffer (length - copied) (.contentRead cause)
        refine ⟨pieces, .error (.contentRead cause), fun d => ?_⟩
        rw [copyOnward_step hlt (hsame d)]
        exact hmakeUp d next
    · rcases hdrain : drain environment source buffer 0 with ⟨cause | extra, next, buffer'⟩
      · refine ⟨[], .error (.contentRead cause), fun d => ?_⟩
        rw [copyOnward, if_neg hlt, hblind.drain_eq environment, hdrain]
        rfl
      · refine ⟨[], .ok ⟨copied, if 0 < extra then some extra else none⟩, fun d => ?_⟩
        rw [copyOnward, if_neg hlt, hblind.drain_eq environment, hdrain]
        rfl

end Sources

section Destinations

variable {δ φ ε ς : Type} [Destination δ ε] [Destination φ ε] [Source ε ς]
variable {good : φ → Prop} {held : φ → Bytes} {d₀ : φ}

/-- **The pieces of a copy make up what the source delivers**, cut off or filled up: a destination
that takes everything shows it of all others. -/
theorem Reliable.copyExact_pieces (R : Reliable good held) (hd₀ : good d₀)
    (hblind : Source.IsBlind ε ς) (source : ς) (buffer : CopyBuffer) (length : Nat) :
    ∃ bytes ending pieces, pieces.flatten = fitted length bytes ∧
      ∀ {δ : Type} [Destination δ ε] (d : δ),
        ((CpioArchive.copyExact d source buffer length).1,
            (CpioArchive.copyExact d source buffer length).2.destination) =
          afterWrites (writePieces d pieces) (copyOutcome length bytes.length ending) := by
  obtain ⟨pieces, outcome, hpieces⟩ :=
    copyOnward_pieces hblind (Destination.environment d₀) source buffer length 0
  obtain ⟨bytes, ending, shown, -, hflatten, hcopy⟩ :=
    copyExact_spec R.toFaithful always_environment hd₀ source buffer length
  obtain ⟨-, accepted, -, hheld, hall⟩ := R.toFaithful.writePieces hd₀ pieces
  obtain ⟨-, accepted', -, hheld', hall'⟩ := R.toFaithful.writePieces hd₀ shown
  obtain ⟨next, hwrite, -⟩ := R.writePieces_ok hd₀ pieces
  obtain ⟨next', hwrite', -⟩ := R.writePieces_ok hd₀ shown
  rw [CpioArchive.copyExact, hpieces, hwrite, hwrite'] at hcopy
  obtain ⟨rfl, rfl⟩ := Prod.mk.inj hcopy
  rw [hwrite] at hheld hall
  rw [hwrite'] at hheld' hall'
  have hsame : pieces.flatten = shown.flatten := by
    rw [← hall rfl, ← hall' rfl]
    exact List.append_cancel_left (hheld.symm.trans hheld')
  exact ⟨bytes, ending, pieces, hsame.trans hflatten, hpieces⟩

/-- **What a destination takes of an entry is a beginning of what one takes that takes
everything.** -/
theorem Reliable.encodeEntry_arrived (R : Reliable good held) (hd₀ : good d₀)
    {fine : δ → Prop} {kept : δ → Bytes} (F : Faithful fine kept) {d : δ} (hd : fine d)
    (hblind : Source.IsBlind ε ς) (buffer : CopyBuffer) (name : Bytes) (metadata : Metadata)
    (source : ς) :
    ∃ accepted more,
      kept (encodeEntry buffer d name metadata source).2.destination = kept d ++ accepted ∧
        held (encodeEntry buffer d₀ name metadata source).2.destination =
          held d₀ ++ (accepted ++ more) := by
  cases hencode : (Header.ofMetadata name metadata).encode with
  | error e =>
    rw [encodeEntry_refused buffer d source hencode, encodeEntry_refused buffer d₀ source hencode]
    exact ⟨[], [], (List.append_nil _).symm, (List.append_nil _).symm⟩
  | ok header =>
    obtain ⟨-, rfl⟩ := (Header.encode_eq_ok_iff _ _).1 hencode
    obtain ⟨bytes, ending, pieces, hflatten, hcopy⟩ :=
      R.copyExact_pieces hd₀ hblind source buffer metadata.size
    have hentry {ψ : Type} [Destination ψ ε] (e : ψ) :
        ((encodeEntry buffer e name metadata source).1,
            (encodeEntry buffer e name metadata source).2.destination) =
          CpioArchive.writeRecord e ((Header.ofMetadata name metadata).image :: pieces)
            ⟨name, metadata, bytes, ending⟩ := encodeEntry_of_copy hencode fun _ => hcopy _
    have hpieces : ((Header.ofMetadata name metadata).image :: pieces).flatten =
        (Record.mk name metadata bytes ending).header.image ++
          (Record.mk name metadata bytes ending).body := by
      rw [List.flatten_cons, hflatten]
      rfl
    obtain ⟨-, accepted, ⟨more, hmore⟩, hheld, -⟩ := F.writeRecord hd hpieces
    obtain ⟨-, whole, -, hheld₀, hwhole⟩ := R.toFaithful.writeRecord hd₀ hpieces
    rw [R.writeRecord hd₀] at hwhole
    obtain ⟨-, rfl⟩ := hwhole (Record.isWhole_outcome _)
    rw [← hentry d] at hheld
    rw [← hentry d₀] at hheld₀
    exact ⟨accepted, more, hheld, by rw [hmore]; exact hheld₀⟩

end Destinations

end CpioArchive
