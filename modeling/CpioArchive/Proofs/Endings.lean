import CpioArchive.Proofs.Damage

/-!
# How runs end

A run over newc records has two endings, whatever its destination does.  It fails with the error of
a write or of a flush; everything else that can go wrong costs one input only.  Or it succeeds, and
then the last thing that was done to the destination is a flush that succeeded.

* `Newc.encodeEntry_fatal` — the only fatal error of an entry is a failed write;
* `Newc.createOn_error` — so that is how a run fails;
* `Faithful.createOn_flushed` — what a run that succeeds leaves behind, at its last flush.
-/

namespace CpioArchive

open Newc

/-! ## Single entries -/

section Entries

variable {δ ε ς : Type} [Destination δ ε]

/-- Filling up fails with the error it was asked to report, or with that of a write. -/
theorem makeUp_error {d : δ} {source : ς} {buffer : CopyBuffer} {missing : Nat}
    {reported e : ArchiveError} (h : (makeUp d source buffer missing reported).1 = .error e) :
    e = reported ∨ ∃ cause, e = .io cause := by
  rw [makeUp] at h
  rcases hfill : fillWithNuls d buffer missing with ⟨cause | _, next⟩ <;> rw [hfill] at h <;> cases h
  · exact .inr ⟨cause, rfl⟩
  · exact .inl rfl

/-- An entry whose content was copied has no fatal error any more. -/
theorem Newc.finishEntry_error {headerLength declared : Nat} {copied : Except ArchiveError Copied}
    {transfer : Transfer CopyBuffer δ ς} {e : ArchiveError}
    (hcopied : ∀ e, copied = .error e → e.isContentFailure = true)
    (h : (finishEntry headerLength declared copied transfer).1 = .error e) :
    e.isFatal = false := by
  obtain ⟨buffer, d, source⟩ := transfer
  rw [finishEntry] at h
  rcases hpad : writeAll d (nuls (paddingLength declared)) with ⟨cause | _, next⟩ <;> rw [hpad] at h
  · cases h
    rfl
  · dsimp only at h
    rcases copied with failure | ⟨count, _ | extra⟩ <;> cases h
    · have hcontent := hcopied _ rfl
      cases e <;> first | rfl | cases hcontent
    · rfl

variable [Source ε ς]

/-- **A copy fails for what its source does, or with a failed write.** -/
theorem copyOnward_error {d : δ} {source : ς} {buffer : CopyBuffer} {length copied : Nat}
    {e : ArchiveError} (h : (copyOnward d source buffer length copied).1 = .error e) :
    e.isContentFailure = true ∨ ∃ cause, e = .io cause := by
  fun_induction copyOnward d source buffer length copied with
  | case1 d source buffer copied _ next _ =>
    rcases makeUp_error h with rfl | hio
    · exact .inl rfl
    · exact .inr hio
  | case2 d source buffer copied _ b bytes next _ _ _ d' _ ih => exact ih h
  | case3 d source buffer copied _ b bytes next _ _ _ cause d' _ =>
    cases h
    exact .inr ⟨cause, rfl⟩
  | case4 d source buffer copied _ cause next _ ih => exact ih h
  | case5 d source buffer copied _ cause next _ =>
    rcases makeUp_error h with rfl | hio
    · exact .inl rfl
    · exact .inr hio
  | case6 d source buffer copied _ extra next buffer' _ => cases h
  | case7 d source buffer copied _ cause next buffer' _ =>
    cases h
    exact .inl rfl

/-- **The only fatal error of an entry is a failed write.** -/
theorem Newc.encodeEntry_fatal {buffer : CopyBuffer} {d : δ} {name : Bytes} {metadata : Metadata}
    {source : ς} {e : ArchiveError}
    (h : (encodeEntry buffer d name metadata source).1 = .error e) (hfatal : e.isFatal = true) :
    ∃ cause, e = .io cause := by
  rw [encodeEntry] at h
  cases hheader : (Header.ofMetadata name metadata).encode with
  | error refused =>
    rw [hheader] at h
    cases h
    rw [ArchiveError.isFatal, (severity_of_encode hheader).1] at hfatal
    cases hfatal
  | ok header =>
    rw [hheader] at h
    dsimp only at h
    rcases hwrite : writeAll d header with ⟨cause | _, next⟩ <;> rw [hwrite] at h
    · cases h
      exact ⟨cause, rfl⟩
    · dsimp only at h
      rcases hcopy : copyExact next source buffer metadata.size with ⟨failure | copied, transfer⟩ <;>
        rw [hcopy] at h <;> dsimp only at h
      · by_cases hcontent : failure.isContentFailure = true
        · rw [if_pos hcontent] at h
          have hmild := finishEntry_error (fun e he => Except.error.inj he ▸ hcontent) h
          rw [hmild] at hfatal
          cases hfatal
        · rw [if_neg hcontent] at h
          cases h
          exact (copyOnward_error (congrArg Prod.fst hcopy)).resolve_left hcontent
      · have hcopied : ∀ e : ArchiveError,
            Except.ok copied = .error e → e.isContentFailure = true := by
          intro e he
          cases he
        have hmild := finishEntry_error hcopied h
        rw [hmild] at hfatal
        cases hfatal

/-! ## Runs that fail -/

variable {writer : Writer CopyBuffer δ (Metered ς)} {d : Counted δ}

/-- **One visit** leaves an accepting writer accepting, or has met a failed write. -/
theorem visit_stands (hwriter : writer.Stands .accepting d) (input : Input ε ς) :
    (∃ next, (visit writer input).2.Stands (.ofFailure (visit writer input).1.fatal?) next) ∧
      ∀ e, (visit writer input).1.fatal? = some e → ∃ cause, e = .io cause := by
  cases hresolve : input.resolve (Destination.environment writer.destination) with
  | error reason =>
    rw [visit_of_error hresolve]
    exact ⟨⟨d, hwriter⟩, nofun⟩
  | ok resolved =>
    obtain ⟨buffer, hentry, hstands⟩ := Writer.append_accepting hwriter resolved.name
      resolved.status.normalize (.start resolved.content Metered.usualThreshold)
    rcases happend : writer.append resolved.name resolved.status.normalize
      (.start resolved.content Metered.usualThreshold) with ⟨result, after, source⟩
    rw [← hentry, happend] at hstands
    rw [happend] at hentry
    rw [visit_of_ok hresolve happend]
    have hafter : ∃ next, after.Stands (.after result) next := ⟨_, hstands⟩
    constructor
    · rwa [← Phase.after_eq_ofFailure rfl]
    · intro e he
      cases result with
      | ok size => cases he
      | error failure =>
        rw [Visit.fatal?] at he
        dsimp only at he
        split at he
        next hfatal =>
          cases he
          exact encodeEntry_fatal hentry.symm hfatal
        · cases he

/-- **All visits** leave an accepting writer accepting, or end with a failed write. -/
theorem visitAll_stands (hwriter : writer.Stands .accepting d) (inputs : List (Input ε ς)) :
    (∃ next, (visitAll writer inputs).2.2.Stands (.ofFailure (visitAll writer inputs).2.1) next) ∧
      ∀ e, (visitAll writer inputs).2.1 = some e → ∃ cause, e = .io cause := by
  induction inputs generalizing writer d with
  | nil => exact ⟨⟨d, hwriter⟩, nofun⟩
  | cons input inputs ih =>
    obtain ⟨⟨next, hstands⟩, herror⟩ := visit_stands hwriter input
    cases hfatal : (visit writer input).1.fatal? with
    | some e =>
      rw [visitAll_fatal hfatal]
      rw [hfatal] at hstands
      exact ⟨⟨next, hstands⟩, fun e he => herror e (hfatal.trans he)⟩
    | none =>
      rw [hfatal] at hstands
      rw [visitAll_cons hfatal rfl]
      exact ih hstands

/-- **A run fails with a failed write or a failed flush**, and with nothing else. -/
theorem Newc.createOn_error {d : δ} {bufferSize : Nat} {inputs : List (Input ε ς)}
    {elapsed : Duration} {e : ArchiveError}
    (h : (createOn (Newc.writer (Metered ς) bufferSize d) inputs elapsed).result = .error e) :
    ∃ cause, e = .io cause := by
  obtain ⟨⟨last, hstands⟩, herror⟩ :=
    visitAll_stands (Writer.stands_writer (ς := Metered ς) bufferSize d) inputs
  rw [createOn] at h
  rcases hvisits : visitAll (Newc.writer (Metered ς) bufferSize d) inputs with
    ⟨visits, failure | failure, after⟩ <;> rw [hvisits] at h hstands herror <;> dsimp only at h
  · have hfinish := (Writer.finish_spec hstands).1
    rcases hlast : after.finish with ⟨failure | _, finished⟩ <;> rw [hlast] at h hfinish <;> cases h
    exact closeArchive_error hfinish.symm
  · cases h
    exact herror _ rfl

end Entries

/-! ## Runs that succeed -/

section Successes

variable {δ ε ς : Type} [Destination δ ε] [Source ε ς] {good : δ → Prop} {held : δ → Bytes}

/-- **What a run that succeeds leaves behind**, whatever became of its inputs and whichever writes
the destination refused on the way: something, and then the trailer.  The report counts every byte
of that, and nothing was written after a flush that succeeded. -/
theorem Faithful.createOn_flushed (F : Faithful good held) {d : δ} (hd : good d) {bufferSize : Nat}
    {inputs : List (Input ε ς)} {elapsed : Duration} {report : Report}
    (hresult : (CpioArchive.createOn (Newc.writer (Metered ς) bufferSize d) inputs elapsed).result =
      .ok report) :
    let creation := CpioArchive.createOn (Newc.writer (Metered ς) bufferSize d) inputs elapsed
    ∃ content last, held creation.destination = held d ++ (content ++ trailerRecord) ∧
      report.bytesWritten = (content ++ trailerRecord).length ∧
      good last ∧ Destination.flush last = (.ok (), creation.destination) := by
  intro creation
  have F' := F.counted (held d).length
  obtain ⟨visits, after, hvisits, hfinish, -⟩ := of_createOn_eq_ok hresult
  obtain ⟨arrivals, last, -, hafter, hgood, hheld⟩ := F'.visitAll_receives always_environment
    (Counted.tracks_fresh hd) (Writer.stands_writer bufferSize d) hvisits
  obtain ⟨hheld', hreport⟩ := F.createOn_closed hvisits hafter hgood hheld hresult
  rw [(Writer.finish_spec hafter).1] at hfinish
  obtain ⟨closed, hclose⟩ : ∃ closed, CpioArchive.closeArchive last = (.ok (), closed) :=
    ⟨_, Prod.ext hfinish rfl⟩
  obtain ⟨written, hwrite, hflush⟩ := of_closeArchive_eq_ok hclose
  have hwritten := (F'.writeAll hgood trailerRecord).1
  rw [hwrite] at hwritten
  have hdestination : creation.destination = closed.inner :=
    congrArg Creation.destination (createOn_of_visitAll hvisits hafter hclose elapsed)
  refine ⟨_, written.inner, hheld', by rw [hreport]; rfl, hwritten.1, ?_⟩
  rw [hdestination]
  have hinner := Counted.inner_flush written
  rw [hflush] at hinner
  exact Prod.ext hinner.1.symm (congrArg Counted.inner hinner.2).symm

end Successes

end CpioArchive
