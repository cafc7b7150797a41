import CpioArchive.Proofs.Buffering

/-!
# Accounts of bytes

The content of an input is counted in three places.  While a file is read, a run tells how many
bytes it has read; that is all that the file delivers, also what is read only to find out that there
is too much of it.  The report adds up the sizes that were declared.  The archive holds what was
delivered and was declared.

* `totalOf_reads_visitAll` — what is told while the files are read;
* `Accounts.accounted_eq` — what the report adds up;
* `byte_accounts` — all three for a whole run, and when they agree.
-/

namespace CpioArchive

open Newc

/-! ## One input -/

/-- The bytes of its source that a record holds as content. -/
def Record.own (record : Record) : Bytes := record.delivered.take record.metadata.size

/-- The content of a record is what it holds of its source, and NUL bytes for what was missing. -/
theorem Record.body_eq (record : Record) :
    record.body = record.own ++ nuls (record.metadata.size - record.delivered.length) := rfl

theorem Record.length_own (record : Record) :
    record.own.length = min record.metadata.size record.delivered.length := List.length_take

/-- Counts something in the record of the site; it counts nothing if there is none. -/
def Site.count (settings : Settings) (measure : Record → Nat) (site : Site) : Nat :=
  ((site.record? settings).map measure).getD 0

/-- What is read for a site is what its record delivers. -/
theorem Site.readable_outline (settings : Settings) (site : Site) :
    (site.outline settings).readable = site.count settings (·.delivered.length) := by
  rw [Outline.readable, outline, count, record?]
  rcases site.resolved settings with _ | ⟨_, name, status, content⟩
  · rfl
  · dsimp only [Except.map]
    cases (Header.ofMetadata name status.normalize).encode <;> rfl

/-- An entry accounts for the declared size, whatever its source did. -/
theorem Record.accountedBytes (record : Record) {visit : Visit} {reads : List Nat}
    (h : visit.outcome = .attempted reads record.metadata.size record.outcome) :
    visit.accountedBytes = record.metadata.size := by
  rw [Visit.accountedBytes, h]
  by_cases hintact : record.IsIntact
  · rw [outcome_of_isIntact hintact]
  · obtain ⟨e, he, hcontent⟩ := outcome_of_not_isIntact hintact
    rw [he]
    exact if_pos (.inr hcontent)

/-! ## All inputs -/

/-- **What is told while the files are read**, if no write ends the run. -/
theorem totalOf_reads_visitAll {δ ε : Type} [Destination δ ε] {good : Counted δ → Prop}
    {held : Counted δ → Bytes} (F : Faithful good held) {d : Counted δ} (hd : good d)
    {writer after : Writer CopyBuffer δ (Metered Script)} (hwriter : writer.Stands .accepting d)
    {settings : Settings} {sites : List Site} {visits : List Visit}
    (h : visitAll writer (sites.map (·.input settings)) = (visits, none, after)) :
    visits.map (totalOf ·.reads) = sites.map (·.count settings (·.delivered.length)) := by
  induction sites generalizing writer d visits with
  | nil =>
    cases h
    rfl
  | cons site sites ih =>
    rw [List.map_cons] at h
    obtain ⟨rest, hfatal, hvisits, rfl⟩ := of_visitAll_cons h
    have hnext : ∃ next, good next ∧
        (visit writer (site.input settings)).2.Stands .accepting next := by
      rcases visit_spec F always_environment hd hwriter (site.input settings) with
        ⟨-, -, hsame⟩ | ⟨record, reads, pieces, -, hflatten, hattempted, hstands⟩
      · exact ⟨d, hd, by rw [hsame]; exact hwriter⟩
      · rw [Phase.after_eq_ofFailure hattempted, hfatal] at hstands
        exact ⟨_, (F.writeRecord hd hflatten).1, hstands⟩
    obtain ⟨next, hgood, hstands⟩ := hnext
    rw [List.map_cons, List.map_cons, totalOf_reads_visit hwriter settings site hfatal,
      site.readable_outline, ih hgood hstands hvisits]

/-- **What the report adds up**: the declared sizes. -/
theorem Accounts.accounted_eq {ε : Type} {seen : ε → Prop} {settings : Settings}
    {sites : List Site} {visits : List Visit} {records : List Record}
    (h : Accounts seen (sites.map (·.input settings)) visits records) :
    visits.foldr (fun visit total => visit.accountedBytes + total) 0 =
      totalOf (sites.map (·.count settings (·.metadata.size))) := by
  induction sites generalizing visits records with
  | nil =>
    cases h
    rfl
  | cons site sites ih =>
    rw [List.map_cons] at h ⊢
    cases h with
    | blank hinput hvisit hrest =>
      rw [List.foldr_cons, hvisit.accountedBytes, ih hrest, Site.count,
        ← Site.contributes_input hinput]
      rfl
    | recorded hinput hvisit hrest =>
      rw [List.foldr_cons, Record.accountedBytes _ hvisit, ih hrest, Site.count,
        ← Site.contributes_input hinput]
      rfl

/-- Counts of the same things agree in all sites if and only if they agree in all records. -/
theorem Site.map_count_eq_iff {settings : Settings} {sites : List Site}
    {measure measure' : Record → Nat} :
    sites.map (·.count settings measure) = sites.map (·.count settings measure') ↔
      ∀ record ∈ sites.filterMap (·.record? settings), measure record = measure' record := by
  rw [List.map_inj_left]
  constructor
  · intro h record hmem
    obtain ⟨site, hsite, hrecord⟩ := List.mem_filterMap.1 hmem
    have heq := h site hsite
    rwa [count, count, hrecord] at heq
  · intro h site hsite
    rw [count, count]
    cases hrecord : site.record? settings with
    | none => rfl
    | some record => exact h record (List.mem_filterMap.2 ⟨site, hsite, hrecord⟩)

/-- Of counts that are nowhere smaller, the totals agree only if the counts do. -/
theorem totalOf_count_eq_iff {settings : Settings} {sites : List Site}
    {measure measure' : Record → Nat} (hle : ∀ record, measure record ≤ measure' record) :
    totalOf (sites.map (·.count settings measure)) =
        totalOf (sites.map (·.count settings measure')) ↔
      sites.map (·.count settings measure) = sites.map (·.count settings measure') := by
  have hcount : ∀ site : Site, site.count settings measure ≤ site.count settings measure' := by
    intro site
    rw [Site.count, Site.count]
    cases site.record? settings with
    | none => exact Nat.le_refl _
    | some record => exact hle record
  have htotal : ∀ sites : List Site, totalOf (sites.map (·.count settings measure)) ≤
      totalOf (sites.map (·.count settings measure')) := by
    intro sites
    induction sites with
    | nil => exact Nat.le_refl _
    | cons site sites ih => exact Nat.add_le_add (hcount site) ih
  refine ⟨fun h => ?_, congrArg totalOf⟩
  induction sites with
  | nil => rfl
  | cons site sites ih =>
    have hsite := hcount site
    have hsites := htotal sites
    simp only [List.map_cons, totalOf, List.foldr_cons] at h hsites ih ⊢
    rw [ih (by omega), show site.count settings measure = site.count settings measure' by omega]

/-! ## Whole runs -/

section Runs

variable {δ ε : Type} [Destination δ ε] {good : δ → Prop} {held : δ → Bytes}

/-- What a run on a destination that takes everything leaves behind, tells and reports. -/
theorem Reliable.byteCounts (R : Reliable good held) {d : δ} (hd : good d) (bufferSize : Nat)
    (settings : Settings) (sites : List Site) (elapsed : Duration) :
    ∃ report,
      let creation := createOn (Newc.writer (Metered Script) bufferSize d)
        (sites.map (·.input settings)) elapsed
      let records := sites.filterMap (·.record? settings)
      creation.result = .ok report ∧
        held creation.destination =
          held d ++ ((records.map Record.bytes).flatten ++ trailerRecord) ∧
        bytesByInput creation.events = sites.map (·.count settings (·.delivered.length)) ∧
        report.bytesRead = totalOf (sites.map (·.count settings (·.metadata.size))) := by
  obtain ⟨report, hresult, hpadded⟩ :=
    R.createOn_ok hd bufferSize (sites.map (·.input settings)) elapsed
  obtain ⟨records, haccounts, hheld, hreport⟩ :=
    R.toFaithful.createOn always_environment hd rfl hresult hpadded
  obtain ⟨visits, after, hvisits, -, hremembered, -⟩ := of_createOn_eq_ok hresult
  refine ⟨report, hresult, ?_, ?_, ?_⟩
  · rw [hheld, haccounts.records_eq]
  · rw [Creation.bytesByInput_events, hremembered]
    exact totalOf_reads_visitAll (R.toFaithful.counted (held d).length) (Counted.tracks_fresh hd)
      (Writer.stands_writer bufferSize d) hvisits
  · rw [hreport]
    exact haccounts.accounted_eq

/-- **The accounts of bytes, and when they agree.**  On a destination that takes everything a run
tells, for each input, how many bytes its file delivers, if a record is begun for it; the report
counts the bytes that the records declare; and the records hold, as their content, what was
delivered up to the declared size.  So what is told agrees with the archive if and only if no file
delivers more than was declared for it, and the report does if and only if none delivers less. -/
theorem byte_accounts (R : Reliable good held) {d : δ} (hd : good d) (bufferSize : Nat)
    (settings : Settings) (sites : List Site) (elapsed : Duration) :
    ∃ report,
      let creation := createOn (Newc.writer (Metered Script) bufferSize d)
        (sites.map (·.input settings)) elapsed
      let records := sites.filterMap (·.record? settings)
      let archived := sites.map (·.count settings (·.own.length))
      creation.result = .ok report ∧
        held creation.destination =
          held d ++ ((records.map Record.bytes).flatten ++ trailerRecord) ∧
        (∀ record ∈ records, record.body =
          record.own ++ nuls (record.metadata.size - record.delivered.length)) ∧
        bytesByInput creation.events = sites.map (·.count settings (·.delivered.length)) ∧
        report.bytesRead = totalOf (sites.map (·.count settings (·.metadata.size))) ∧
        (bytesByInput creation.events = archived ↔
          ∀ record ∈ records, record.delivered.length ≤ record.metadata.size) ∧
        (report.bytesRead = totalOf archived ↔
          ∀ record ∈ records, record.metadata.size ≤ record.delivered.length) := by
  obtain ⟨report, hresult, hheld, htold, hread⟩ := R.byteCounts hd bufferSize settings sites elapsed
  refine ⟨report, hresult, hheld, fun record _ => record.body_eq, htold, hread, ?_, ?_⟩
  · have hagree : ∀ record : Record, record.delivered.length = record.own.length ↔
        record.delivered.length ≤ record.metadata.size := by
      intro record
      rw [record.length_own]
      omega
    rw [htold, Site.map_count_eq_iff]
    simp only [hagree]
  · have hagree : ∀ record : Record, record.own.length = record.metadata.size ↔
        record.metadata.size ≤ record.delivered.length := by
      intro record
      rw [record.length_own]
      omega
    have hle : ∀ record : Record, record.own.length ≤ record.metadata.size := by
      intro record
      rw [record.length_own]
      exact Nat.min_le_left _ _
    rw [hread, eq_comm, totalOf_count_eq_iff hle, Site.map_count_eq_iff]
    simp only [hagree]

end Runs

/-- A file that grows and one that ends early: three bytes are told of the first and one of it is
archived, three are reported of the second and one of it is archived. -/
theorem byte_accounts_grown_and_short :
    let sites := [Site.ofFile [97] (.regular 1 0o644) ⟨[.deliver [1, 2, 3]]⟩,
      Site.ofFile [98] (.regular 3 0o644) ⟨[.deliver [7]]⟩]
    let creation := createOn (Newc.writer (Metered Script) 512 Sink.empty)
      (sites.map (Site.input {})) .zero
    Sink.empty.Unlimited ∧
      ∃ report, creation.result = .ok report ∧ bytesByInput creation.events = [3, 1] ∧
        report.bytesRead = 4 ∧ sites.map (·.count {} (·.own.length)) = [1, 1] := by
  intro sites creation
  obtain ⟨report, hresult, -, -, htold, hread, -⟩ :=
    byte_accounts Sink.reliable Sink.unlimited_empty 512 {} sites .zero
  exact ⟨Sink.unlimited_empty, report, hresult, htold.trans (by decide), hread.trans (by decide),
    by decide⟩

/-- **The accounts need not agree.**  A file without a size that delivers six bytes, and one that is
declared longer than it is. -/
theorem byte_accounts_disagree :
    let sites := [Site.ofFile [97] (.regular 0 0o444) ⟨[.deliver [76, 105, 110, 117, 120, 10]]⟩,
      Site.ofFile [98] (.regular 4096 0o444) ⟨[.deliver [108, 105, 116, 116, 108, 101, 10]]⟩]
    let creation := createOn (Newc.writer (Metered Script) 512 Sink.empty)
      (sites.map (Site.input {})) .zero
    let archived := sites.map (·.count {} (·.own.length))
    ∃ report, creation.result = .ok report ∧ bytesByInput creation.events ≠ archived ∧
      report.bytesRead ≠ totalOf archived := by
  intro sites creation archived
  obtain ⟨report, hresult, -, htold, hread⟩ :=
    Sink.reliable.byteCounts Sink.unlimited_empty 512 {} sites .zero
  refine ⟨report, hresult, ?_, ?_⟩
  · rw [htold]
    decide
  · rw [hread]
    decide

end CpioArchive
