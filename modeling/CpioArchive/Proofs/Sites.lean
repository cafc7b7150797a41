import CpioArchive.Proofs.Runs
import CpioArchive.Proofs.Sinks

/-!
# Archives of scripted sources

A `Site` fixes everything that a run can learn about one input: what the host answers about the
path, and how the opened file behaves from the first read to the last.

* `Site.record?` — what the site gives an archive, whatever it is archived with;
* `Accounts.records_eq` — a run that met no failed write wrote these records;
* `archive_of_sites` — on a reliable destination that is the whole story.
-/

namespace CpioArchive

open Newc

/-- The status of a regular file of which only the size and the permissions are set. -/
def Status.regular (size permissions : Nat) : Status :=
  ⟨size, 8 * 4096 + permissions, 0, 0, 0, 0, 0, 1, 0, 0, 0⟩

/-- An input of a run: its path, what a host answers about it before the file is opened and from
then on, and so also how the opened file behaves. -/
structure Site where
  path : Bytes
  before : Lookup Script
  host : Lookup Script

namespace Site

/-- A site whose path leads to a file with this status, which behaves as the script says. -/
def ofFile (path : Bytes) (status : Status) (content : Script) : Site :=
  let host : Lookup Script :=
    ⟨fun _ => .ok status.kind, fun _ _ => .ok content, fun _ => .ok status⟩
  ⟨path, host, host⟩

variable {ε : Type}

/-- What the path leads to. -/
def resolved (settings : Settings) (site : Site) : Except SkipReason (Resolved Script) :=
  Resolved.ofPathAcross site.before site.host settings site.path

/-- The site as an input.  It behaves the same in every environment. -/
def input (settings : Settings) (site : Site) : Input ε Script :=
  ⟨site.path, fun _ => site.resolved settings⟩

/-- The record of the site, if it gets one. -/
def record? (settings : Settings) (site : Site) : Option Record :=
  match site.resolved settings with
  | .error _ => none
  | .ok ⟨_, name, status, content⟩ =>
    match (Header.ofMetadata name status.normalize).encode with
    | .error _ => none
    | .ok _ => some ⟨name, status.normalize, content.delivered.1, content.delivered.2⟩

/-- The bytes that the site gives an archive: its header, what its file delivers before the first
end or failure, cut off or filled up to the size in its status, and padding.  There are none if
the path does not resolve or if the header cannot be written. -/
def recordBytes? (settings : Settings) (site : Site) : Option Bytes :=
  match site.resolved settings with
  | .error _ => none
  | .ok ⟨_, name, status, content⟩ =>
    match (Header.ofMetadata name status.normalize).encode with
    | .error _ => none
    | .ok header =>
      some (header ++ fitted status.size content.delivered.1 ++ nuls (paddingLength status.size))

theorem map_bytes_record? (settings : Settings) (site : Site) :
    (site.record? settings).map Record.bytes = site.recordBytes? settings := by
  rw [record?, recordBytes?]
  rcases site.resolved settings with _ | ⟨_, name, status, content⟩
  · rfl
  · dsimp only
    cases hheader : (Header.ofMetadata name status.normalize).encode with
    | error e => rfl
    | ok header =>
      obtain ⟨-, rfl⟩ := (Header.encode_eq_ok_iff _ _).1 hheader
      rfl

/-- A site contributes its record and nothing else. -/
theorem contributes_input {seen : ε → Prop} {settings : Settings} {site : Site}
    {contribution : Option Record} (h : Contributes seen (site.input settings) contribution) :
    contribution = site.record? settings := by
  rw [record?]
  cases h with
  | passedOver _ hresolve =>
    rw [show site.resolved settings = _ from hresolve]
  | refused _ hresolve hheader =>
    rw [show site.resolved settings = _ from hresolve]
    dsimp only
    rw [hheader]
  | recorded _ hresolve hheader hdelivers =>
    rw [show site.resolved settings = _ from hresolve]
    dsimp only
    rw [hheader, hdelivers.script]

end Site

/-- A run over sites that met no failed write wrote their records, and no others. -/
theorem Accounts.records_eq {ε : Type} {seen : ε → Prop} {settings : Settings}
    {sites : List Site} {visits : List Visit} {records : List Record}
    (h : Accounts seen (sites.map (·.input settings)) visits records) :
    records = sites.filterMap (·.record? settings) := by
  induction sites generalizing visits records with
  | nil =>
    cases h
    rfl
  | cons site sites ih =>
    rw [List.map_cons] at h
    cases h with
    | blank hinput _ hrest =>
      rw [List.filterMap_cons, ← Site.contributes_input hinput]
      exact ih hrest
    | recorded hinput _ hrest =>
      rw [List.filterMap_cons, ← Site.contributes_input hinput]
      exact congrArg _ (ih hrest)

/-- **What a run leaves behind on a destination that takes everything**, whatever its inputs
resolve to and however their files behave: the records of the inputs that resolve and whose
header can be written, in order, and then the trailer.  The archive ends on a multiple of four;
the report states its length, and every record is reported. -/
theorem archive_of_sites {δ ε : Type} [Destination δ ε] {good : δ → Prop} {held : δ → Bytes}
    (R : Reliable good held) {d : δ} (hd : good d) (bufferSize : Nat) (settings : Settings)
    (sites : List Site) (elapsed : Duration) :
    ∃ report,
      let creation := createOn (Newc.writer (Metered Script) bufferSize d)
        (sites.map (·.input settings)) elapsed
      let records := sites.filterMap (·.recordBytes? settings)
      creation.result = .ok report ∧
        held creation.destination = held d ++ (records.flatten ++ trailerRecord) ∧
        (records.flatten ++ trailerRecord).length % 4 = 0 ∧
        report.bytesWritten = (records.flatten ++ trailerRecord).length ∧
        report.filesAdded + report.entriesFailed = records.length := by
  obtain ⟨report, hresult, hpadded⟩ :=
    R.createOn_ok hd bufferSize (sites.map (·.input settings)) elapsed
  obtain ⟨records, haccounts, hheld, hreport⟩ :=
    R.toFaithful.createOn always_environment hd rfl hresult hpadded
  have hrecords : sites.filterMap (·.recordBytes? settings) = records.map Record.bytes := by
    rw [haccounts.records_eq, List.map_filterMap]
    simp only [Site.map_bytes_record?]
  refine ⟨report, hresult, ?_⟩
  rw [hrecords]
  refine ⟨hheld, ?_, by rw [hreport]; rfl, ?_⟩
  · have hrest := Record.length_flatten_bytes_mod records
    have htrailer := length_trailerRecord_mod
    rw [List.length_append]
    rw [alignment] at hrest htrailer
    omega
  · rw [hreport, List.length_map, ← haccounts.length_records]
    rfl

/-- A file that is interrupted once and ends a byte early, and a path that does not end in a name:
one record and the trailer. -/
theorem archive_of_sites_short_file :
    Sink.empty.Unlimited ∧
      ∃ report,
        (createOn (Newc.writer (Metered Script) 512 Sink.empty)
          ([Site.ofFile [97] (.regular 3 0o644)
              ⟨[.deliver [1], .refuse .interrupted, .deliver [2]]⟩,
            Site.ofFile [97, 47] (.regular 3 0o644) ⟨[.deliver [1, 2, 3]]⟩].map (Site.input {}))
          .zero).result = .ok report ∧
        report.bytesWritten = 240 ∧ report.filesAdded + report.entriesFailed = 1 := by
  obtain ⟨report, hresult, -, -, hwritten, hcounts⟩ :=
    archive_of_sites Sink.reliable Sink.unlimited_empty 512 {}
      [Site.ofFile [97] (.regular 3 0o644) ⟨[.deliver [1], .refuse .interrupted, .deliver [2]]⟩,
        Site.ofFile [97, 47] (.regular 3 0o644) ⟨[.deliver [1, 2, 3]]⟩] .zero
  exact ⟨Sink.unlimited_empty, report, hresult, hwritten.trans (by decide +kernel),
    hcounts.trans (by decide)⟩

end CpioArchive
