import CpioArchive.Proofs.Diagnostics
import CpioArchive.Proofs.PrefixCode

/-!
# Reasons on one line

What is said about an input that was not completed is the wording of this library around the text of
a call that failed.  As long as the failures of calls have texts on one line, every reason has one,
whatever the names of the files are.

* `IoError.isLine_system` — failures that are known by their number have such texts;
* `FailsPlainly` — streams whose calls fail with nothing else, and `FailsPlainly.encodeEntry`,
  `FailsPlainly.visitAll`, that entries and runs on them do not either;
* `Lookup.FailsPlainly.ofPath` — nor does a path that is passed over, on a host that answers so.
-/

namespace CpioArchive

/-! ## Texts of errors -/

/-- Characters that are put together on one line. -/
theorem Text.isLine_ofList {chars : List Char}
    (h : chars.all (fun c => decide (32 ≤ c.toNat)) = true) : IsLine (String.ofList chars) := by
  unfold IsLine
  rw [String.toList_ofList]
  exact fun c hc => of_decide_eq_true (List.all_eq_true.1 h c hc)

theorem Text.isLine_hexadecimal (n : Nat) : IsLine (hexadecimal n) := by
  have hdigit : ∀ digit < 16, 32 ≤ (Nat.digitChar digit).toNat := by decide
  refine .append (isLine_ofList rfl) (isLine_ofList ?_)
  rw [List.all_eq_true]
  induction n using Nat.strongRecOn with
  | ind n ih =>
    intro c hc
    rw [Nat.toDigits_eq_if (by decide)] at hc
    split at hc
    next hlt =>
      rw [List.mem_singleton.1 hc]
      exact decide_eq_true (hdigit n hlt)
    next hge =>
      rcases List.mem_append.1 hc with hc | hc
      · exact ih (n / 16) (by omega) c hc
      · rw [List.mem_singleton.1 hc]
        exact decide_eq_true (hdigit _ (Nat.mod_lt n (by decide)))

namespace IoError

theorem isLine_descriptions : ∀ text ∈ descriptions.toList, Text.IsLine text := by
  unfold descriptions
  -- A literal is put together of its characters, which is faster than taking it apart.
  repeat refine List.forall_mem_cons.2 ⟨Text.isLine_ofList rfl, ?_⟩
  rintro text ⟨⟩

theorem isLine_describe (number : Nat) : Text.IsLine (describe number) := by
  have hunknown : Text.IsLine ("Unknown error " ++ toString number) :=
    .append (Text.isLine_ofList rfl) (Text.isLine_decimal number)
  unfold describe
  split
  · exact hunknown
  · exact hunknown
  next text _ htext =>
    have hmem := Array.mem_of_getElem? htext
    rw [← Array.mem_toList_iff] at hmem
    exact isLine_descriptions text hmem

/-- A failure that is known by its number has a text on one line. -/
theorem isLine_system (number : Nat) : Text.IsLine (system number).message := by
  show Text.IsLine (describe number ++ " (os error " ++ toString number ++ ")")
  exact .append (.append (.append (isLine_describe number) (Text.isLine_ofList rfl))
    (Text.isLine_decimal number)) (Text.isLine_ofList rfl)

end IoError

namespace ArchiveError

theorem isLine_lengthMismatch (declared actual : Nat) :
    Text.IsLine (lengthMismatch declared actual).message := by
  unfold message
  exact .append (.append (.append (Text.isLine_ofList rfl) (Text.isLine_decimal declared))
    (Text.isLine_ofList rfl)) (Text.isLine_decimal actual)

theorem isLine_nameTooLong (length limit : Nat) :
    Text.IsLine (nameTooLong length limit).message := by
  unfold message
  exact .append (.append (.append (.append (Text.isLine_ofList rfl) (Text.isLine_decimal length))
    (Text.isLine_ofList rfl)) (Text.isLine_decimal limit)) (Text.isLine_ofList rfl)

theorem isLine_fieldOverflow {field : String} (h : Text.IsLine field) (value : Nat) :
    Text.IsLine (fieldOverflow field value).message := by
  unfold message
  exact .append (.append (.append h (Text.isLine_ofList rfl)) (Text.isLine_hexadecimal value))
    (Text.isLine_ofList rfl)

variable {cause : IoError} (h : Text.IsLine cause.message)
include h

theorem isLine_io : Text.IsLine (io cause).message := .append (Text.isLine_ofList rfl) h

theorem isLine_contentRead : Text.IsLine (contentRead cause).message :=
  .append (Text.isLine_ofList rfl) h

theorem isLine_entryUnfinished : Text.IsLine (entryUnfinished cause).message :=
  .append (Text.isLine_ofList rfl) h

end ArchiveError

/-- A header is refused in words on one line, whatever the name of the entry is. -/
theorem Newc.Header.isLine_of_encode {h : Header} {e : ArchiveError}
    (hencode : h.encode = .error e) : Text.IsLine e.message := by
  cases encode_eq_error_iff.1 hencode with
  | emptyName => exact Text.isLine_ofList rfl
  | nameTooLong => exact ArchiveError.isLine_nameTooLong _ _
  | @fieldOverflow field value hne hle hfirst =>
    obtain ⟨earlier, later, hfields, -⟩ := hfirst
    have hall : ∀ named ∈ h.fields, Text.IsLine named.1 := by
      unfold fields
      repeat refine List.forall_mem_cons.2 ⟨Text.isLine_ofList rfl, ?_⟩
      exact nofun
    rw [hfields] at hall
    exact ArchiveError.isLine_fieldOverflow
      (hall (field, value) (List.mem_append_right _ List.mem_cons_self)) value

/-! ## Calls and entries -/

/-- Calls on these destinations, and reads in their environments, fail with a text on one line; and
no call leads out of them. -/
structure FailsPlainly {δ ε : Type} (ς : Type) [Destination δ ε] [Source ε ς] (good : δ → Prop) :
    Prop where
  call : ∀ {d next : δ}, Leads d next → good d → good next
  write : ∀ {d next : δ} {bytes : Bytes} {cause : IoError}, good d →
    Destination.write d bytes = (.failed cause, next) → Text.IsLine cause.message
  read : ∀ {d : δ} {source next : ς} {limit : Nat} {cause : IoError}, good d →
    Source.read (Destination.environment d) source limit = (.failed cause, next) →
      Text.IsLine cause.message

namespace FailsPlainly

section Entries

variable {δ ε ς : Type} [Destination δ ε] [Source ε ς] {good : δ → Prop}

theorem reach (F : FailsPlainly ς good) {d next : δ} (h : Reaches d next) (hd : good d) :
    good next :=
  h.preserves F.call hd

theorem writeAll (F : FailsPlainly ς good) {d : δ} (hd : good d) {bytes : Bytes} {cause : IoError}
    (h : (CpioArchive.writeAll d bytes).1 = .error cause) : Text.IsLine cause.message := by
  fun_induction CpioArchive.writeAll d bytes with
  | case1 => cases h
  | case2 =>
    cases h
    exact Text.isLine_ofList rfl
  | case3 d bytes _ n next hwrite ih => exact ih (F.call (.write hwrite) hd) h
  | case4 d bytes _ interruption next hwrite ih => exact ih (F.call (.write hwrite) hd) h
  | case5 d bytes _ failure next hwrite =>
    cases h
    exact F.write hd hwrite

theorem fillWithNuls (F : FailsPlainly ς good) {d : δ} (hd : good d) {buffer : CopyBuffer}
    {count : Nat} {cause : IoError}
    (h : (CpioArchive.fillWithNuls d buffer count).1 = .error cause) :
    Text.IsLine cause.message := by
  fun_induction CpioArchive.fillWithNuls d buffer count with
  | case1 => cases h
  | case2 d count _ failure next hwrite =>
    cases h
    exact F.writeAll hd (congrArg Prod.fst hwrite)
  | case3 d count _ next hwrite ih => exact ih (F.reach (reaches_of_writeAll hwrite) hd) h

theorem makeUp (F : FailsPlainly ς good) {d : δ} (hd : good d) {source : ς} {buffer : CopyBuffer}
    {missing : Nat} {reported e : ArchiveError} (hreported : Text.IsLine reported.message)
    (h : (CpioArchive.makeUp d source buffer missing reported).1 = .error e) :
    Text.IsLine e.message := by
  rw [CpioArchive.makeUp] at h
  rcases hfill : CpioArchive.fillWithNuls d buffer missing with ⟨cause | _, next⟩ <;>
    rw [hfill] at h <;> cases h
  · exact ArchiveError.isLine_io (F.fillWithNuls hd (congrArg Prod.fst hfill))
  · exact hreported

theorem drain (F : FailsPlainly ς good) {d : δ} (hd : good d) {source : ς} {buffer : CopyBuffer}
    {extra : Nat} {cause : IoError}
    (h : (CpioArchive.drain (Destination.environment d) source buffer extra).1 = .error cause) :
    Text.IsLine cause.message := by
  fun_induction CpioArchive.drain (Destination.environment d) source buffer extra with
  | case1 => cases h
  | case2 source buffer extra b bytes next _ ih => exact ih h
  | case3 source buffer extra interruption next _ ih => exact ih h
  | case4 => cases h
  | case5 source buffer extra failure next hread =>
    cases h
    exact F.read hd hread

/-- **A copy fails with a text on one line.** -/
theorem copyOnward (F : FailsPlainly ς good) {d : δ} (hd : good d) {source : ς}
    {buffer : CopyBuffer} {length copied : Nat} {e : ArchiveError}
    (h : (CpioArchive.copyOnward d source buffer length copied).1 = .error e) :
    Text.IsLine e.message := by
  fun_induction CpioArchive.copyOnward d source buffer length copied with
  | case1 => exact F.makeUp hd (ArchiveError.isLine_lengthMismatch _ _) h
  | case2 d source buffer copied _ b bytes next _ count loaded after hwrite ih =>
    exact ih (F.reach (reaches_of_writeAll hwrite) hd) h
  | case3 d source buffer copied _ b bytes next _ count loaded cause after hwrite =>
    cases h
    exact ArchiveError.isLine_io (F.writeAll hd (congrArg Prod.fst hwrite))
  | case4 d source buffer copied _ cause next _ ih => exact ih hd h
  | case5 d source buffer copied _ cause next hread =>
    exact F.makeUp hd (ArchiveError.isLine_contentRead (F.read hd hread)) h
  | case6 => cases h
  | case7 d source buffer copied _ cause next buffer' hdrain =>
    cases h
    exact ArchiveError.isLine_contentRead (F.drain hd (congrArg Prod.fst hdrain))

theorem finishEntry (F : FailsPlainly ς good) {headerLength declared : Nat}
    {copied : Except ArchiveError Copied} {transfer : Transfer CopyBuffer δ ς} {e : ArchiveError}
    (hd : good transfer.destination) (hcopied : ∀ e, copied = .error e → Text.IsLine e.message)
    (h : (Newc.finishEntry headerLength declared copied transfer).1 = .error e) :
    Text.IsLine e.message := by
  obtain ⟨buffer, d, source⟩ := transfer
  rw [Newc.finishEntry] at h
  rcases hpad : CpioArchive.writeAll d (nuls (Newc.paddingLength declared)) with
    ⟨cause | _, next⟩ <;> rw [hpad] at h
  · cases h
    exact ArchiveError.isLine_entryUnfinished (F.writeAll hd (congrArg Prod.fst hpad))
  · dsimp only at h
    rcases copied with failure | ⟨count, _ | extra⟩ <;> cases h
    · exact hcopied _ rfl
    · exact ArchiveError.isLine_lengthMismatch _ _

/-- **An entry fails with a text on one line.** -/
theorem encodeEntry (F : FailsPlainly ς good) {buffer : CopyBuffer} {d : δ} (hd : good d)
    {name : Bytes} {metadata : Metadata} {source : ς} {e : ArchiveError}
    (h : (Newc.encodeEntry buffer d name metadata source).1 = .error e) :
    Text.IsLine e.message := by
  rw [Newc.encodeEntry] at h
  cases hheader : (Newc.Header.ofMetadata name metadata).encode with
  | error refused =>
    rw [hheader] at h
    cases h
    exact Newc.Header.isLine_of_encode hheader
  | ok header =>
    rw [hheader] at h
    dsimp only at h
    rcases hwrite : CpioArchive.writeAll d header with ⟨cause | _, next⟩ <;> rw [hwrite] at h
    · cases h
      exact ArchiveError.isLine_io (F.writeAll hd (congrArg Prod.fst hwrite))
    · have hnext := F.reach (reaches_of_writeAll hwrite) hd
      have hreaches := reaches_copyOnward next source buffer metadata.size 0
      rw [← copyExact] at hreaches
      dsimp only at h
      rcases hcopy : copyExact next source buffer metadata.size with
        ⟨failure | copied, transfer⟩ <;> rw [hcopy] at h hreaches <;> dsimp only at h
      · have hfailure := F.copyOnward hnext (congrArg Prod.fst hcopy)
        split at h
        · refine F.finishEntry (F.reach hreaches hnext) ?_ h
          rintro e ⟨⟩
          exact hfailure
        · cases h
          exact hfailure
      · refine F.finishEntry (F.reach hreaches hnext) ?_ h
        rintro e ⟨⟩

/-- Counted writes and metered reads fail as those within do. -/
theorem counted (F : FailsPlainly ς good) :
    FailsPlainly (Metered ς) fun d : Counted δ => good d.inner where
  call hlead hd := by
    cases hlead with
    | write hwrite => exact F.call (.write (Counted.write_cases hwrite).1) hd
    | flush => exact F.call (.flush _) hd
  write hd hwrite := F.write hd (Counted.write_cases hwrite).1
  read hd hread := F.read hd (Metered.isView_inner hread)

end Entries

/-! ## Runs -/

end FailsPlainly

/-- The input was completed, or the reason why not is one line. -/
def Visit.IsPlain (visit : Visit) : Prop :=
  ∀ complaint, CommandLine.Complaint.ofVisit? visit = some complaint →
    Text.IsLine complaint.reason

theorem Visit.isPlain_skipped {path : Bytes} {reason : SkipReason}
    (h : Text.IsLine reason.message) : IsPlain ⟨path, .skipped reason⟩ := by
  rintro complaint ⟨⟩
  exact h

theorem Visit.isPlain_attempted {path : Bytes} {reads : List Nat} {declared : Nat}
    {result : Except ArchiveError RecordSize}
    (h : ∀ e, result = .error e → Text.IsLine e.message) :
    IsPlain ⟨path, .attempted reads declared result⟩ := by
  cases result with
  | ok size => rintro complaint ⟨⟩
  | error e =>
    rintro complaint ⟨⟩
    exact h e rfl

/-- Whatever the environment is in which an input is passed over, the reason is one line. -/
def Input.IsPlain {ε ς : Type} (input : Input ε ς) : Prop :=
  ∀ environment reason, input.resolve environment = .error reason → Text.IsLine reason.message

namespace FailsPlainly

section Runs

variable {δ ε ς : Type} [Destination δ ε] [Source ε ς] {good : Counted δ → Prop}

/-- An append fails with a text on one line, in whatever phase the writer is. -/
theorem append (F : FailsPlainly ς good) {writer : Writer CopyBuffer δ ς}
    (hencoder : writer.encoder = Newc.encoder (Counted δ) ς) (hd : good writer.destination)
    {name : Bytes} {metadata : Metadata} {source : ς} {e : ArchiveError}
    (h : (writer.append name metadata source).1 = .error e) : Text.IsLine e.message := by
  obtain ⟨encoder, buffer, d, entries, phase⟩ := writer
  obtain rfl : encoder = _ := hencoder
  cases phase with
  | accepting => exact F.encodeEntry hd h
  | finished =>
    cases h
    exact Text.isLine_ofList rfl
  | poisoned =>
    cases h
    exact Text.isLine_ofList rfl

theorem visit (F : FailsPlainly (Metered ς) good) {writer : Writer CopyBuffer δ (Metered ς)}
    (hencoder : writer.encoder = Newc.encoder (Counted δ) (Metered ς))
    (hd : good writer.destination) {input : Input ε ς} (hinput : input.IsPlain) :
    (CpioArchive.visit writer input).1.IsPlain := by
  cases hresolve : input.resolve (Destination.environment writer.destination) with
  | error reason =>
    rw [visit_of_error hresolve]
    exact Visit.isPlain_skipped (hinput _ _ hresolve)
  | ok resolved =>
    rw [visit_of_ok hresolve rfl]
    exact Visit.isPlain_attempted fun e he => F.append hencoder hd he

/-- **Every reason of a run is one line.** -/
theorem visitAll (F : FailsPlainly (Metered ς) good) {writer : Writer CopyBuffer δ (Metered ς)}
    (hencoder : writer.encoder = Newc.encoder (Counted δ) (Metered ς))
    (hd : good writer.destination) {inputs : List (Input ε ς)}
    (hinputs : ∀ input ∈ inputs, input.IsPlain) :
    ∀ visit ∈ (CpioArchive.visitAll writer inputs).1, visit.IsPlain := by
  induction inputs generalizing writer with
  | nil => exact nofun
  | cons input inputs ih =>
    obtain ⟨hinput, hrest⟩ := List.forall_mem_cons.1 hinputs
    have hfirst := F.visit hencoder hd hinput
    have hleads : writer.LeadsTo (CpioArchive.visit writer input).2 :=
      leadsTo_visit (hencoder ▸ Newc.onlyWrites_encoder) input
    cases hfatal : (CpioArchive.visit writer input).1.fatal? with
    | some e =>
      rw [visitAll_fatal hfatal]
      exact List.forall_mem_singleton.2 hfirst
    | none =>
      rw [visitAll_cons hfatal rfl]
      exact List.forall_mem_cons.2
        ⟨hfirst, ih (hleads.encoder.trans hencoder) (F.reach hleads.destination hd) hrest⟩

end Runs

end FailsPlainly

/-! ## Paths that are passed over -/

namespace SkipReason

variable {cause : IoError} (h : Text.IsLine cause.message)

include h in
theorem isLine_cannotOpen : Text.IsLine (cannotOpen cause).message :=
  .append (Text.isLine_ofList rfl) h

include h in
theorem isLine_cannotStat : Text.IsLine (cannotStat cause).message :=
  .append (Text.isLine_ofList rfl) h

theorem isLine_notRegular (kind : FileKind) : Text.IsLine (notRegular kind).message := by
  refine .append (.append (Text.isLine_ofList rfl) ?_) (Text.isLine_ofList rfl)
  cases kind <;> exact Text.isLine_ofList rfl

end SkipReason

/-- A host fails with texts on one line, whatever it is asked. -/
structure Lookup.FailsPlainly {ς : Type} (host : Lookup ς) : Prop where
  kindOf : ∀ {path : Bytes} {cause : IoError}, host.kindOf path = .error cause →
    Text.IsLine cause.message
  openFile : ∀ {followLast : Bool} {path : Bytes} {cause : IoError},
    host.openFile followLast path = .error cause → Text.IsLine cause.message
  statusOf : ∀ {file : ς} {cause : IoError}, host.statusOf file = .error cause →
    Text.IsLine cause.message

/-- **A path is passed over for a reason on one line**, whatever the path is. -/
theorem Lookup.FailsPlainly.ofPath {ς : Type} {host : Lookup ς} (H : host.FailsPlainly)
    {settings : Settings} {path : Bytes} {reason : SkipReason}
    (h : Resolved.ofPath host settings path = .error reason) : Text.IsLine reason.message := by
  rw [Resolved.ofPath, Resolved.ofPathAcross] at h
  split at h
  · cases h
    exact Text.isLine_ofList rfl
  split at h
  next hrefuse =>
    cases h
    rw [Resolved.refuseSymlink] at hrefuse
    split at hrefuse
    · cases hrefuse
    split at hrefuse <;> cases hrefuse
    next hkind => exact SkipReason.isLine_cannotOpen (H.kindOf hkind)
    · exact SkipReason.isLine_notRegular _
  split at h
  next hopen =>
    cases h
    exact SkipReason.isLine_cannotOpen (H.openFile hopen)
  rw [Resolved.ofOpened] at h
  split at h
  next hstat =>
    cases h
    exact SkipReason.isLine_cannotStat (H.statusOf hstat)
  split at h <;> cases h
  exact SkipReason.isLine_notRegular _

end CpioArchive
