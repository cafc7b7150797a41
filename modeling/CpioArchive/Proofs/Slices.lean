import CpioArchive.Proofs.Canonical

/-!
# The parts that the reader cuts out

Which bytes the reader asks for when it reads a record is said here of a reader that keeps a list of
its requests and does the same otherwise.

* `Slice` — a request for a part of some bytes, and what came of it;
* `Traced` — a step of the reader with its requests; `outcome_readEntryTraced` says that keeping
  them changes no result;
* `Slice.IsSound` — what holds of every request: a part that is cut out is in range;
* `readEntryTraced_ensures` — it does hold when a record is read at a place in the archive that is a
  multiple of four;
* `readEntryTraced_obtains` — a record that is read has been cut out part by part.
-/

namespace CpioArchive.Newc

variable {α β : Type}

/-! ## Requests -/

/-- A request for so many bytes of the source from a start on: the part that was cut out, or
nothing where the reader refused. -/
structure Slice where
  source : Bytes
  start : Nat
  length : Nat
  taken : Option Bytes

/-- The start and the length that are asked for. -/
def Slice.place (slice : Slice) : Nat × Nat := (slice.start, slice.length)

/-- What holds of every request made while an archive is read. -/
structure Slice.IsSound (archive : Bytes) (slice : Slice) : Prop where
  /-- Parts are cut out of the archive, and out of parts of it. -/
  source_infix : slice.source <:+: archive
  /-- A part is cut out only where it is there, and it is the part that was asked for. -/
  inRange : ∀ bytes, slice.taken = some bytes →
    slice.start + slice.length ≤ slice.source.length ∧
      bytes = (slice.source.drop slice.start).take slice.length
  /-- A request is refused only where the source ends before the part does. -/
  refused : slice.taken = none → slice.source.length < slice.start + slice.length
  /-- Where a part ends is computed as a sum, which is not much larger than the archive. -/
  end_le : slice.start + slice.length ≤ archive.length + Field.largest

/-- A step of the reader, with the requests made in it. -/
structure Traced (α : Type) where
  slices : List Slice
  outcome : Except ReadError α

namespace Traced

instance : Monad Traced where
  pure a := ⟨[], .ok a⟩
  bind step next :=
    match step.outcome with
    | .error e => ⟨step.slices, .error e⟩
    | .ok a => ⟨step.slices ++ (next a).slices, (next a).outcome⟩

/-- A step without requests. -/
def silent (outcome : Except ReadError α) : Traced α := ⟨[], outcome⟩

/-- Cuts out a part without a look at where the source ends. -/
def cut (source : Bytes) (start length : Nat) : Traced Bytes :=
  let bytes := (source.drop start).take length
  ⟨[⟨source, start, length, some bytes⟩], .ok bytes⟩

@[simp] theorem outcome_pure (a : α) : (pure a : Traced α).outcome = .ok a := rfl

@[simp] theorem outcome_silent (outcome : Except ReadError α) :
    (silent outcome).outcome = outcome := rfl

@[simp] theorem outcome_cut (source : Bytes) (start length : Nat) :
    (cut source start length).outcome = .ok ((source.drop start).take length) := rfl

@[simp] theorem outcome_bind (step : Traced α) (next : α → Traced β) :
    (step >>= next).outcome = step.outcome >>= fun a => (next a).outcome := by
  obtain ⟨slices, outcome⟩ := step
  cases outcome <;> rfl

/-- In the step every request is sound, its value is as described, and it does not end because of
an offset that is no multiple of four. -/
structure Ensures (archive : Bytes) (step : Traced α) (post : α → Prop) : Prop where
  slices : ∀ slice ∈ step.slices, slice.IsSound archive
  value : ∀ a, step.outcome = .ok a → post a
  aligned : ∀ offset, step.outcome ≠ .error (.misaligned offset)

namespace Ensures

variable {archive : Bytes} {step : Traced α} {next : α → Traced β} {post : α → Prop}
  {postNext : β → Prop}

theorem pure {a : α} (h : post a) : (Pure.pure a : Traced α).Ensures archive post where
  slices := nofun
  value := by
    rintro _ ⟨⟩
    exact h
  aligned := nofun

theorem silent {outcome : Except ReadError α} (hvalue : ∀ a, outcome = .ok a → post a)
    (haligned : ∀ offset, outcome ≠ .error (.misaligned offset)) :
    (silent outcome).Ensures archive post where
  slices := nofun
  value := hvalue
  aligned := haligned

/-- **Steps one after the other**: the second may rely on what the first one's value is like. -/
theorem bind (h : step.Ensures archive post)
    (hnext : ∀ a, post a → (next a).Ensures archive postNext) :
    (step >>= next).Ensures archive postNext := by
  obtain ⟨slices, outcome⟩ := step
  cases outcome with
  | error e =>
    refine ⟨h.slices, nofun, fun offset hfault => h.aligned offset ?_⟩
    exact congrArg Except.error (Except.error.inj hfault)
  | ok a =>
    have hsecond := hnext a (h.value a rfl)
    exact ⟨List.forall_mem_append.2 ⟨h.slices, hsecond.slices⟩, hsecond.value, hsecond.aligned⟩

/-- A cut is sound if the part is there. -/
theorem cut {source : Bytes} {start length : Nat} (hsource : source <:+: archive)
    (hrange : start + length ≤ source.length) :
    (cut source start length).Ensures archive fun _ => True where
  slices := by
    simp only [Traced.cut, List.forall_mem_singleton]
    refine ⟨hsource, ?_, nofun, ?_⟩
    · rintro _ ⟨⟩
      exact ⟨hrange, rfl⟩
    · have := hsource.length_le
      dsimp only
      omega
  value := fun _ _ => trivial
  aligned := nofun

end Ensures

/-- The step succeeds with this value, and has cut out the parts at these places, in order. -/
structure Obtains (step : Traced α) (places : List (Nat × Nat)) (a : α) : Prop where
  outcome_eq : step.outcome = .ok a
  places_eq : step.slices.map Slice.place = places
  taken : ∀ slice ∈ step.slices, slice.taken.isSome

namespace Obtains

variable {step : Traced α} {next : α → Traced β} {places placesNext : List (Nat × Nat)} {a : α}
  {b : β}

theorem pure (a : α) : (Pure.pure a : Traced α).Obtains [] a := ⟨rfl, rfl, nofun⟩

theorem silent {outcome : Except ReadError α} (h : outcome = .ok a) :
    (silent outcome).Obtains [] a := ⟨h, rfl, nofun⟩

theorem cut (source : Bytes) (start length : Nat) :
    (cut source start length).Obtains [(start, length)] ((source.drop start).take length) :=
  ⟨rfl, rfl, List.forall_mem_singleton.2 rfl⟩

/-- **Steps one after the other** cut out the parts of both. -/
theorem bind (h : step.Obtains places a) (hnext : (next a).Obtains placesNext b) :
    (step >>= next).Obtains (places ++ placesNext) b := by
  obtain ⟨slices, outcome⟩ := step
  obtain ⟨rfl, rfl, htaken⟩ := h
  obtain ⟨houtcome, rfl, htakenNext⟩ := hnext
  exact ⟨houtcome, List.map_append, List.forall_mem_append.2 ⟨htaken, htakenNext⟩⟩

theorem bind_pure (h : step.Obtains places a) (f : α → β) :
    (step >>= fun a => Pure.pure (f a)).Obtains places (f a) := by
  have hsteps : (step >>= fun a => Pure.pure (f a)).Obtains (places ++ []) (f a) := h.bind (.pure _)
  rwa [List.append_nil] at hsteps

end Obtains

end Traced

/-! ## The steps of reading a record -/

/-- The next `count` bytes and the place behind them. -/
def Cursor.takeTraced (archive : Bytes) (cursor : Cursor) (count : Nat) :
    Traced (Bytes × Cursor) where
  slices := [⟨archive, cursor.offset, count, (cursor.take count).toOption.map (·.1)⟩]
  outcome := cursor.take count

/-- The place behind the padding that makes the offset a multiple of four. -/
def Cursor.skipPaddingTraced (archive : Bytes) (cursor : Cursor) : Traced Cursor := do
  let (_, next) ← cursor.takeTraced archive (paddingLength cursor.offset)
  return next

/-- The numbers in so many fields of the fixed part, from a start on. -/
def readFieldsTraced (fixed : Bytes) : Nat → Nat → Traced (List Nat)
  | 0, _ => pure []
  | count + 1, start => do
    let digits ← .cut fixed start Field.width
    let (value, _) ← .silent (readField digits)
    let values ← readFieldsTraced fixed count (start + Field.width)
    return value :: values

/-- The fixed part of a header: its fields, still without a name, and the name size. -/
def readFixedTraced (offset : Nat) (fixed : Bytes) : Traced (Header × Nat) := do
  let first ← .cut fixed 0 magic.length
  if first ≠ magic then .silent (.error (.badMagic offset))
  else
    let values ← readFieldsTraced fixed 13 magic.length
    .silent (headerOf values)

/-- The record at a cursor and the place behind it. -/
def readEntryTraced (archive : Bytes) (cursor : Cursor) : Traced (Entry × Cursor) :=
  if cursor.offset % alignment ≠ 0 then .silent (.error (.misaligned cursor.offset))
  else do
    let (fixed, afterFixed) ← cursor.takeTraced archive fixedLength
    let (header, nameSize) ← readFixedTraced cursor.offset fixed
    let (nameField, afterName) ← afterFixed.takeTraced archive nameSize
    let name ← .silent (readName nameField)
    let contentStart ← afterName.skipPaddingTraced archive
    let (content, contentEnd) ← contentStart.takeTraced archive header.contentSize
    let recordEnd ← contentEnd.skipPaddingTraced archive
    return (⟨{ header with name }, content⟩, recordEnd)

@[simp] theorem Cursor.outcome_takeTraced (archive : Bytes) (cursor : Cursor) (count : Nat) :
    (cursor.takeTraced archive count).outcome = cursor.take count := rfl

@[simp] theorem Cursor.outcome_skipPaddingTraced (archive : Bytes) (cursor : Cursor) :
    (cursor.skipPaddingTraced archive).outcome = cursor.skipPadding := by
  rw [skipPaddingTraced, Traced.outcome_bind, outcome_takeTraced, skipPadding]
  cases cursor.take (paddingLength cursor.offset) <;> rfl

theorem outcome_readFieldsTraced (fixed : Bytes) (count start : Nat) :
    (readFieldsTraced fixed count start).outcome =
      (readFields count (fixed.drop start)).map (·.1) := by
  induction count generalizing start with
  | zero => rfl
  | succ count ih =>
    -- A field is read from its digits alone as it is from them with more behind.
    simp only [readFieldsTraced, readFields, Traced.outcome_bind, Traced.outcome_cut, ok_bind,
      Traced.outcome_silent, Traced.outcome_pure, readField, List.take_take, Nat.min_self, ih,
      List.drop_drop]
    cases Field.decode? ((fixed.drop start).take Field.width) with
    | none => rfl
    | some value =>
      simp only [ok_bind]
      cases readFields count (fixed.drop (start + Field.width)) <;> rfl

theorem outcome_readFixedTraced (offset : Nat) (fixed : Bytes) :
    (readFixedTraced offset fixed).outcome = readFixed offset fixed := by
  rw [readFixed_eq, readFixedTraced, Traced.outcome_bind, Traced.outcome_cut, ok_bind,
    List.drop_zero]
  split
  · rfl
  · rw [Traced.outcome_bind, outcome_readFieldsTraced]
    cases readFields 13 (fixed.drop magic.length) <;> rfl

/-- **Keeping the list of requests does not change what is read.** -/
@[simp] theorem outcome_readEntryTraced (archive : Bytes) (cursor : Cursor) :
    (readEntryTraced archive cursor).outcome = readEntry cursor := by
  rw [readEntryTraced, readEntry]
  split
  · rfl
  · simp only [Traced.outcome_bind, Cursor.outcome_takeTraced, outcome_readFixedTraced,
      Traced.outcome_silent, Cursor.outcome_skipPaddingTraced, Traced.outcome_pure]
    rfl

/-! ## What the steps ensure -/

/-- The cursor is at a place in the archive. -/
structure Cursor.IsAt (archive : Bytes) (cursor : Cursor) : Prop where
  offset_le : cursor.offset ≤ archive.length
  rest_eq : cursor.rest = archive.drop cursor.offset

section

variable {archive : Bytes} {cursor : Cursor}

theorem Cursor.isAt_start (archive : Bytes) : (Cursor.start archive).IsAt archive :=
  ⟨Nat.zero_le _, List.drop_zero.symm⟩

theorem Cursor.IsAt.length_rest (hat : cursor.IsAt archive) :
    cursor.offset + cursor.rest.length = archive.length := by
  rw [hat.rest_eq, List.length_drop, Nat.add_sub_cancel' hat.offset_le]

/-- In an archive, taking bytes compares the offset behind them with the length of the archive. -/
theorem Cursor.IsAt.take_eq (hat : cursor.IsAt archive) (count : Nat) :
    cursor.take count =
      if cursor.offset + count ≤ archive.length then
        .ok ((archive.drop cursor.offset).take count,
          ⟨cursor.offset + count, archive.drop (cursor.offset + count)⟩)
      else .error (.truncated cursor.offset) := by
  have hlength : (cursor.rest.take count).length = count ↔
      cursor.offset + count ≤ archive.length := by
    have := hat.length_rest
    rw [List.length_take]
    omega
  rw [hat.rest_eq] at hlength
  simp only [take, hat.rest_eq, hlength, List.drop_drop]

/-- What a cursor in the archive takes is there, and what it does not take is not. -/
theorem Cursor.IsAt.isSound_take (hat : cursor.IsAt archive) {count : Nat}
    (hcount : count ≤ Field.largest) :
    Slice.IsSound archive
      ⟨archive, cursor.offset, count, (cursor.take count).toOption.map (·.1)⟩ where
  source_infix := List.infix_rfl
  inRange := by
    intro bytes htaken
    rw [hat.take_eq] at htaken
    split at htaken <;> cases htaken
    exact ⟨‹_›, rfl⟩
  refused := by
    intro hrefused
    rw [hat.take_eq] at hrefused
    split at hrefused
    · cases hrefused
    · exact Nat.not_le.1 ‹_›
  end_le := Nat.add_le_add hat.offset_le hcount

theorem Cursor.takeTraced_ensures (hat : cursor.IsAt archive) {count : Nat}
    (hcount : count ≤ Field.largest) :
    (cursor.takeTraced archive count).Ensures archive fun result =>
      result.1.length = count ∧ result.1 <:+: archive ∧ result.2.IsAt archive where
  slices := List.forall_mem_singleton.2 (hat.isSound_take hcount)
  value := by
    intro result hvalue
    rw [outcome_takeTraced, hat.take_eq] at hvalue
    split at hvalue <;> cases hvalue
    refine ⟨?_, (List.take_prefix _ _).isInfix.trans (List.drop_suffix _ _).isInfix, ‹_›, rfl⟩
    rw [List.length_take, List.length_drop]
    omega
  aligned := by
    intro offset hfault
    rw [outcome_takeTraced, hat.take_eq] at hfault
    split at hfault <;> cases hfault

theorem paddingLength_le_largest (length : Nat) : paddingLength length ≤ Field.largest := by
  rw [paddingLength, alignment, Field.largest]
  split <;> omega

theorem Cursor.skipPaddingTraced_ensures (hat : cursor.IsAt archive) :
    (cursor.skipPaddingTraced archive).Ensures archive fun next => next.IsAt archive :=
  (takeTraced_ensures hat (paddingLength_le_largest _)).bind fun _ htaken => .pure htaken.2.2

/-- A field has a value or is a bad field. -/
theorem readField_ne_misaligned (bytes : Bytes) (offset : Nat) :
    readField bytes ≠ .error (.misaligned offset) := by
  intro h
  rw [readField] at h
  split at h <;> cases h

/-- **The fields are in range** where the fixed part has room for them. -/
theorem readFieldsTraced_ensures {fixed : Bytes} (hfixed : fixed <:+: archive) {count start : Nat}
    (hrange : start + count * Field.width ≤ fixed.length) :
    (readFieldsTraced fixed count start).Ensures archive fun values => values.length = count := by
  induction count generalizing start with
  | zero => exact .pure rfl
  | succ count ih =>
    rw [Nat.add_mul, Nat.one_mul] at hrange
    refine (Traced.Ensures.cut hfixed (by omega)).bind fun digits _ => ?_
    refine (Traced.Ensures.silent (fun _ _ => trivial) (readField_ne_misaligned digits)).bind
      fun field (_ : True) => ?_
    exact (ih (by omega)).bind fun values hvalues => .pure (congrArg Nat.succ hvalues)

theorem headerOf_ne_misaligned (values : List Nat) (offset : Nat) :
    headerOf values ≠ .error (.misaligned offset) := by
  intro h
  unfold headerOf at h
  repeat' split at h
  all_goals cases h

/-- The sizes in a header are numbers that fit into a field. -/
theorem sizes_le_of_readFixed {offset nameSize : Nat} {fixed : Bytes} {header : Header}
    (hlength : fixed.length = fixedLength) (h : readFixed offset fixed = .ok (header, nameSize)) :
    nameSize ≤ Field.largest ∧ header.contentSize ≤ Field.largest := by
  obtain ⟨-, -, digits, -, hdenotes⟩ := (readFixed_eq_ok_iff hlength).1 h
  have hfits := (Field.forall₂_denotes_iff.1 hdenotes).2
  refine ⟨hfits nameSize ?_, hfits header.contentSize ?_⟩ <;> simp [Header.fields]

theorem readFixedTraced_ensures {fixed : Bytes} (hlength : fixed.length = fixedLength)
    (hfixed : fixed <:+: archive) (offset : Nat) :
    (readFixedTraced offset fixed).Ensures archive fun result =>
      result.2 ≤ Field.largest ∧ result.1.contentSize ≤ Field.largest := by
  have hsteps : (readFixedTraced offset fixed).Ensures archive fun _ => True := by
    refine (Traced.Ensures.cut hfixed ?_).bind fun first _ => ?_
    · rw [hlength]
      decide
    · split
      · exact .silent nofun nofun
      · refine (readFieldsTraced_ensures hfixed ?_).bind fun values _ => ?_
        · rw [hlength]
          decide
        · exact .silent (fun _ _ => trivial) (headerOf_ne_misaligned values)
  refine ⟨hsteps.slices, ?_, hsteps.aligned⟩
  rintro ⟨header, nameSize⟩ hvalue
  rw [outcome_readFixedTraced] at hvalue
  exact sizes_le_of_readFixed hlength hvalue

theorem readName_ne_misaligned (field : Bytes) (offset : Nat) :
    readName field ≠ .error (.misaligned offset) := by
  intro h
  rw [readName] at h
  split at h <;> cases h

/-- **One record**: from a multiple of four in the archive on, every request is sound, the place
behind the record is in the archive again, and the offset is not what the reader finds fault
with. -/
theorem readEntryTraced_ensures (hat : cursor.IsAt archive)
    (haligned : cursor.offset % alignment = 0) :
    (readEntryTraced archive cursor).Ensures archive fun result => result.2.IsAt archive := by
  have hfixedLength : fixedLength ≤ Field.largest := by decide
  rw [readEntryTraced, if_neg (fun hne => hne haligned)]
  refine (Cursor.takeTraced_ensures hat hfixedLength).bind fun fixed hfixed => ?_
  refine (readFixedTraced_ensures hfixed.1 hfixed.2.1 _).bind fun sizes hsizes => ?_
  refine (Cursor.takeTraced_ensures hfixed.2.2 hsizes.1).bind fun nameField hnameField => ?_
  refine (Traced.Ensures.silent (fun _ _ => trivial) (readName_ne_misaligned _)).bind
    fun name (_ : True) => ?_
  refine (Cursor.skipPaddingTraced_ensures hnameField.2.2).bind fun contentStart hstart => ?_
  refine (Cursor.takeTraced_ensures hstart hsizes.2).bind fun content hcontent => ?_
  exact (Cursor.skipPaddingTraced_ensures hcontent.2.2).bind fun recordEnd hend => .pure hend

end

/-! ## What is cut out of a record -/

/-- The parts of a record, as they are cut out of an archive that has the record at this offset: the
fixed part; of the fixed part, the magic number and thirteen fields; the name with its NUL byte,
padding, the content, and padding. -/
def Entry.places (entry : Entry) (offset : Nat) : List (Nat × Nat) :=
  let nameStart := offset + fixedLength
  let nameEnd := nameStart + entry.header.nameSize
  let contentStart := nameEnd + paddingLength nameEnd
  let contentEnd := contentStart + entry.header.contentSize
  [(offset, fixedLength), (0, magic.length)]
    ++ (List.range' magic.length 13 Field.width).map (·, Field.width)
    ++ [(nameStart, entry.header.nameSize), (nameEnd, paddingLength nameEnd),
      (contentStart, entry.header.contentSize), (contentEnd, paddingLength contentEnd)]

section

variable {archive : Bytes} {cursor next : Cursor}

theorem Cursor.takeTraced_obtains {count : Nat} {taken : Bytes}
    (h : cursor.take count = .ok (taken, next)) :
    (cursor.takeTraced archive count).Obtains [(cursor.offset, count)] (taken, next) where
  outcome_eq := h
  places_eq := rfl
  taken := by
    rw [takeTraced, h]
    exact List.forall_mem_singleton.2 rfl

theorem Cursor.skipPaddingTraced_obtains (h : cursor.skipPadding = .ok next) :
    (cursor.skipPaddingTraced archive).Obtains
      [(cursor.offset, paddingLength cursor.offset)] next := by
  obtain ⟨padding, hlength, hrest, hoffset⟩ := skipPadding_eq_ok_iff.1 h
  have htake : cursor.take (paddingLength cursor.offset) = .ok (padding, next) :=
    take_eq_ok_iff.2 ⟨hlength, hrest, by rw [hoffset, hlength]⟩
  exact (takeTraced_obtains htake).bind_pure (·.2)

theorem readFieldsTraced_obtains {fixed : Bytes} {count start : Nat} {values : List Nat}
    (h : (readFieldsTraced fixed count start).outcome = .ok values) :
    (readFieldsTraced fixed count start).Obtains
      ((List.range' start count Field.width).map (·, Field.width)) values := by
  induction count generalizing start values with
  | zero =>
    cases h
    exact .pure []
  | succ count ih =>
    rw [readFieldsTraced, Traced.outcome_bind, Traced.outcome_cut, ok_bind, Traced.outcome_bind,
      Traced.outcome_silent] at h
    obtain ⟨⟨value, rest⟩, hvalue, h⟩ := eq_ok_of_bind h
    dsimp only at h
    rw [Traced.outcome_bind] at h
    obtain ⟨others, hothers, h⟩ := eq_ok_of_bind h
    cases h
    exact (Traced.Obtains.cut fixed start Field.width).bind
      ((Traced.Obtains.silent hvalue).bind ((ih hothers).bind_pure (value :: ·)))

theorem readFixedTraced_obtains {offset nameSize : Nat} {fixed : Bytes} {header : Header}
    (h : readFixed offset fixed = .ok (header, nameSize)) :
    (readFixedTraced offset fixed).Obtains
      ((0, magic.length) :: (List.range' magic.length 13 Field.width).map (·, Field.width))
      (header, nameSize) := by
  rw [← outcome_readFixedTraced, readFixedTraced, Traced.outcome_bind, Traced.outcome_cut, ok_bind]
    at h
  refine (Traced.Obtains.cut fixed 0 magic.length).bind ?_
  split at h
  · cases h
  next hmagic =>
    rw [if_neg hmagic]
    rw [Traced.outcome_bind] at h
    obtain ⟨values, hvalues, hheader⟩ := eq_ok_of_bind h
    rw [← List.append_nil (List.map _ _)]
    exact (readFieldsTraced_obtains hvalues).bind (.silent hheader)

/-- **A record that is read has been cut out part by part**, and nothing else with it. -/
theorem readEntryTraced_obtains {entry : Entry} (h : readEntry cursor = .ok (entry, next)) :
    (readEntryTraced archive cursor).Obtains (entry.places cursor.offset) (entry, next) := by
  rw [readEntry] at h
  rw [readEntryTraced]
  split at h
  · cases h
  next haligned =>
    obtain ⟨⟨fixed, afterFixed⟩, hfixed, h⟩ := eq_ok_of_bind h
    obtain ⟨⟨header, nameSize⟩, hheader, h⟩ := eq_ok_of_bind h
    obtain ⟨⟨nameField, afterName⟩, hnameField, h⟩ := eq_ok_of_bind h
    obtain ⟨name, hname, h⟩ := eq_ok_of_bind h
    obtain ⟨contentStart, hnamePadding, h⟩ := eq_ok_of_bind h
    obtain ⟨⟨content, contentEnd⟩, hcontent, h⟩ := eq_ok_of_bind h
    obtain ⟨recordEnd, hcontentPadding, h⟩ := eq_ok_of_bind h
    cases h
    have hoffset₁ := (Cursor.take_eq_ok_iff.1 hfixed).2.2
    obtain ⟨hnameLength, -, hoffset₂⟩ := Cursor.take_eq_ok_iff.1 hnameField
    obtain ⟨namePadding, hlength, -, hoffset₃⟩ := Cursor.skipPadding_eq_ok_iff.1 hnamePadding
    have hoffset₄ := (Cursor.take_eq_ok_iff.1 hcontent).2.2
    have hsize : ({ header with name } : Header).nameSize = nameSize := by
      rw [← hnameLength, readName_eq_ok_iff.1 hname, List.length_append]
      rfl
    rw [hlength] at hoffset₃
    have hplaces : Entry.places ⟨{ header with name }, content⟩ cursor.offset =
        [(cursor.offset, fixedLength)] ++
          (((0, magic.length) :: (List.range' magic.length 13 Field.width).map (·, Field.width)) ++
            ([(afterFixed.offset, nameSize)] ++ ([] ++
              ([(afterName.offset, paddingLength afterName.offset)] ++
                ([(contentStart.offset, header.contentSize)] ++
                  [(contentEnd.offset, paddingLength contentEnd.offset)]))))) := by
      rw [Entry.places, hsize, hoffset₄, hoffset₃, hoffset₂, hoffset₁]
      rfl
    rw [if_neg haligned, hplaces]
    exact (Cursor.takeTraced_obtains hfixed).bind ((readFixedTraced_obtains hheader).bind
      ((Cursor.takeTraced_obtains hnameField).bind ((Traced.Obtains.silent hname).bind
        ((Cursor.skipPaddingTraced_obtains hnamePadding).bind
          ((Cursor.takeTraced_obtains hcontent).bind
            ((Cursor.skipPaddingTraced_obtains hcontentPadding).bind_pure _))))))

end

end CpioArchive.Newc
