import CpioArchive.Proofs.Metering
import CpioArchive.Text.Utf8

/-!
# Line breaks

Texts that are printed one behind the other, each with a line break at its end, are lines only if
there is no line break within them.  A path as messages show it has as many line breaks as the path
has bytes for one: decoding neither makes up a line break nor hides one.

* `Text.lines`, `Text.unlines` — a text as its lines, and texts as lines of a text;
* `Text.lines_unlines_iff` — the texts are the lines exactly if no text has a line break;
* `Utf8.Pending.IsAhead` — a sequence that has begun can no longer become a line break;
* `Utf8.breaks_lossyText` — the line breaks of a decoded byte string.
-/

namespace CpioArchive

/-! ## Lines -/

namespace Text

/-- The lines of some characters, of which the first one has already begun.  Behind the last line
break there is no line. -/
def linesFrom (begun : List Char) : List Char → List String
  | [] => []
  | c :: rest =>
    if c = '\n' then String.ofList begun :: linesFrom [] rest else linesFrom (begun ++ [c]) rest

/-- The lines of a text, without their line breaks. -/
def lines (text : String) : List String := linesFrom [] text.toList

/-- Texts one behind the other, each with a line break at its end. -/
def unlines (texts : List String) : String := String.join (texts.map (· ++ "\n"))

/-- How many line breaks there are in a text. -/
def breaks (text : String) : Nat := text.toList.count '\n'

@[simp] theorem unlines_nil : unlines [] = "" := rfl

theorem unlines_cons (text : String) (rest : List String) :
    unlines (text :: rest) = text ++ "\n" ++ unlines rest := by
  rw [unlines, List.map_cons, String.join_cons]
  rfl

theorem breaks_append (text other : String) :
    breaks (text ++ other) = breaks text + breaks other := by
  rw [breaks, String.toList_append, List.count_append]
  rfl

/-- Every line break ends a line. -/
theorem length_linesFrom (begun chars : List Char) :
    (linesFrom begun chars).length = chars.count '\n' := by
  induction chars generalizing begun with
  | nil => rfl
  | cons c rest ih =>
    rw [linesFrom]
    by_cases h : c = '\n'
    · rw [if_pos h, h, List.length_cons, ih, List.count_cons_self]
    · rw [if_neg h, ih, List.count_cons_of_ne h]

theorem length_lines (text : String) : (lines text).length = breaks text :=
  length_linesFrom [] text.toList

/-- Characters without a line break go to the line that has begun. -/
theorem linesFrom_append {chars : List Char} (h : '\n' ∉ chars) (begun rest : List Char) :
    linesFrom begun (chars ++ '\n' :: rest) =
      String.ofList (begun ++ chars) :: linesFrom [] rest := by
  induction chars generalizing begun with
  | nil => rw [List.nil_append, linesFrom, if_pos rfl, List.append_nil]
  | cons c chars ih =>
    have hc : c ≠ '\n' := fun hc => h (hc ▸ List.mem_cons_self)
    have hchars : '\n' ∉ chars := fun hmem => h (List.mem_cons_of_mem c hmem)
    rw [List.cons_append, linesFrom, if_neg hc, ih hchars, List.append_assoc,
      List.singleton_append]

theorem lines_unlines_cons {text : String} (h : breaks text = 0) (rest : List String) :
    lines (unlines (text :: rest)) = text :: lines (unlines rest) := by
  have hchars : (unlines (text :: rest)).toList = text.toList ++ '\n' :: (unlines rest).toList := by
    rw [unlines_cons, String.toList_append, String.toList_append, List.append_assoc]
    rfl
  rw [lines, hchars, linesFrom_append (List.count_eq_zero.1 h), List.nil_append,
    String.ofList_toList]
  rfl

theorem totalOf_cons (count : Nat) (counts : List Nat) :
    totalOf (count :: counts) = count + totalOf counts := rfl

/-- There is a line for each text, and one more for each line break within a text. -/
theorem breaks_unlines (texts : List String) :
    breaks (unlines texts) = texts.length + totalOf (texts.map breaks) := by
  induction texts with
  | nil => rfl
  | cons text rest ih =>
    rw [unlines_cons, breaks_append, breaks_append, ih, List.length_cons, List.map_cons,
      totalOf_cons, show breaks "\n" = 1 from rfl]
    omega

/-- **Texts that are printed as lines are the lines exactly if none of them has a line break.** -/
theorem lines_unlines_iff {texts : List String} :
    lines (unlines texts) = texts ↔ ∀ text ∈ texts, breaks text = 0 := by
  constructor
  · intro h
    have hlength := congrArg List.length h
    rw [length_lines, breaks_unlines] at hlength
    have hnone : totalOf (texts.map breaks) = 0 := by omega
    clear h hlength
    induction texts with
    | nil => exact nofun
    | cons text rest ih =>
      rw [List.map_cons, totalOf_cons] at hnone
      exact List.forall_mem_cons.2 ⟨by omega, ih (by omega)⟩
  · intro h
    induction texts with
    | nil => rfl
    | cons text rest ih =>
      obtain ⟨htext, hrest⟩ := List.forall_mem_cons.1 h
      rw [lines_unlines_cons htext, ih hrest]

end Text

/-! ## Decoded line breaks -/

namespace Utf8

/-- Only the number of the line break is its number. -/
theorem ofNat_eq_newline_iff (n : Nat) : Char.ofNat n = '\n' ↔ n = 10 := by
  constructor
  · intro h
    rw [Char.ofNat] at h
    by_cases hvalid : n.isValidChar
    · rw [dif_pos hvalid] at h
      exact congrArg Char.toNat h
    · rw [dif_neg hvalid] at h
      cases h
  · rintro rfl
    rfl

/-- What has been read of a sequence, or what may be read next, is more than a line break. -/
structure Pending.IsAhead (p : Pending) : Prop where
  least : 0x80 ≤ p.least
  greatest : p.greatest ≤ 0xBF
  bits : 1 ≤ p.bits ∨ 2 ≤ p.missing ∧ 0x81 ≤ p.least

/-- The line breaks that have been read. -/
def Decoder.breaks (d : Decoder) : Nat := d.read.count (some '\n')

/-- A sequence that a decoder waits for is ahead. -/
def Decoder.IsAhead (d : Decoder) : Prop := ∀ p ∈ d.pending, p.IsAhead

/-- Enough has been read of a sequence if any bit is set. -/
theorem Pending.IsAhead.of_bits {missing bits : Nat} (h : 1 ≤ bits) :
    IsAhead ⟨missing, 0x80, 0xBF, bits⟩ :=
  ⟨UInt8.le_refl _, UInt8.le_refl _, .inl h⟩

/-- A lead byte says enough of its character, or the byte behind it will. -/
theorem leadByte_isAhead {b : UInt8} {p : Pending} (h : leadByte b = some p) : p.IsAhead := by
  rw [leadByte] at h
  split at h
  case isTrue hb =>
    cases h
    have hlow : 0xC2 ≤ b.toNat := UInt8.le_iff_toNat_le.1 hb.1
    exact .of_bits (by omega)
  split at h
  case isTrue =>
    cases h
    exact ⟨by decide, by decide, .inr (by decide)⟩
  split at h
  case isTrue =>
    cases h
    exact ⟨by decide, by decide, .inl (by decide)⟩
  split at h
  case isTrue hb =>
    cases h
    have hlow : 0xE1 ≤ b.toNat := UInt8.le_iff_toNat_le.1 hb.1
    exact .of_bits (by omega)
  split at h
  case isTrue =>
    cases h
    exact ⟨by decide, by decide, .inr (by decide)⟩
  split at h
  case isTrue hb =>
    cases h
    have hlow : 0xF1 ≤ b.toNat := UInt8.le_iff_toNat_le.1 hb.1
    exact .of_bits (by omega)
  split at h
  case isTrue =>
    cases h
    exact ⟨by decide, by decide, .inl (by decide)⟩
  case isFalse => cases h

/-- Whether a byte is a line break. -/
def breakOf (b : UInt8) : Nat := if b = 10 then 1 else 0

/-- A byte that begins something is read as a line break exactly if it is one. -/
theorem Decoder.feedLead_ahead (d : Decoder) (b : UInt8) :
    (d.feedLead b).IsAhead ∧ (d.feedLead b).breaks = d.breaks + breakOf b := by
  rw [feedLead]
  split
  next hascii =>
    refine ⟨nofun, ?_⟩
    rw [breaks, List.count_cons, breakOf]
    have hiff : (some (Char.ofNat b.toNat) == some '\n') = true ↔ b = 10 := by
      rw [beq_iff_eq, Option.some_inj, ofNat_eq_newline_iff]
      exact @UInt8.toNat_inj b 10
    simp only [hiff]
    rfl
  next hbeyond =>
    have hother : breakOf b = 0 := by
      rw [breakOf, if_neg]
      rintro rfl
      exact hbeyond (by decide)
    rw [hother]
    cases hlead : leadByte b with
    | some pending =>
      refine ⟨?_, rfl⟩
      rintro p ⟨⟩
      exact leadByte_isAhead hlead
    | none => exact ⟨nofun, List.count_cons_of_ne (by decide)⟩

/-- **One byte**: it adds a line break exactly if it is one. -/
theorem Decoder.feed_ahead {d : Decoder} (h : d.IsAhead) (b : UInt8) :
    (d.feed b).IsAhead ∧ (d.feed b).breaks = d.breaks + breakOf b := by
  obtain ⟨read, pending⟩ := d
  cases pending with
  | none => exact feedLead_ahead ⟨read, none⟩ b
  | some p =>
    obtain ⟨hleast, hgreatest, hbits⟩ := h p rfl
    rw [feed]
    dsimp only
    split
    next hb =>
      -- A continuation byte is none, and with it the character is more than one.
      have hlow := Nat.le_trans (UInt8.le_iff_toNat_le.1 hleast) (UInt8.le_iff_toNat_le.1 hb.1)
      have hhigh := Nat.le_trans (UInt8.le_iff_toNat_le.1 hb.2) (UInt8.le_iff_toNat_le.1 hgreatest)
      have hother : breakOf b = 0 := by
        rw [breakOf, if_neg]
        rintro rfl
        revert hlow
        decide
      rw [hother]
      split
      next hlast =>
        refine ⟨nofun, List.count_cons_of_ne ?_⟩
        rw [ne_eq, Option.some_inj, ofNat_eq_newline_iff]
        rcases hbits with hbits | ⟨hmissing, -⟩ <;> omega
      next hmore =>
        refine ⟨?_, rfl⟩
        rintro q ⟨⟩
        refine .of_bits ?_
        rcases hbits with hbits | ⟨-, hbits⟩
        · omega
        · have hnext := Nat.le_trans (UInt8.le_iff_toNat_le.1 hbits) (UInt8.le_iff_toNat_le.1 hb.1)
          change 0x81 ≤ b.toNat at hnext
          change b.toNat ≤ 0xBF at hhigh
          omega
    next hb =>
      have hlead := feedLead_ahead ⟨none :: read, none⟩ b
      refine ⟨hlead.1, hlead.2.trans ?_⟩
      rw [breaks, breaks, List.count_cons_of_ne (by decide)]

theorem Decoder.foldl_feed_breaks {d : Decoder} (h : d.IsAhead) (bytes : Bytes) :
    (bytes.foldl feed d).breaks = d.breaks + bytes.count 10 := by
  induction bytes generalizing d with
  | nil => rfl
  | cons b rest ih =>
    obtain ⟨hnext, hbreaks⟩ := feed_ahead h b
    rw [List.foldl_cons, ih hnext, hbreaks, breakOf, List.count_cons]
    simp only [beq_iff_eq]
    omega

/-- What a decoder has read has the same line breaks in order, and none is missing at the end. -/
theorem Decoder.count_finish (d : Decoder) : d.finish.count (some '\n') = d.breaks := by
  rw [finish]
  split
  · exact List.count_reverse
  · rw [List.count_reverse]
    exact List.count_cons_of_ne (by decide)

/-- A gap is not shown as a line break. -/
theorem count_map_getD (read : List (Option Char)) :
    (read.map (·.getD replacement)).count '\n' = read.count (some '\n') := by
  induction read with
  | nil => rfl
  | cons c rest ih =>
    rw [List.map_cons, List.count_cons, List.count_cons, ih]
    cases c with
    | none => rfl
    | some c => rfl

/-- **A byte string is shown with as many line breaks as it has**, whether or not it is
well-formed. -/
theorem breaks_lossyText (bytes : Bytes) : Text.breaks (lossyText bytes) = bytes.count 10 := by
  have hstart : Decoder.IsAhead ⟨[], none⟩ := by
    rintro p ⟨⟩
  rw [Text.breaks, lossyText, String.toList_ofList, count_map_getD, decode, Decoder.count_finish,
    Decoder.foldl_feed_breaks hstart]
  exact Nat.zero_add _

end Utf8

end CpioArchive
