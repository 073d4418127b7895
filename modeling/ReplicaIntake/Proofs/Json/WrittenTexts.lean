import Mathlib.Data.List.Basic
import ReplicaIntake.Proofs.Json.Texts

/-!
# What is written is a text

JSON is written byte by byte, and a literal escapes single bytes of a UTF-8 form. Still the bytes are
UTF-8 (`utf8_text`): the marks, names, digits and escapes are ASCII, and the bytes that a literal
leaves alone are all those of the characters beyond ASCII. So a column for texts can keep what is
written, and reading the text is reading those bytes.
-/

namespace ReplicaIntake

/-! ## §1 Texts as bytes -/

/-- The bytes are the UTF-8 form of a text. -/
def IsText (bs : Bytes) : Prop := ∃ s : String, bs = utf8 s

theorem utf8_ofList (cs : List Char) :
    utf8 (String.ofList cs) = cs.flatMap String.utf8EncodeChar := by
  rw [utf8, String.toUTF8, String.toByteArray_ofList, List.utf8Encode]
  simp

theorem isText_utf8 (s : String) : IsText (utf8 s) := ⟨s, rfl⟩

theorem isText_flatMap (cs : List Char) : IsText (cs.flatMap String.utf8EncodeChar) :=
  ⟨String.ofList cs, (utf8_ofList cs).symm⟩

theorem utf8_eq_flatMap (s : String) : utf8 s = s.toList.flatMap String.utf8EncodeChar := by
  rw [← utf8_ofList, String.ofList_toList]

theorem IsText.append {bs bs' : Bytes} (h : IsText bs) (h' : IsText bs') : IsText (bs ++ bs') := by
  obtain ⟨s, rfl⟩ := h
  obtain ⟨s', rfl⟩ := h'
  rw [utf8_eq_flatMap, utf8_eq_flatMap, ← List.flatMap_append]
  exact isText_flatMap _

/-- Bytes of ASCII are a text. -/
theorem isText_of_ascii {bs : Bytes} (h : ∀ b ∈ bs, b < 0x80) : IsText bs := by
  refine ⟨String.ofList (bs.map fun b => Char.ofNat b.toNat), ?_⟩
  rw [utf8_ofList, List.flatMap_map]
  have hall : ∀ n < 128, String.utf8EncodeChar (Char.ofNat n) = [UInt8.ofNat n] := by decide
  have hsame : ∀ b ∈ bs, String.utf8EncodeChar (Char.ofNat b.toNat) = [b] := fun b hb => by
    rw [hall b.toNat (UInt8.lt_iff_toNat_lt.1 (h b hb)), UInt8.ofNat_toNat]
  rw [List.flatMap_congr hsame, List.flatMap_singleton']

/-- The bytes of a character beyond ASCII are beyond ASCII. -/
theorem le_of_mem_utf8EncodeChar {c : Char} (hc : 127 < c.val.toNat) {b : UInt8}
    (hb : b ∈ String.utf8EncodeChar c) : 0x80 ≤ b := by
  have hbeyond : ∀ n, 128 ≤ n → n < 256 → 0x80 ≤ UInt8.ofNat n := fun n hlow hhigh => by
    rw [UInt8.le_iff_toNat_le, UInt8.toNat_ofNat', Nat.mod_eq_of_lt hhigh]
    exact hlow
  unfold String.utf8EncodeChar at hb
  simp only [if_neg (Nat.not_le_of_lt hc)] at hb
  -- two, three or four bytes
  split at hb
  · simp only [List.mem_cons, List.not_mem_nil, or_false] at hb
    rcases hb with rfl | rfl <;> exact hbeyond _ (by omega) (by omega)
  · split at hb
    · simp only [List.mem_cons, List.not_mem_nil, or_false] at hb
      rcases hb with rfl | rfl | rfl <;> exact hbeyond _ (by omega) (by omega)
    · simp only [List.mem_cons, List.not_mem_nil, or_false] at hb
      rcases hb with rfl | rfl | rfl | rfl <;> exact hbeyond _ (by omega) (by omega)

namespace Json

/-! ## §2 Literals -/

theorem escapeByte_of_le {b : UInt8} (h : 0x80 ≤ b) : escapeByte b = [b] := by
  have hne : ∀ x : UInt8, x < 0x80 → b ≠ x := fun x hx hb =>
    absurd (hb ▸ h) (UInt8.not_le.2 hx)
  have hcontrol : ¬ b < 0x20 := UInt8.not_lt.2 (UInt8.le_trans (by decide) h)
  simp [escapeByte, hne, hcontrol]

theorem isAscii_escapeByte {b : UInt8} (h : b < 0x80) : ∀ e ∈ escapeByte b, e < 0x80 := by
  have hall : ∀ n < 128, ∀ e ∈ escapeByte (UInt8.ofNat n), e < 0x80 := by decide +kernel
  have hb := hall b.toNat (UInt8.lt_iff_toNat_lt.1 h)
  rwa [UInt8.ofNat_toNat] at hb

/-- The escaped bytes of one character are a text: a character of ASCII is escaped within ASCII, and
any other one is left alone. -/
theorem isText_escaped (c : Char) : IsText ((String.utf8EncodeChar c).flatMap escapeByte) := by
  by_cases hc : c.val.toNat ≤ 127
  · have hone : String.utf8EncodeChar c = [UInt8.ofNat c.val.toNat] := by
      rw [String.utf8EncodeChar]
      exact if_pos hc
    have hascii : UInt8.ofNat c.val.toNat < 0x80 := by
      rw [UInt8.lt_iff_toNat_lt, UInt8.toNat_ofNat', Nat.mod_eq_of_lt (by omega)]
      exact Nat.lt_succ_of_le hc
    rw [hone, List.flatMap_singleton]
    exact isText_of_ascii (isAscii_escapeByte hascii)
  · have hsame : ∀ b ∈ String.utf8EncodeChar c, escapeByte b = [b] := fun b hb =>
      escapeByte_of_le (le_of_mem_utf8EncodeChar (Nat.lt_of_not_le hc) hb)
    rw [List.flatMap_congr hsame, List.flatMap_singleton']
    exact ⟨String.singleton c, by rw [utf8_eq_flatMap]; simp⟩

theorem isText_quoted (s : String) : IsText (quoted s) := by
  have hescaped : ∀ cs : List Char,
      IsText ((cs.flatMap String.utf8EncodeChar).flatMap escapeByte) := by
    intro cs
    induction cs with
    | nil => exact isText_utf8 ""
    | cons c rest ih =>
      rw [List.flatMap_cons, List.flatMap_append]
      exact (isText_escaped c).append ih
  have hquote : IsText [0x22] := isText_utf8 "\""
  rw [quoted, utf8_eq_flatMap]
  exact hquote.append ((hescaped s.toList).append hquote)

/-! ## §3 Values -/

theorem isText_numeral (negative : Bool) (whole : Nat) :
    IsText (Numeral.write ⟨negative, whole, [], none⟩) := by
  have hdigit : ∀ d < 10, 48 + d.toUInt8 < 0x80 := by decide
  have hdigits : IsText (Decimal.bytes whole) := isText_of_ascii fun b hb => by
    obtain ⟨d, hd, rfl⟩ := List.mem_map.1 hb
    exact hdigit d (Decimal.lt_of_mem_digits hd)
  have hsign : IsText (if negative then [0x2d] else []) := by
    cases negative
    · exact isText_utf8 ""
    · exact isText_utf8 "-"
  simp only [Numeral.write, writeFraction, writeExponent, List.append_nil]
  exact hsign.append hdigits

theorem isText_writeItems {items : List Json} (h : ∀ j ∈ items, IsText j.write) :
    IsText (writeItems items) := by
  induction items with
  | nil => exact isText_utf8 ""
  | cons j later ih =>
    obtain ⟨hj, hlater⟩ := List.forall_mem_cons.1 h
    cases later with
    | nil => exact hj
    | cons next more =>
      have hcomma : IsText [0x2c] := isText_utf8 ","
      exact hj.append (hcomma.append (ih hlater))

theorem isText_writeMembers {members : List (Option String × Json)}
    (hkeys : ∀ m ∈ members, m.1.isSome) (hvalues : ∀ m ∈ members, IsText m.2.write) :
    IsText (writeMembers members) := by
  induction members with
  | nil => exact isText_utf8 ""
  | cons m later ih =>
    obtain ⟨hkey, hlaterKeys⟩ := List.forall_mem_cons.1 hkeys
    obtain ⟨hvalue, hlaterValues⟩ := List.forall_mem_cons.1 hvalues
    obtain ⟨_ | k, j⟩ := m
    · cases hkey
    have hcolon : IsText [0x3a] := isText_utf8 ":"
    have hmember : IsText (quoted k ++ 0x3a :: j.write) :=
      (isText_quoted k).append (hcolon.append hvalue)
    cases later with
    | nil => exact hmember
    | cons next more =>
      have hcomma : IsText [0x2c] := isText_utf8 ","
      rw [writeMembers_cons_cons, writeString, ← List.cons_append, ← List.append_assoc]
      exact hmember.append (hcomma.append (ih hlaterKeys hlaterValues))

theorem Plain.isText_write {j : Json} (h : j.Plain) : IsText j.write := by
  induction h with
  | null => exact isText_utf8 "null"
  | bool b => cases b <;> exact isText_utf8 _
  | number negative whole => exact isText_numeral negative whole
  | string s => exact isText_quoted s
  | array _ ih =>
    have hopen : IsText [0x5b] := isText_utf8 "["
    have hclose : IsText [0x5d] := isText_utf8 "]"
    exact hopen.append ((isText_writeItems ih).append hclose)
  | object hkeys _ ih =>
    have hopen : IsText [0x7b] := isText_utf8 "\x7b"
    have hclose : IsText [0x7d] := isText_utf8 "\x7d"
    exact hopen.append ((isText_writeMembers hkeys ih).append hclose)

/-- The bytes that are written are those of the text. -/
theorem utf8_text {j : Json} (h : j.Plain) : utf8 j.text = j.write := by
  obtain ⟨s, hs⟩ := h.isText_write
  rw [text, hs, ofUtf8?_utf8, Option.getD_some]

end Json

end ReplicaIntake
