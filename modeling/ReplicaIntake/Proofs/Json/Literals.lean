import ReplicaIntake.Json.Literal

/-!
# String literals read back

Every byte of a text is written so that it is read as one part of a literal (`pieces?_escapeByte`):
as itself, or, for the control bytes that no letter stands for, as a unit. A unit of a control byte
is the code point of that byte alone, so the parts join to the bytes of the text
(`join?_map_pieceOf`), and the literal names the text that was written (`pieces?_quoted`).
-/

namespace ReplicaIntake.Json

/-- The part of a literal that a byte is written as. -/
def pieceOf (b : UInt8) : Piece :=
  if b < 0x20 ∧ b ∉ ([0x08, 0x09, 0x0a, 0x0c, 0x0d] : List UInt8) then .unit b.toNat else .byte b

/-! ## §1 Parts -/

/-- The four digits of a control byte are read as that byte. -/
theorem hexUnit?_hexByte {b : UInt8} (h : b < 0x20) :
    hexUnit? 0x30 0x30 (hexByte (b / 16)) (hexByte (b % 16)) = some b.toNat := by
  have hall : ∀ n < 32, hexUnit? 0x30 0x30 (hexByte (UInt8.ofNat n / 16))
      (hexByte (UInt8.ofNat n % 16)) = some n := by decide
  have hb : b.toNat < 32 := UInt8.lt_iff_toNat_lt.1 h
  simpa using hall b.toNat hb

theorem pieces?_escaped {letter b : UInt8} (hletter : escaped? letter = some b) (hu : letter ≠ 0x75)
    (rest : Bytes) :
    pieces? (0x5c :: letter :: rest) = (pieces? rest).map fun r => (.byte b :: r.1, r.2) := by
  rw [pieces?]
  · rw [hletter]
    cases pieces? rest <;> rfl
  · intro a b c d rest hletter' _
    exact hu hletter'

theorem pieces?_plain {b : UInt8} (hquote : b ≠ 0x22) (hbackslash : b ≠ 0x5c) (hb : ¬ b < 0x20)
    (rest : Bytes) : pieces? (b :: rest) = (pieces? rest).map fun r => (.byte b :: r.1, r.2) := by
  rw [pieces?]
  · rw [if_neg hb]
    cases pieces? rest <;> rfl
  · exact hquote
  · intro a b' c d rest' hb' _
    exact hbackslash hb'
  · intro e rest' hb' _
    exact hbackslash hb'

/-- The written form of a byte is one part of a literal. -/
theorem pieces?_escapeByte (b : UInt8) (rest : Bytes) :
    pieces? (escapeByte b ++ rest) = (pieces? rest).map fun r => (pieceOf b :: r.1, r.2) := by
  unfold escapeByte
  -- the seven bytes that a letter stands for
  iterate 7
    split
    · rename_i hb
      subst hb
      exact pieces?_escaped rfl (by decide) rest
  rename_i hquote hbackslash h08 h09 h0a h0c h0d
  split
  · -- a control byte that no letter stands for
    rename_i hb
    have hpiece : pieceOf b = .unit b.toNat :=
      if_pos ⟨hb, by simp [h08, h09, h0a, h0c, h0d]⟩
    simp only [List.cons_append, List.nil_append, pieces?, hexUnit?_hexByte hb, hpiece]
    cases pieces? rest <;> rfl
  · rename_i hb
    have hpiece : pieceOf b = .byte b := if_neg fun h => hb h.1
    rw [hpiece]
    exact pieces?_plain hquote hbackslash hb rest

theorem pieces?_flatMap_escapeByte (bs rest : Bytes) :
    pieces? (bs.flatMap escapeByte ++ 0x22 :: rest) = some (bs.map pieceOf, rest) := by
  induction bs with
  | nil => rfl
  | cons b later ih =>
    rw [List.flatMap_cons, List.append_assoc, pieces?_escapeByte, ih]
    rfl

/-! ## §2 Texts -/

/-- A unit below the surrogates stands for itself, whatever follows it. -/
theorem join?_unit {u : Nat} (h : u < 0xd800) (ps : List Piece) :
    join? (.unit u :: ps) = (join? ps).map (codePoint u ++ ·) := by
  have hhigh : isHighSurrogate u = false := by simp [isHighSurrogate]; omega
  have hlow : isLowSurrogate u = false := by simp [isLowSurrogate]; omega
  match ps with
  | [] => simp [join?, hhigh, hlow]
  | .byte b :: rest => simp [join?, hhigh, hlow]
  | .unit low :: rest => simp [join?, hhigh, hlow]

theorem codePoint_of_lt {u : Nat} (h : u < 0x20) : codePoint u = [UInt8.ofNat u] :=
  (by decide : ∀ u < 0x20, codePoint u = [UInt8.ofNat u]) u h

/-- The parts that bytes are written as join to the bytes. -/
theorem join?_map_pieceOf (bs : Bytes) : join? (bs.map pieceOf) = some bs := by
  induction bs with
  | nil => rfl
  | cons b rest ih =>
    rw [List.map_cons]
    by_cases hb : b < 0x20 ∧ b ∉ ([0x08, 0x09, 0x0a, 0x0c, 0x0d] : List UInt8)
    · have hcontrol : b.toNat < 0x20 := UInt8.lt_iff_toNat_lt.1 hb.1
      rw [pieceOf, if_pos hb, join?_unit (by omega), ih, codePoint_of_lt hcontrol]
      simp
    · rw [pieceOf, if_neg hb, join?, ih]
      rfl

theorem textOf?_map_pieceOf (s : String) : textOf? ((utf8 s).map pieceOf) = some s := by
  rw [textOf?, join?_map_pieceOf]
  exact ofUtf8?_utf8 s

/-- The literal of a text, after its opening quote, has the parts of the text and ends where it was
ended. -/
theorem pieces?_quoted (s : String) (rest : Bytes) :
    pieces? ((utf8 s).flatMap escapeByte ++ [0x22] ++ rest) = some ((utf8 s).map pieceOf, rest) := by
  rw [List.append_assoc]
  exact pieces?_flatMap_escapeByte (utf8 s) rest

end ReplicaIntake.Json
