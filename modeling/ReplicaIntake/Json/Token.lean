import ReplicaIntake.Json.Basic
import ReplicaIntake.Json.Literal

/-!
# Tokens of a JSON text

The lexical layer: six marks, three names, numbers and string literals, with blanks between them
skipped. `Token.next?` takes one token off the front of the bytes and always shortens them, so
`tokens?` ends.
-/

namespace ReplicaIntake.Json

/-- A lexical unit of a JSON text. -/
inductive Token where
  | openObject
  | closeObject
  | openArray
  | closeArray
  /-- The mark between a key and its value. -/
  | colon
  /-- The mark between items. -/
  | comma
  /-- One of the three names, a number or a string literal. -/
  | scalar (j : Json)

/-! ## §1 Numbers -/

/-- The value of a digit byte. -/
def digitValue? (b : UInt8) : Option Nat :=
  if 0x30 ≤ b ∧ b ≤ 0x39 then some (b.toNat - 0x30) else none

/-- The digits at the front of the bytes, and what follows them. -/
def digitRun : Bytes → List Nat × Bytes
  | [] => ([], [])
  | b :: rest =>
    match digitValue? b with
    | none => ([], b :: rest)
    | some d => ((d :: (digitRun rest).1), (digitRun rest).2)

theorem digitRun_length (bs : Bytes) : (digitRun bs).2.length ≤ bs.length := by
  induction bs with
  | nil => simp [digitRun]
  | cons b rest ih =>
    simp only [digitRun]
    split
    · exact Nat.le_refl _
    · exact Nat.le_succ_of_le ih

/-- The digits before the point: a zero alone, or digits that do not start with zero. -/
def wholeDigits? (bs : Bytes) : Option (List Nat × Bytes) :=
  match bs with
  | 0x30 :: rest => some ([0], rest)
  | _ =>
    match digitRun bs with
    | ([], _) => none
    | (ds, rest) => some (ds, rest)

/-- The digits after a point. Without a point there are none; after one there has to be one. -/
def fractionDigits? (bs : Bytes) : Option (List Nat × Bytes) :=
  match bs with
  | 0x2e :: rest =>
    match digitRun rest with
    | ([], _) => none
    | (ds, rest) => some (ds, rest)
  | _ => some ([], bs)

/-- The digits of an exponent after its letter, with an optional sign. -/
def signedDigits? (bs : Bytes) : Option (Int × Bytes) :=
  let read (sign : Int) (bs : Bytes) : Option (Int × Bytes) :=
    match digitRun bs with
    | ([], _) => none
    | (ds, rest) => some (sign * (Decimal.ofDigits ds : Int), rest)
  match bs with
  | 0x2b :: rest => read 1 rest
  | 0x2d :: rest => read (-1) rest
  | _ => read 1 bs

/-- The exponent of a number, if it has one. -/
def exponent? (bs : Bytes) : Option (Option Int × Bytes) :=
  match bs with
  | b :: rest =>
    if b = 0x65 ∨ b = 0x45 then (signedDigits? rest).map fun r => (some r.1, r.2)
    else some (none, bs)
  | [] => some (none, [])

/-- A number without its sign. -/
def magnitude? (negative : Bool) (bs : Bytes) : Option (Numeral × Bytes) := do
  let (whole, bs) ← wholeDigits? bs
  let (fraction, bs) ← fractionDigits? bs
  let (exponent, bs) ← exponent? bs
  return (⟨negative, Decimal.ofDigits whole, fraction, exponent⟩, bs)

/-- A number. -/
def numeral? (bs : Bytes) : Option (Numeral × Bytes) :=
  match bs with
  | 0x2d :: rest => magnitude? true rest
  | _ => magnitude? false bs

/-! ## §2 One token -/

/-- What follows `name` at the front of the bytes. -/
def after? (name bs : Bytes) : Option Bytes :=
  if name.isPrefixOf bs then some (bs.drop name.length) else none

/-- The token at the front of the bytes, and what follows it. -/
def Token.next? : Bytes → Option (Token × Bytes)
  | [] => none
  | 0x7b :: rest => some (.openObject, rest)
  | 0x7d :: rest => some (.closeObject, rest)
  | 0x5b :: rest => some (.openArray, rest)
  | 0x5d :: rest => some (.closeArray, rest)
  | 0x3a :: rest => some (.colon, rest)
  | 0x2c :: rest => some (.comma, rest)
  | 0x22 :: rest => (pieces? rest).map fun r => (.scalar (.string (textOf? r.1)), r.2)
  | 0x6e :: rest => (after? (utf8 "ull") rest).map fun r => (.scalar .null, r)
  | 0x74 :: rest => (after? (utf8 "rue") rest).map fun r => (.scalar (.bool true), r)
  | 0x66 :: rest => (after? (utf8 "alse") rest).map fun r => (.scalar (.bool false), r)
  | bs => (numeral? bs).map fun r => (.scalar (.number r.1), r.2)

/-! ## §3 Every token is something -/

theorem pieces?_length {bs rest : Bytes} {ps : List Piece} (h : pieces? bs = some (ps, rest)) :
    rest.length ≤ bs.length := by
  fun_induction pieces? bs generalizing ps rest with
  | case1 => simp at h
  | case2 r => simp only [Option.some.injEq, Prod.mk.injEq] at h; simp [← h.2]
  | case3 a b c d r u q r' hu hr ih =>
    simp only [Option.some.injEq, Prod.mk.injEq] at h
    have := ih hu; simp [← h.2]; omega
  | case4 => simp at h
  | case5 e r _ b q r' hb hr ih =>
    simp only [Option.some.injEq, Prod.mk.injEq] at h
    have := ih hb; simp [← h.2]; omega
  | case6 => simp at h
  | case7 => simp at h
  | case8 b r _ _ _ _ q r' hr ih =>
    simp only [Option.some.injEq, Prod.mk.injEq] at h
    have := ih hr; simp [← h.2]; omega
  | case9 => simp at h

/-- What `digitRun` leaves after at least one digit is shorter. -/
theorem digitRun_length_lt {bs rest : Bytes} {d : Nat} {ds : List Nat}
    (h : digitRun bs = (d :: ds, rest)) : rest.length < bs.length := by
  cases bs with
  | nil => simp [digitRun] at h
  | cons b tail =>
    simp only [digitRun] at h
    split at h
    · simp at h
    · have := digitRun_length tail
      simp only [Prod.mk.injEq] at h
      simp [← h.2]; omega

theorem wholeDigits?_length {bs rest : Bytes} {ds : List Nat}
    (h : wholeDigits? bs = some (ds, rest)) : rest.length < bs.length := by
  unfold wholeDigits? at h
  split at h
  · simp only [Option.some.injEq, Prod.mk.injEq] at h; simp [← h.2]
  · split at h
    · simp at h
    · rename_i ds' rest' hne hr
      simp only [Option.some.injEq, Prod.mk.injEq] at h
      cases ds' with
      | nil => exact (hne rfl).elim
      | cons d ds' => rw [← h.2]; exact digitRun_length_lt hr

theorem fractionDigits?_length {bs rest : Bytes} {ds : List Nat}
    (h : fractionDigits? bs = some (ds, rest)) : rest.length ≤ bs.length := by
  unfold fractionDigits? at h
  split at h
  · rename_i tail
    split at h
    · simp at h
    · rename_i hr
      simp only [Option.some.injEq, Prod.mk.injEq] at h
      have := digitRun_length tail
      rw [hr] at this
      simp [← h.2] at this ⊢; omega
  · simp only [Option.some.injEq, Prod.mk.injEq] at h; simp [← h.2]

theorem signedDigits?_length {bs rest : Bytes} {n : Int}
    (h : signedDigits? bs = some (n, rest)) : rest.length ≤ bs.length := by
  have key : ∀ (tail : Bytes) (sign : Int),
      (match digitRun tail with
        | ([], _) => none
        | (ds, r) => some (sign * (Decimal.ofDigits ds : Int), r)) = some (n, rest) →
        rest.length ≤ tail.length := by
    intro tail sign h
    have := digitRun_length tail
    split at h
    · simp at h
    · rename_i hr
      simp only [Option.some.injEq, Prod.mk.injEq] at h
      rw [hr] at this
      simpa [← h.2] using this
  unfold signedDigits? at h
  split at h
  · have := key _ _ h; simp; omega
  · have := key _ _ h; simp; omega
  · exact key _ _ h

theorem exponent?_length {bs rest : Bytes} {e : Option Int}
    (h : exponent? bs = some (e, rest)) : rest.length ≤ bs.length := by
  unfold exponent? at h
  split at h
  · split at h
    · obtain ⟨⟨_, _⟩, hr, he⟩ := Option.map_eq_some_iff.1 h
      simp only [Prod.mk.injEq] at he
      have := signedDigits?_length hr
      simp [← he.2]; omega
    · simp only [Option.some.injEq, Prod.mk.injEq] at h; simp [← h.2]
  · simp only [Option.some.injEq, Prod.mk.injEq] at h; simp [← h.2]

theorem magnitude?_length {negative : Bool} {bs rest : Bytes} {n : Numeral}
    (h : magnitude? negative bs = some (n, rest)) : rest.length < bs.length := by
  simp only [magnitude?, Option.bind_eq_bind, Option.pure_def, Option.bind_eq_some_iff,
    Option.some.injEq, Prod.mk.injEq, Prod.exists] at h
  obtain ⟨whole, r1, h1, fraction, r2, h2, exponent, r3, h3, _, rfl⟩ := h
  have := wholeDigits?_length h1
  have := fractionDigits?_length h2
  have := exponent?_length h3
  omega

theorem numeral?_length {bs rest : Bytes} {n : Numeral} (h : numeral? bs = some (n, rest)) :
    rest.length < bs.length := by
  unfold numeral? at h
  split at h
  · have := magnitude?_length h; simp; omega
  · exact magnitude?_length h

theorem after?_length {name bs rest : Bytes} (h : after? name bs = some rest) :
    rest.length ≤ bs.length := by
  unfold after? at h
  split at h
  · simp only [Option.some.injEq] at h; simp [← h]
  · simp at h

/-- Taking a token off the bytes shortens them. -/
theorem Token.next?_length {bs rest : Bytes} {t : Token} (h : Token.next? bs = some (t, rest)) :
    rest.length < bs.length := by
  have hname : ∀ {name tail : Bytes} {j : Json},
      (after? name tail).map (fun r => (Token.scalar j, r)) = some (t, rest) →
        rest.length < tail.length + 1 := by
    intro name tail j h
    obtain ⟨r, hr, he⟩ := Option.map_eq_some_iff.1 h
    have := after?_length hr
    simp only [Prod.mk.injEq] at he
    rw [← he.2]; omega
  unfold Token.next? at h
  split at h
  · simp at h
  -- the six marks
  case h_2 => simp only [Option.some.injEq, Prod.mk.injEq] at h; simp [← h.2]
  case h_3 => simp only [Option.some.injEq, Prod.mk.injEq] at h; simp [← h.2]
  case h_4 => simp only [Option.some.injEq, Prod.mk.injEq] at h; simp [← h.2]
  case h_5 => simp only [Option.some.injEq, Prod.mk.injEq] at h; simp [← h.2]
  case h_6 => simp only [Option.some.injEq, Prod.mk.injEq] at h; simp [← h.2]
  case h_7 => simp only [Option.some.injEq, Prod.mk.injEq] at h; simp [← h.2]
  -- a string literal
  case h_8 =>
    obtain ⟨⟨_, _⟩, hr, he⟩ := Option.map_eq_some_iff.1 h
    have := pieces?_length hr
    simp only [Prod.mk.injEq] at he
    simp [← he.2]; omega
  -- the three names
  case h_9 => simpa using hname h
  case h_10 => simpa using hname h
  case h_11 => simpa using hname h
  -- a number
  case h_12 =>
    obtain ⟨⟨_, _⟩, hr, he⟩ := Option.map_eq_some_iff.1 h
    simp only [Prod.mk.injEq] at he
    rw [← he.2]; exact numeral?_length hr

/-! ## §4 All tokens -/

/-- Whether a byte is one of the four blanks. -/
def isBlank (b : UInt8) : Bool := b == 0x20 || b == 0x0a || b == 0x0d || b == 0x09

/-- The tokens of a text in order, or nothing when some part of it is no token. -/
def tokens? (bs : Bytes) : Option (List Token) :=
  match bs with
  | [] => some []
  | b :: rest =>
    if isBlank b then tokens? rest
    else
      match _h : Token.next? (b :: rest) with
      | none => none
      | some (t, rest) => (tokens? rest).map (t :: ·)
termination_by bs.length
decreasing_by
  · simp
  · exact Token.next?_length (by assumption)

end ReplicaIntake.Json
