import ReplicaIntake.Json.Text
import ReplicaIntake.Proofs.Format.Decimals
import ReplicaIntake.Proofs.Json.Literals

/-!
# JSON texts read back

The reading machine is followed over the text of one value (`ReadBack`): wherever a value may come,
and whatever ends it afterwards, reading the text takes the machine to where that value has ended.
An array or an object is read item by item, each from where the one before left the machine, so the
induction is over the value, and inside it over its items.

It holds of the values whose numbers are integers in digits and whose literals name texts (`Plain`),
hence such a value is what its own text says (`ofBytes?_write`).
-/

namespace ReplicaIntake.Json

/-- Every number is an integer in digits, and every literal, those of keys included, names a
text. -/
inductive Plain : Json → Prop
  | null : Plain .null
  | bool (b : Bool) : Plain (.bool b)
  | number (negative : Bool) (whole : Nat) : Plain (.number ⟨negative, whole, [], none⟩)
  | string (s : String) : Plain (.string (some s))
  | array {items : List Json} (hitems : ∀ j ∈ items, Plain j) : Plain (.array items)
  | object {members : List (Option String × Json)} (hkeys : ∀ m ∈ members, m.1.isSome)
    (hvalues : ∀ m ∈ members, Plain m.2) : Plain (.object members)

/-- What may come after a value: nothing, or the mark that ends it. -/
inductive Ends : Bytes → Prop
  | nothing : Ends []
  | comma (rest : Bytes) : Ends (0x2c :: rest)
  | closeArray (rest : Bytes) : Ends (0x5d :: rest)
  | closeObject (rest : Bytes) : Ends (0x7d :: rest)

variable {rest : Bytes}

/-! ## §1 Numbers -/

theorem digitValue?_digit {d : Nat} (h : d < 10) : digitValue? (48 + d.toUInt8) = some d :=
  (by decide : ∀ d < 10, digitValue? (48 + d.toUInt8) = some d) d h

/-- A run of digits ends where the value does. -/
theorem digitRun_digits {ds : List Nat} (hds : ∀ d ∈ ds, d < 10) (hrest : Ends rest) :
    digitRun ((ds.map fun d => 48 + d.toUInt8) ++ rest) = (ds, rest) := by
  induction ds with
  | nil => cases hrest <;> rfl
  | cons d later ih =>
    obtain ⟨hd, hlater⟩ := List.forall_mem_cons.1 hds
    simp only [List.map_cons, List.cons_append, digitRun, digitValue?_digit hd, ih hlater]

theorem wholeDigits?_bytes (n : Nat) (hrest : Ends rest) :
    wholeDigits? (Decimal.bytes n ++ rest) = some (Decimal.digits n, rest) := by
  by_cases hn : n = 0
  · -- a zero stands alone
    subst hn
    rw [Decimal.bytes, Decimal.digits_of_lt (by decide)]
    rfl
  · obtain ⟨d, later, hdigits, hd, hlt⟩ := Decimal.exists_digits_eq_cons hn
    have hrun : digitRun (Decimal.bytes n ++ rest) = (d :: later, rest) := by
      rw [Decimal.bytes, hdigits]
      exact digitRun_digits (fun _ hmem => Decimal.lt_of_mem_digits (hdigits ▸ hmem)) hrest
    have hhead : 48 + d.toUInt8 ≠ 0x30 :=
      (by decide : ∀ d < 10, d ≠ 0 → 48 + d.toUInt8 ≠ 0x30) d hlt hd
    rw [wholeDigits?, hrun, hdigits]
    intro more hzero
    rw [Decimal.bytes, hdigits] at hzero
    exact hhead (List.cons.inj hzero).1

theorem magnitude?_bytes (negative : Bool) (n : Nat) (hrest : Ends rest) :
    magnitude? negative (Decimal.bytes n ++ rest) = some (⟨negative, n, [], none⟩, rest) := by
  have hfraction : fractionDigits? rest = some ([], rest) := by cases hrest <;> rfl
  have hexponent : exponent? rest = some (none, rest) := by cases hrest <;> rfl
  simp [magnitude?, wholeDigits?_bytes n hrest, hfraction, hexponent, Decimal.ofDigits_digits]

/-- A digit starts a number and nothing else. -/
theorem next?_digit {d : Nat} (h : d < 10) (more : Bytes) :
    Token.next? ((48 + d.toUInt8) :: more) =
      (magnitude? false ((48 + d.toUInt8) :: more)).map fun r => (.scalar (.number r.1), r.2) := by
  obtain rfl | rfl | rfl | rfl | rfl | rfl | rfl | rfl | rfl | rfl :
      d = 0 ∨ d = 1 ∨ d = 2 ∨ d = 3 ∨ d = 4 ∨ d = 5 ∨ d = 6 ∨ d = 7 ∨ d = 8 ∨ d = 9 := by omega
  all_goals rfl

/-! ## §2 Scalars -/

theorem next?_number (negative : Bool) (whole : Nat) (hrest : Ends rest) :
    Token.next? ((Json.number ⟨negative, whole, [], none⟩).write ++ rest) =
      some (.scalar (.number ⟨negative, whole, [], none⟩), rest) := by
  have hread := magnitude?_bytes negative whole hrest
  simp only [write, Numeral.write, writeFraction, writeExponent, List.append_nil]
  cases negative with
  | true =>
    show (magnitude? true (Decimal.bytes whole ++ rest)).map _ = _
    rw [hread]
    rfl
  | false =>
    -- without a sign the first byte is a digit
    obtain ⟨d, later, hdigits⟩ := List.exists_cons_of_ne_nil (Decimal.digits_ne_nil whole)
    have hd : d < 10 := Decimal.lt_of_mem_digits (hdigits ▸ List.mem_cons_self)
    have hbytes : Decimal.bytes whole ++ rest =
        (48 + d.toUInt8) :: ((later.map fun d => 48 + d.toUInt8) ++ rest) := by
      rw [Decimal.bytes, hdigits]
      rfl
    rw [hbytes] at hread
    show Token.next? (Decimal.bytes whole ++ rest) = _
    rw [hbytes, next?_digit hd, hread]
    rfl

theorem next?_quoted (s : String) (rest : Bytes) :
    Token.next? (quoted s ++ rest) = some (.scalar (.string (some s)), rest) := by
  rw [quoted, List.cons_append, Token.next?, pieces?_quoted, Option.map_some, textOf?_map_pieceOf]

/-! ## §3 The reading machine on bytes -/

/-- What comes of reading on with all tokens of the bytes. -/
def readFrom (r : Reading) (bs : Bytes) : Option Reading :=
  (tokens? bs).bind fun ts => ts.foldlM Reading.step r

theorem next?_of_isBlank {b : UInt8} (h : isBlank b) (more : Bytes) :
    Token.next? (b :: more) = none := by
  simp only [isBlank, Bool.or_eq_true, beq_iff_eq] at h
  obtain ((rfl | rfl) | rfl) | rfl := h
  all_goals rfl

theorem readFrom_nil (r : Reading) : readFrom r [] = some r := by
  rw [readFrom, tokens?]
  rfl

/-- The machine takes one step at the token in front, and reads on. -/
theorem readFrom_token {r : Reading} {bs : Bytes} {t : Token} (h : Token.next? bs = some (t, rest)) :
    readFrom r bs = (r.step t).bind (readFrom · rest) := by
  cases bs with
  | nil => cases h
  | cons b more =>
    -- a blank would be skipped, but no token starts with one
    have hblank : isBlank b = false := by
      cases hb : isBlank b with
      | false => rfl
      | true => rw [next?_of_isBlank hb] at h; cases h
    have htokens : tokens? (b :: more) = (tokens? rest).map (t :: ·) := by
      rw [tokens?, hblank]
      simp only [Bool.false_eq_true, if_false]
      split
      · rename_i hnone
        rw [h] at hnone
        cases hnone
      · rename_i hsome
        rw [h] at hsome
        cases hsome
        rfl
    unfold readFrom
    rw [htokens]
    cases tokens? rest with
    | none => cases r.step t <;> rfl
    | some ts => rfl

/-- A value may come, and will be one inside `outer`. -/
structure Reading.Awaits (r : Reading) (outer : List Open) : Prop where
  scalar : ∀ j, r.step (.scalar j) = some (.ended j outer)
  openArray : r.step .openArray = some (.firstItem outer)
  openObject : r.step .openObject = some (.firstKey outer)

theorem Reading.awaits_value (outer : List Open) : (Reading.value outer).Awaits outer :=
  ⟨fun _ => rfl, rfl, rfl⟩

theorem Reading.awaits_firstItem (outer : List Open) :
    (Reading.firstItem outer).Awaits (.array [] :: outer) :=
  ⟨fun _ => rfl, rfl, rfl⟩

/-- The key of a member may come, after the given members. -/
def Reading.AwaitsKey (r : Reading) (members : List (Option String × Json)) (outer : List Open) :
    Prop :=
  ∀ k, r.step (.scalar (.string k)) = some (.colon members k outer)

/-! ## §4 Values -/

/-- Wherever a value may come, reading the text of `j` takes the machine to where `j` has ended. -/
def ReadBack (j : Json) : Prop :=
  ∀ {r : Reading} {outer : List Open} {rest : Bytes}, r.Awaits outer → Ends rest →
    readFrom r (j.write ++ rest) = readFrom (.ended j outer) rest

/-- A value that is written as one token is read back. -/
theorem readBack_of_token {j : Json}
    (h : ∀ {rest}, Ends rest → Token.next? (j.write ++ rest) = some (.scalar j, rest)) :
    ReadBack j := by
  intro r outer rest hr hrest
  rw [readFrom_token (h hrest), hr.scalar, Option.bind_some]

theorem writeItems_cons_cons (j next : Json) (more : List Json) :
    writeItems (j :: next :: more) = write j ++ 0x2c :: writeItems (next :: more) := rfl

theorem writeMembers_cons_cons (k : Option String) (j : Json) (next : Option String × Json)
    (more : List (Option String × Json)) :
    writeMembers ((k, j) :: next :: more) =
      writeString k ++ 0x3a :: (write j ++ 0x2c :: writeMembers (next :: more)) := rfl

theorem readFrom_writeItems {items : List Json} (hitems : ∀ j ∈ items, ReadBack j)
    (hne : items ≠ []) {r : Reading} {before : List Json} {outer : List Open}
    (hr : r.Awaits (.array before :: outer)) (rest : Bytes) :
    readFrom r (writeItems items ++ 0x5d :: rest) =
      readFrom (.ended (.array (before.reverse ++ items)) outer) rest := by
  induction items generalizing r before with
  | nil => exact absurd rfl hne
  | cons j later ih =>
    obtain ⟨hj, hlater⟩ := List.forall_mem_cons.1 hitems
    cases later with
    | nil =>
      -- the closing mark after the last item
      rw [writeItems, hj hr (.closeArray rest), readFrom_token rfl]
      simp [Reading.step]
    | cons next more =>
      -- the comma after the first item
      have hrest := ih hlater (List.cons_ne_nil _ _)
        (Reading.awaits_value (.array (j :: before) :: outer))
      rw [writeItems_cons_cons, List.append_assoc, List.cons_append, hj hr (.comma _),
        readFrom_token rfl]
      simp only [Reading.step, Option.bind_some]
      rw [hrest, List.reverse_cons, List.append_assoc, List.singleton_append]

theorem readFrom_writeMembers {members : List (Option String × Json)}
    (hkeys : ∀ m ∈ members, m.1.isSome) (hvalues : ∀ m ∈ members, ReadBack m.2)
    (hne : members ≠ []) {r : Reading} {before : List (Option String × Json)} {outer : List Open}
    (hr : r.AwaitsKey before outer) (rest : Bytes) :
    readFrom r (writeMembers members ++ 0x7d :: rest) =
      readFrom (.ended (.object (before.reverse ++ members)) outer) rest := by
  induction members generalizing r before with
  | nil => exact absurd rfl hne
  | cons m later ih =>
    obtain ⟨hkey, hlaterKeys⟩ := List.forall_mem_cons.1 hkeys
    obtain ⟨hvalue, hlaterValues⟩ := List.forall_mem_cons.1 hvalues
    obtain ⟨_ | k, j⟩ := m
    · cases hkey
    -- the key, the colon and the value of the first member
    have hmember : ∀ {after}, Ends after →
        readFrom r (writeString (some k) ++ 0x3a :: (write j ++ after)) =
          readFrom (.ended j (.object before (some k) :: outer)) after := by
      intro after hafter
      rw [writeString, readFrom_token (next?_quoted k _), hr, Option.bind_some, readFrom_token rfl]
      exact hvalue (Reading.awaits_value _) hafter
    cases later with
    | nil =>
      rw [writeMembers, List.append_assoc, List.cons_append, hmember (.closeObject rest),
        readFrom_token rfl]
      simp [Reading.step]
    | cons next more =>
      have hrest := ih hlaterKeys hlaterValues (List.cons_ne_nil _ _)
        (r := .key ((some k, j) :: before) outer) (fun _ => rfl)
      rw [writeMembers_cons_cons, List.append_assoc, List.cons_append, List.append_assoc,
        List.cons_append, hmember (.comma _), readFrom_token rfl]
      simp only [Reading.step, Option.bind_some]
      rw [hrest, List.reverse_cons, List.append_assoc, List.singleton_append]

theorem Plain.readBack {j : Json} (h : j.Plain) : ReadBack j := by
  induction h with
  | null => exact readBack_of_token fun _ => rfl
  | bool b => cases b <;> exact readBack_of_token fun _ => rfl
  | number negative whole => exact readBack_of_token (next?_number negative whole)
  | string s => exact readBack_of_token fun _ => next?_quoted s _
  | @array items _ ih =>
    intro r outer rest hr _
    -- the opening mark, and then the closing one at once or the items
    rw [write, List.cons_append, readFrom_token rfl, hr.openArray, Option.bind_some,
      List.append_assoc]
    by_cases hne : items = []
    · subst hne
      show readFrom (.firstItem outer) (0x5d :: rest) = _
      rw [readFrom_token rfl]
      rfl
    · exact readFrom_writeItems ih hne (Reading.awaits_firstItem outer) rest
  | @object members hkeys _ ih =>
    intro r outer rest hr _
    -- as for an array, with keys before the values
    rw [write, List.cons_append, readFrom_token rfl, hr.openObject, Option.bind_some,
      List.append_assoc]
    by_cases hne : members = []
    · subst hne
      show readFrom (.firstKey outer) (0x7d :: rest) = _
      rw [readFrom_token rfl]
      rfl
    · exact readFrom_writeMembers hkeys ih hne (r := .firstKey outer) (fun _ => rfl) rest

/-- The text of a plain value says that value. -/
theorem ofBytes?_write {j : Json} (h : j.Plain) : ofBytes? j.write = some j := by
  have hread : readFrom (.value []) j.write = some (.ended j []) := by
    have hback := h.readBack (Reading.awaits_value []) .nothing
    rw [List.append_nil, readFrom_nil] at hback
    exact hback
  obtain ⟨ts, htokens, hsteps⟩ := Option.bind_eq_some_iff.1 hread
  rw [ofBytes?, htokens, Option.bind_some, ofTokens?, hsteps]

end ReplicaIntake.Json
