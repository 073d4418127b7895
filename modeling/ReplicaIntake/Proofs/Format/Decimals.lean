import ReplicaIntake.Format.Decimal

/-!
# Decimal numbers read back

The digits of a number are below ten and do not start with a zero, unless the number is zero. So the
text of a number below 2^64 is read as that number (`word_ofNat`).
-/

namespace ReplicaIntake.Decimal

/-! ## §1 Digits -/

theorem digits_of_lt {n : Nat} (h : n < 10) : digits n = [n] := by
  rw [digits, if_pos h]

theorem digits_of_le {n : Nat} (h : 10 ≤ n) : digits n = digits (n / 10) ++ [n % 10] := by
  rw [digits, if_neg (by omega)]

theorem digits_ne_nil (n : Nat) : digits n ≠ [] := by
  rw [digits]
  split <;> simp

theorem lt_of_mem_digits {n d : Nat} (h : d ∈ digits n) : d < 10 := by
  induction n using Nat.strongRecOn with
  | ind n ih =>
    rw [digits] at h
    split at h
    · rename_i hn
      exact List.mem_singleton.1 h ▸ hn
    · rcases List.mem_append.1 h with hmem | hmem
      · exact ih (n / 10) (by omega) hmem
      · rw [List.mem_singleton.1 hmem]
        exact Nat.mod_lt n (by decide)

/-- No number but zero starts with a zero. -/
theorem exists_digits_eq_cons {n : Nat} (h : n ≠ 0) :
    ∃ d rest, digits n = d :: rest ∧ d ≠ 0 ∧ d < 10 := by
  induction n using Nat.strongRecOn with
  | ind n ih =>
    by_cases hn : n < 10
    · exact ⟨n, [], digits_of_lt hn, h, hn⟩
    · -- the first digit is that of all digits but the last
      obtain ⟨d, rest, hdigits, hd⟩ := ih (n / 10) (by omega) (by omega)
      refine ⟨d, rest ++ [n % 10], ?_, hd⟩
      rw [digits_of_le (by omega), hdigits, List.cons_append]

theorem digit?_digitChar {d : Nat} (h : d < 10) : digit? (digitChar d) = some d :=
  (by decide : ∀ d < 10, digit? (digitChar d) = some d) d h

theorem digitChar_ne_plus {d : Nat} (h : d < 10) : digitChar d ≠ '+' :=
  (by decide : ∀ d < 10, digitChar d ≠ '+') d h

/-! ## §2 Words -/

/-- More digits do not make a number smaller. -/
theorem le_foldl_digits (ds : List Nat) (acc : Nat) :
    acc ≤ ds.foldl (fun acc d => 10 * acc + d) acc := by
  induction ds generalizing acc with
  | nil => exact Nat.le_refl acc
  | cons d rest ih =>
    have hrest := ih (10 * acc + d)
    rw [List.foldl_cons]
    omega

/-- Digits are read to the end if the number that they make is a word. -/
theorem readWord_map_digitChar {ds : List Nat} (hds : ∀ d ∈ ds, d < 10) {acc : Nat}
    (h : ds.foldl (fun acc d => 10 * acc + d) acc < UInt64.size) :
    readWord acc (ds.map digitChar) =
      .ok (UInt64.ofNat (ds.foldl (fun acc d => 10 * acc + d) acc)) := by
  induction ds generalizing acc with
  | nil => rfl
  | cons d rest ih =>
    obtain ⟨hd, hrest⟩ := List.forall_mem_cons.1 hds
    rw [List.foldl_cons] at h
    -- what has been read so far is at most the whole number
    have hsofar : ¬ UInt64.size ≤ 10 * acc + d :=
      Nat.not_le_of_lt (Nat.lt_of_le_of_lt (le_foldl_digits rest _) h)
    simp only [List.map_cons, readWord, digit?_digitChar hd, if_neg hsofar]
    exact ih hrest h

/-- The text of a number below 2^64 is read as that number. -/
theorem word_ofNat {n : Nat} (h : n < UInt64.size) : word (ofNat n) = .ok (UInt64.ofNat n) := by
  have hread : readWord 0 ((digits n).map digitChar) = .ok (UInt64.ofNat n) := by
    have hvalue : (digits n).foldl (fun acc d => 10 * acc + d) 0 = n := ofDigits_digits n
    rw [readWord_map_digitChar (fun _ hd => lt_of_mem_digits hd) (by rw [hvalue]; exact h), hvalue]
  -- the first character is a digit, so there is one and it is no sign
  obtain ⟨d, rest, hdigits⟩ := List.exists_cons_of_ne_nil (digits_ne_nil n)
  have hd : d < 10 := lt_of_mem_digits (hdigits ▸ List.mem_cons_self)
  have hchars : (ofNat n).toList = digitChar d :: rest.map digitChar := by
    rw [ofNat, String.toList_ofList, hdigits, List.map_cons]
  rw [hdigits, List.map_cons] at hread
  unfold word
  rw [hchars]
  split
  · rename_i hnil
    cases hnil
  · rename_i hplus
    exact absurd (List.cons.inj hplus).1 (digitChar_ne_plus hd)
  · rename_i hplus
    exact absurd (List.cons.inj hplus).1 (digitChar_ne_plus hd)
  · exact hread

theorem word_toNat (n : UInt64) : word (ofNat n.toNat) = .ok n := by
  rw [word_ofNat n.toNat_lt, UInt64.ofNat_toNat]

end ReplicaIntake.Decimal
