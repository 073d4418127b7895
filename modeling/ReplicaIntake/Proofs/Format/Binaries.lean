import Mathlib.Algebra.Group.Nat.Defs
import ReplicaIntake.Proofs.CounterTotals

/-!
# Binary forms read back

What is written in binary says itself where it ends. So each reader, on a written form and any bytes
after it, gives back what was written and those bytes: numbers (`readNat_writeNat`), texts
(`readText_writeText`), and the totals of a counter one after the other (`readTotals_writeTotals`).

Numbers have to be 64-bit words. Lengths are, on any machine: a counter is `Storable` when the
numbers of its totals and the lengths of its nodes' names are.
-/

namespace ReplicaIntake.Binary

/-! ## §1 Numbers -/

theorem toNat_toUInt8_of_lt {n : Nat} (h : n < 256) : n.toUInt8.toNat = n := by
  rw [Nat.toUInt8, UInt8.toNat_ofNat', Nat.mod_eq_of_lt h]

/-- A number below `2 * 128 ^ k` is read within `k + 1` bytes. If it takes all of them, the last one
is 0 or 1. -/
theorem readGroups_writeNat {k n : Nat} (h : n < 2 * 128 ^ k) (rest : Bytes) :
    readGroups (k + 1) (writeNat n ++ rest) = .ok (n, rest) := by
  induction k generalizing n with
  | zero =>
    have hn : n < 2 := by simpa using h
    have hbyte : n.toUInt8.toNat = n := toNat_toUInt8_of_lt (by omega)
    rw [writeNat, if_pos (by omega), List.singleton_append]
    simp only [readGroups, hbyte]
    rw [if_pos (by omega), if_neg (by omega)]
  | succ k ih =>
    rw [writeNat]
    split
    · -- the only byte of the number
      rename_i hn
      have hbyte : n.toUInt8.toNat = n := toNat_toUInt8_of_lt (by omega)
      rw [List.singleton_append]
      simp only [readGroups, hbyte]
      rw [if_pos hn, if_neg (by omega)]
    · -- the lowest group, and the number without it
      have hbyte : (n % 128 + 128).toUInt8.toNat = n % 128 + 128 :=
        toNat_toUInt8_of_lt (by omega)
      have hhigher : readGroups (k + 1) (writeNat (n / 128) ++ rest) = .ok (n / 128, rest) := by
        apply ih
        rw [Nat.pow_succ] at h
        omega
      rw [List.cons_append, readGroups, hbyte, if_neg (by omega), hhigher]
      have hvalue : n % 128 + 128 - 128 + 128 * (n / 128) = n := by omega
      simp only [hvalue]

theorem readNat_writeNat {n : Nat} (h : n < UInt64.size) (rest : Bytes) :
    readNat (writeNat n ++ rest) = .ok (n, rest) :=
  readGroups_writeNat (by simpa [UInt64.size] using h) rest

/-! ## §2 Lengths before content -/

theorem readBytes_writeBytes {bs : Bytes} (h : bs.length < UInt64.size) (rest : Bytes) :
    readBytes (writeBytes bs ++ rest) = .ok (bs, rest) := by
  unfold readBytes writeBytes
  rw [List.append_assoc, readNat_writeNat h]
  -- there are at least as many bytes as were announced
  have henough : ¬ (bs ++ rest).length < bs.length := by simp
  simp only [if_neg henough, List.splitAt_eq, List.take_left, List.drop_left]

theorem readText_writeText {s : String} (h : (utf8 s).length < UInt64.size) (rest : Bytes) :
    readText (writeText s ++ rest) = .ok (s, rest) := by
  unfold readText writeText
  rw [readBytes_writeBytes h]
  simp only [ofUtf8?_utf8]

end ReplicaIntake.Binary

namespace ReplicaIntake.Counter

open Binary

/-! ## §3 Counters -/

/-- The number of totals and the length of each name are 64-bit words. -/
structure TotalsStorable (totals : KeyMap UInt64) : Prop where
  size : totals.size < UInt64.size
  names : ∀ e ∈ totals.entries, (utf8 e.1).length < UInt64.size

/-- The counter has a binary form. -/
structure Storable (c : Counter) : Prop where
  increments : TotalsStorable c.increments
  decrements : TotalsStorable c.decrements

/-- Entries are read one after the other, each into the map that those before it made. -/
theorem readEntries_flatMap {entries : List (String × UInt64)}
    (hnames : ∀ e ∈ entries, (utf8 e.1).length < UInt64.size) (totals : KeyMap UInt64)
    (rest : Bytes) :
    readEntries entries.length totals
        ((entries.flatMap fun e => writeText e.1 ++ writeNat e.2.toNat) ++ rest) =
      .ok (entries.foldl (fun m e => m.insert e.1 e.2) totals, rest) := by
  induction entries generalizing totals with
  | nil => rfl
  | cons e later ih =>
    obtain ⟨hname, hlater⟩ := List.forall_mem_cons.1 hnames
    rw [List.flatMap_cons, List.append_assoc, List.append_assoc, List.length_cons, readEntries,
      readText_writeText hname]
    simp only [readNat_writeNat e.2.toNat_lt, UInt64.ofNat_toNat]
    exact ih hlater _

theorem readTotals_writeTotals {totals : KeyMap UInt64} (h : TotalsStorable totals) (rest : Bytes) :
    readTotals (writeTotals totals ++ rest) = .ok (totals, rest) := by
  unfold readTotals writeTotals
  rw [List.append_assoc, readNat_writeNat h.size]
  refine (readEntries_flatMap h.names .empty rest).trans ?_
  exact congrArg (fun m => Except.ok (m, rest)) totals.ofList_entries

/-- A counter reads back from its binary form, whatever follows it. -/
theorem decode_encode_append {c : Counter} (h : c.Storable) (rest : Bytes) :
    decode (c.encode ++ rest) = .ok c := by
  unfold decode encode
  rw [List.append_assoc, readTotals_writeTotals h.increments]
  simp only [readTotals_writeTotals h.decrements]

end ReplicaIntake.Counter
