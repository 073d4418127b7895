import ReplicaIntake.Proofs.Format.Binaries
import ReplicaIntake.Store.Format

/-!
# Binary forms cut short

A binary form says itself where it ends. What follows it is therefore of no account, and a form that
has lost its end is never taken for another one: wherever it is cut, its reader runs out of bytes
(`RunsOut`), be it inside a number, inside a text, or between two totals of a counter.

The position of the cut is followed through the parts of a form by one rule: a cut of two parts is a
cut of the first one, or the whole first part and a cut of the second (`runsOut_append`). The result
for the payloads that have binary forms is `binary_forms_delimit_themselves`.
-/

namespace ReplicaIntake.Binary

variable {β γ : Type}

/-! ## §1 Cuts -/

/-- What is left of the form when it has lost its end. -/
def IsCut (cut form : Bytes) : Prop := cut <+: form ∧ cut ≠ form

/-- On every cut of the form the reader runs out of bytes. -/
def RunsOut (read : Bytes → Except Fault β) (form : Bytes) : Prop :=
  ∀ cut, IsCut cut form → read cut = .error .endOfBuffer

variable {cut first second form : Bytes}

theorem not_isCut_nil : ¬ IsCut cut [] :=
  fun h => h.2 (List.prefix_nil.1 h.1)

theorem IsCut.length_lt (h : IsCut cut form) : cut.length < form.length :=
  Nat.lt_of_le_of_ne h.1.length_le fun hlength => h.2 (h.1.eq_of_length hlength)

/-- A cut leaves nothing, or the first byte and a cut of the others. -/
theorem IsCut.cons {b : UInt8} (h : IsCut cut (b :: form)) :
    cut = [] ∨ ∃ rest, cut = b :: rest ∧ IsCut rest form := by
  obtain ⟨hbegins, hne⟩ := h
  rcases List.prefix_cons_iff.1 hbegins with rfl | ⟨rest, rfl, hrest⟩
  · exact .inl rfl
  · exact .inr ⟨rest, rfl, hrest, fun hwhole => hne (congrArg (b :: ·) hwhole)⟩

theorem IsCut.singleton {b : UInt8} (h : IsCut cut [b]) : cut = [] := by
  rcases h.cons with rfl | ⟨rest, -, hrest⟩
  · rfl
  · exact absurd hrest not_isCut_nil

/-- A cut of two parts is inside the first one or behind it. -/
theorem IsCut.append (h : IsCut cut (first ++ second)) :
    IsCut cut first ∨ ∃ rest, cut = first ++ rest ∧ IsCut rest second := by
  induction first generalizing cut with
  | nil => exact .inr ⟨cut, rfl, h⟩
  | cons b later ih =>
    rcases h.cons with rfl | ⟨rest, rfl, hrest⟩
    · exact .inl ⟨List.nil_prefix, nofun⟩
    · rcases ih hrest with hinside | ⟨more, rfl, hmore⟩
      · refine .inl ⟨(List.prefix_cons_inj b).2 hinside.1, fun hwhole => ?_⟩
        exact hinside.2 (List.cons.inj hwhole).2
      · exact .inr ⟨more, rfl, hmore⟩

theorem runsOut_nil (read : Bytes → Except Fault β) : RunsOut read [] :=
  fun _ hcut => absurd hcut not_isCut_nil

/-- A reader runs out of bytes on two parts if it does on the first one, and behind it on the
second. -/
theorem runsOut_append {read : Bytes → Except Fault β} (hfirst : RunsOut read first)
    (hsecond : RunsOut (fun rest => read (first ++ rest)) second) :
    RunsOut read (first ++ second) := by
  intro cut hcut
  rcases hcut.append with hinside | ⟨rest, rfl, hrest⟩
  · exact hfirst cut hinside
  · exact hsecond rest hrest

/-- A reader fails where the reader fails that it starts with. -/
theorem RunsOut.mono {start : Bytes → Except Fault γ} {read : Bytes → Except Fault β}
    (h : RunsOut start form) (herror : ∀ bs e, start bs = .error e → read bs = .error e) :
    RunsOut read form :=
  fun cut hcut => herror cut _ (h cut hcut)

/-! ## §2 Numbers -/

/-- All bytes of a number but the last say that another one follows. -/
theorem runsOut_readGroups {k n : Nat} (h : n < 2 * 128 ^ k) :
    RunsOut (readGroups (k + 1)) (writeNat n) := by
  induction k generalizing n with
  | zero =>
    rw [writeNat, if_pos (by omega)]
    intro cut hcut
    rw [hcut.singleton]
    rfl
  | succ k ih =>
    rw [writeNat]
    split
    · intro cut hcut
      rw [hcut.singleton]
      rfl
    · have hbyte : (n % 128 + 128).toUInt8.toNat = n % 128 + 128 := toNat_toUInt8_of_lt (by omega)
      have hhigher : RunsOut (readGroups (k + 1)) (writeNat (n / 128)) := by
        apply ih
        rw [Nat.pow_succ] at h
        omega
      intro cut hcut
      rcases hcut.cons with rfl | ⟨rest, rfl, hrest⟩
      · rfl
      · -- the byte in front is there, and the higher groups are cut
        rw [readGroups, hbyte, if_neg (by omega), hhigher rest hrest]

theorem runsOut_readNat {n : Nat} (h : n < UInt64.size) : RunsOut readNat (writeNat n) :=
  runsOut_readGroups (by simpa [UInt64.size] using h)

/-! ## §3 Lengths before content -/

theorem runsOut_readBytes {bs : Bytes} (h : bs.length < UInt64.size) :
    RunsOut readBytes (writeBytes bs) := by
  refine runsOut_append ((runsOut_readNat h).mono fun input e herror => ?_) ?_
  · simp only [readBytes, herror]
  · -- fewer bytes are left than were announced
    intro rest hrest
    simp only [readBytes, readNat_writeNat h, if_pos hrest.length_lt]

theorem runsOut_readText {s : String} (h : (utf8 s).length < UInt64.size) :
    RunsOut readText (writeText s) := by
  refine (runsOut_readBytes h).mono fun input e herror => ?_
  simp only [readText, herror]

end ReplicaIntake.Binary

namespace ReplicaIntake.Counter

open Binary

/-! ## §4 Counters -/

/-- The cut is before an entry, inside its name, inside its total, or behind it. -/
theorem runsOut_readEntries {entries : List (String × UInt64)}
    (hnames : ∀ e ∈ entries, (utf8 e.1).length < UInt64.size) (totals : KeyMap UInt64) :
    RunsOut (readEntries entries.length totals)
      (entries.flatMap fun e => writeText e.1 ++ writeNat e.2.toNat) := by
  induction entries generalizing totals with
  | nil => exact runsOut_nil _
  | cons e later ih =>
    obtain ⟨hname, hlater⟩ := List.forall_mem_cons.1 hnames
    rw [List.flatMap_cons, List.append_assoc, List.length_cons]
    refine runsOut_append ((runsOut_readText hname).mono fun input e herror => ?_) ?_
    · simp only [readEntries, herror]
    · -- the name is there
      simp only [readEntries, readText_writeText hname]
      refine runsOut_append ((runsOut_readNat e.2.toNat_lt).mono fun input e herror => ?_) ?_
      · simp only [herror]
      · -- and the total too
        simp only [readNat_writeNat e.2.toNat_lt]
        exact ih hlater _

theorem runsOut_readTotals {totals : KeyMap UInt64} (h : TotalsStorable totals) :
    RunsOut readTotals (writeTotals totals) := by
  refine runsOut_append ((runsOut_readNat h.size).mono fun input e herror => ?_) ?_
  · simp only [readTotals, herror]
  · simp only [readTotals, readNat_writeNat h.size]
    exact runsOut_readEntries h.names .empty

theorem runsOut_decode {c : Counter} (h : c.Storable) : RunsOut decode c.encode := by
  refine runsOut_append ((runsOut_readTotals h.increments).mono fun input e herror => ?_) ?_
  · simp only [decode, herror]
  · simp only [decode, readTotals_writeTotals h.increments]
    refine (runsOut_readTotals h.decrements).mono fun input e herror => ?_
    simp only [herror]

end ReplicaIntake.Counter

namespace ReplicaIntake.PayloadFormat

variable {α : Type}

/-! ## §5 Stored forms -/

/-- Of the payloads in `P`, the stored forms say themselves where they end. -/
structure SelfDelimiting (format : PayloadFormat α) (ended : DecodeError) (P : α → Prop) : Prop where
  /-- A payload is read from its form, whatever follows. -/
  decode_append : ∀ a, P a → ∀ rest, format.decode (format.encode a ++ rest) = .ok a
  /-- A form that has lost its end is refused as that, and not read as another payload. -/
  decode_cut : ∀ a, P a → ∀ cut, Binary.IsCut cut (format.encode a) →
    format.decode cut = .error ended
  /-- No two payloads have one form. -/
  encode_injective : ∀ a b, P a → P b → format.encode a = format.encode b → a = b

/-- A payload that is read from the front of its form is determined by the form. -/
theorem selfDelimiting_of {format : PayloadFormat α} {ended : DecodeError} {P : α → Prop}
    (happend : ∀ a, P a → ∀ rest, format.decode (format.encode a ++ rest) = .ok a)
    (hcut : ∀ a, P a → ∀ cut, Binary.IsCut cut (format.encode a) →
      format.decode cut = .error ended) : format.SelfDelimiting ended P where
  decode_append := happend
  decode_cut := hcut
  encode_injective a b ha hb hform := by
    have hread := happend a ha []
    rw [hform, happend b hb []] at hread
    exact (Except.ok.inj hread).symm

theorem selfDelimiting_counter :
    counter.SelfDelimiting (.counter .endOfBuffer) Counter.Storable := by
  refine selfDelimiting_of (fun c hc rest => ?_) fun c hc cut hcut => ?_
  · exact congrArg (Except.mapError DecodeError.counter) (Counter.decode_encode_append hc rest)
  · exact congrArg (Except.mapError DecodeError.counter) (Counter.runsOut_decode hc cut hcut)

theorem selfDelimiting_file :
    file.SelfDelimiting (.file .endOfBuffer) fun content => content.length < UInt64.size := by
  refine selfDelimiting_of (fun content hlength rest => ?_) fun content hlength cut hcut => ?_
  · simp only [file, Binary.readBytes_writeBytes hlength]
  · simp only [file, Binary.runsOut_readBytes hlength cut hcut]

/-- The binary forms of counters and of files say themselves where they end. Sizes have to be 64-bit
words, as they are on any machine. -/
theorem binary_forms_delimit_themselves :
    counter.SelfDelimiting (.counter .endOfBuffer) Counter.Storable ∧
      file.SelfDelimiting (.file .endOfBuffer) fun content => content.length < UInt64.size :=
  ⟨selfDelimiting_counter, selfDelimiting_file⟩

/-- The largest total takes ten bytes. Without the last of them the counter is refused. -/
theorem largest_total_delimits_itself :
    let c : Counter := { decrements := .ofList [("é", 18446744073709551615)] }
    c.Storable ∧ c.encode = [0, 1, 2, 195, 169, 255, 255, 255, 255, 255, 255, 255, 255, 255, 1] ∧
      counter.decode (c.encode ++ [7]) = .ok c ∧
      counter.decode (c.encode.take 14) = .error (.counter .endOfBuffer) := by
  intro c
  have hc : c.Storable := ⟨⟨by decide, by decide⟩, ⟨by decide, by decide +kernel⟩⟩
  have hform : c.encode = [0, 1, 2, 195, 169, 255, 255, 255, 255, 255, 255, 255, 255, 255, 1] := by
    decide +kernel
  have hcut : Binary.IsCut (c.encode.take 14) c.encode := by
    refine ⟨List.take_prefix 14 _, fun hwhole => ?_⟩
    rw [hform] at hwhole
    exact absurd hwhole (by decide)
  have hdelimits := binary_forms_delimit_themselves.1
  exact ⟨hc, hform, hdelimits.decode_append c hc [7], hdelimits.decode_cut c hc _ hcut⟩

end ReplicaIntake.PayloadFormat
