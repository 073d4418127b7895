import Mathlib.Algebra.Group.Nat.Defs
import ReplicaIntake.Proofs.Memory.Overlays

/-!
# Etags name versions of records

A store that also lists what its committed transactions wrote and removed (`Backend.logged`) does
the same as the store itself, and what it lists tells between any two committed states how one came
from the other (`Evolved`): its records are those of the earlier state with the listed changes
carried over, and each write that is listed has the next etag.

So an etag is never given to two versions that were both committed, although those of transactions
that failed are given out again. A caller that finds a key with the etag that it had before finds
the record unchanged, and it was not touched meanwhile (`etag_names_version`).
-/

namespace ReplicaIntake

variable {α σ τ ω : Type}

open Op

/-! ## §1 Listing the changes -/

/-- A change of a store: the record that was written under a key, `none` for a removal. -/
abbrev Change (α : Type) := String × Option (Record α)

/-- The records that were written, in the order of the writes. -/
def written (changes : List (Change α)) : List (String × Record α) :=
  changes.filterMap fun change => change.2.map (change.1, ·)

/-- The backend that lists its changes beside its state, and drops those of a transaction that
fails. -/
def Backend.logged (b : Backend σ τ α ω) :
    Backend (σ × List (Change α)) (τ × List (Change α)) α ω where
  kind := b.kind
  localId := b.localId
  start s := (b.start s.1).map fun t => (t, s.2)
  finish t := (b.finish t.1).map fun (s, queue) => ((s, t.2), queue)
  read key := (b.read key).within id
  write key content metadata := do
    let etag ← (b.write key content metadata).within id
    modify fun (t, changes) => (t, changes ++ [(key, some ⟨content, etag, metadata⟩)])
    pure etag
  erase key := do
    (b.erase key).within id
    modify fun (t, changes) => (t, changes ++ [(key, none)])
  nextVersion := b.nextVersion.within id
  enqueue action t := (b.enqueue action t.1, t.2)
  keys s := b.keys s.1

namespace Backend

variable {b : Backend σ τ α ω}

theorem start_logged {s : σ} {t : τ} (h : b.start s = .ok t) (changes : List (Change α)) :
    b.logged.start (s, changes) = .ok (t, changes) := by
  simp only [logged, h, Except.map]

theorem finish_logged {s : σ} {t : τ} {queue : PostCommit ω} (h : b.finish t = .ok (s, queue))
    (changes : List (Change α)) : b.logged.finish (t, changes) = .ok ((s, changes), queue) := by
  simp only [logged, h, Except.map]

theorem write_logged {key : String} {content : Content α} {metadata : Metadata} {t t' : τ}
    {etag : Etag} (h : b.write key content metadata t = .ok etag t') (changes : List (Change α)) :
    b.logged.write key content metadata (t, changes) =
      .ok etag (t', changes ++ [(key, some ⟨content, etag, metadata⟩)]) := by
  have hwithin :
      (b.write key content metadata).within id (t, changes) = .ok etag (t', changes) := by
    simp only [within, h]
  exact bind_of_ok hwithin

theorem erase_logged {key : String} {t t' : τ} (h : b.erase key t = .ok () t')
    (changes : List (Change α)) :
    b.logged.erase key (t, changes) = .ok () (t', changes ++ [(key, none)]) := by
  have hwithin : (b.erase key).within id (t, changes) = .ok () (t', changes) := by
    simp only [within, h]
  exact bind_of_ok hwithin

end Backend

@[simp] theorem written_append (changes changes' : List (Change α)) :
    written (changes ++ changes') = written changes ++ written changes' :=
  List.filterMap_append

theorem mem_written {changes : List (Change α)} {key : String} {r : Record α} :
    (key, r) ∈ written changes ↔ (key, some r) ∈ changes := by
  simp [written]

namespace Memory

/-! ## §2 Replaying changes -/

/-- A key that no change is about keeps its record. -/
theorem find?_replay_of_untouched {changes : List (Change α)} (records : KeyMap (Record α))
    {key : String} (h : ∀ change ∈ changes, change.1 ≠ key) :
    (changes.foldl Staging.carry records).find? key = records.find? key := by
  induction changes generalizing records with
  | nil => rfl
  | cons change rest ih =>
    rw [List.foldl_cons, ih _ fun c hc => h c (List.mem_cons_of_mem _ hc), Staging.find?_carry,
      if_neg (Ne.symm (h change List.mem_cons_self))]

/-- A record that is there in the end was written on the way, or it was there before and not
touched. -/
theorem written_or_untouched {changes : List (Change α)} {records : KeyMap (Record α)} {key : String}
    {r : Record α} (h : (changes.foldl Staging.carry records).find? key = some r) :
    (key, r) ∈ written changes ∨
      records.find? key = some r ∧ ∀ change ∈ changes, change.1 ≠ key := by
  by_cases htouched : ∀ change ∈ changes, change.1 ≠ key
  · rw [find?_replay_of_untouched records htouched] at h
    exact .inr ⟨h, htouched⟩
  · -- the last change of the key left the record
    left
    rw [mem_written]
    induction changes generalizing records with
    | nil => simp at htouched
    | cons change rest ih =>
      by_cases hrest : ∀ change ∈ rest, change.1 ≠ key
      · rw [List.foldl_cons, find?_replay_of_untouched _ hrest, Staging.find?_carry] at h
        have hkey : change.1 = key := by
          by_contra hne
          exact htouched (List.forall_mem_cons.2 ⟨hne, hrest⟩)
        rw [if_pos hkey.symm] at h
        rw [← hkey, ← h]
        exact List.mem_cons_self
      · exact List.mem_cons_of_mem _ (ih h hrest)

/-! ## §3 States that come from each other -/

/-- The state `m` comes from `m₀` by the changes, and the writes among them have the etags after the
last one of `m₀`. -/
structure Evolved (m₀ m : Memory α) (changes : List (Change α)) : Prop where
  records : m.records = changes.foldl Staging.carry m₀.records
  lastEtag : m.lastEtag.value = m₀.lastEtag.value + UInt64.ofNat (written changes).length
  etags : ∀ n key r, (written changes)[n]? = some (key, r) →
    r.etag.value = m₀.lastEtag.value + UInt64.ofNat (n + 1)

theorem evolved_refl (m : Memory α) : Evolved m m [] where
  records := rfl
  lastEtag := by simp [written]
  etags := by simp [written]

/-- One more write has the next etag. -/
theorem evolved_write {m₀ m : Memory α} {changes : List (Change α)} (h : Evolved m₀ m changes)
    (key : String) (content : Content α) (metadata : Metadata) :
    Evolved m₀ (m.write key content metadata)
      (changes ++ [(key, some ⟨content, m.lastEtag.next, metadata⟩)]) := by
  have hnext : m.lastEtag.next.value =
      m₀.lastEtag.value + UInt64.ofNat ((written changes).length + 1) := by
    simp only [Etag.next, h.lastEtag, UInt64.ofNat_add]
    exact UInt64.add_assoc _ _ _
  have hwritten : written (changes ++ [(key, some ⟨content, m.lastEtag.next, metadata⟩)]) =
      written changes ++ [(key, ⟨content, m.lastEtag.next, metadata⟩)] := written_append _ _
  refine ⟨?_, ?_, ?_⟩
  · simp only [List.foldl_append, List.foldl_cons, List.foldl_nil, ← h.records]
    rfl
  · rw [hwritten, List.length_append]
    exact hnext
  · -- an entry of before, this one, or none
    intro n k r hentry
    rw [hwritten] at hentry
    rcases Nat.lt_trichotomy n (written changes).length with hn | hn | hn
    · rw [List.getElem?_append_left hn] at hentry
      exact h.etags n k r hentry
    · subst hn
      rw [List.getElem?_concat_length] at hentry
      cases hentry
      exact hnext
    · rw [List.getElem?_eq_none (by rw [List.length_append]; exact hn)] at hentry
      cases hentry

theorem evolved_erase {m₀ m : Memory α} {changes : List (Change α)} (h : Evolved m₀ m changes)
    (key : String) : Evolved m₀ (m.erase key) (changes ++ [(key, none)]) := by
  have hwritten : written (changes ++ [(key, none)]) = written changes := by simp [written]
  refine ⟨?_, ?_, ?_⟩
  · simp only [List.foldl_append, List.foldl_cons, List.foldl_nil, ← h.records]
    rfl
  · rw [hwritten]
    exact h.lastEtag
  · rw [hwritten]
    exact h.etags

/-- Versions have nothing to do with etags. -/
theorem evolved_version {m₀ m : Memory α} {changes : List (Change α)} (h : Evolved m₀ m changes)
    (version : UInt64) : Evolved m₀ { m with lastVersion := version } changes :=
  ⟨h.records, h.lastEtag, h.etags⟩

/-- Only so many etags are given out as there are writes. -/
theorem etag_after {etag : Etag} {first : Etag} {n bound : Nat}
    (h : etag.value = first.value + UInt64.ofNat n) (hn : n ≤ bound)
    (hbound : first.value.toNat + bound < 2 ^ 64) : etag.value.toNat = first.value.toNat + n := by
  rw [h, UInt64.toNat_add, UInt64.toNat_ofNat', Nat.add_mod_mod, Nat.mod_eq_of_lt (by omega)]

namespace Evolved

variable {m₀ m : Memory α} {changes : List (Change α)}

theorem toNat_lastEtag (h : Evolved m₀ m changes)
    (hbound : m₀.lastEtag.value.toNat + (written changes).length < 2 ^ 64) :
    m.lastEtag.value.toNat = m₀.lastEtag.value.toNat + (written changes).length :=
  etag_after h.lastEtag (Nat.le_refl _) hbound

theorem toNat_etag (h : Evolved m₀ m changes)
    (hbound : m₀.lastEtag.value.toNat + (written changes).length < 2 ^ 64) {n : Nat} {key : String}
    {r : Record α} (hentry : (written changes)[n]? = some (key, r)) :
    r.etag.value.toNat = m₀.lastEtag.value.toNat + (n + 1) :=
  etag_after (h.etags n key r hentry) (List.getElem?_eq_some_iff.1 hentry).1 hbound

/-- What is written later has a larger etag. -/
theorem lastEtag_lt (h : Evolved m₀ m changes)
    (hbound : m₀.lastEtag.value.toNat + (written changes).length < 2 ^ 64)
    {entry : String × Record α} (hentry : entry ∈ written changes) :
    m₀.lastEtag.value < entry.2.etag.value := by
  obtain ⟨n, hn⟩ := List.mem_iff_getElem?.1 hentry
  have hetag := h.toNat_etag hbound hn
  rw [UInt64.lt_iff_toNat_lt]
  omega

end Evolved

/-! ## §4 The etags of one state -/

/-- No two records have the same etag, and none has one that was not given out yet. -/
structure Tagged (m : Memory α) : Prop where
  distinct : ∀ key key' r r', m.records.find? key = some r → m.records.find? key' = some r' →
    r.etag = r'.etag → key = key'
  bounded : ∀ key r, m.records.find? key = some r → r.etag.value ≤ m.lastEtag.value

/-- Every record of a store that was empty once was written since. -/
theorem written_of_find? {m : Memory α} {changes : List (Change α)} (h : Evolved {} m changes)
    {key : String} {r : Record α} (hread : m.records.find? key = some r) :
    (key, r) ∈ written changes := by
  rw [h.records] at hread
  rcases written_or_untouched hread with hwritten | ⟨habsent, -⟩
  · exact hwritten
  · cases habsent

theorem tagged_of_evolved {m : Memory α} {changes : List (Change α)} (h : Evolved {} m changes)
    (hbound : (written changes).length < 2 ^ 64) : Tagged m := by
  have hbound' : ({} : Memory α).lastEtag.value.toNat + (written changes).length < 2 ^ 64 := by
    simpa using hbound
  refine ⟨fun key key' r r' hread hread' hetag => ?_, fun key r hread => ?_⟩
  · obtain ⟨n, hn⟩ := List.mem_iff_getElem?.1 (written_of_find? h hread)
    obtain ⟨n', hn'⟩ := List.mem_iff_getElem?.1 (written_of_find? h hread')
    have hvalue := h.toNat_etag hbound' hn
    have hvalue' := h.toNat_etag hbound' hn'
    -- the same etag is that of the same write
    obtain rfl : n = n' := by
      rw [hetag] at hvalue
      omega
    rw [hn] at hn'
    cases hn'
    rfl
  · obtain ⟨n, hn⟩ := List.mem_iff_getElem?.1 (written_of_find? h hread)
    have hvalue := h.toNat_etag hbound' hn
    have hlast := h.toNat_lastEtag hbound'
    have hlength := (List.getElem?_eq_some_iff.1 hn).1
    rw [UInt64.le_iff_toNat_le]
    omega

/-! ## §5 Runs -/

variable (kind : ItemKind) (localId : String)

/-- From a state on, a store and one that lists its changes do the same, and what is listed since
then tells how the state came about. -/
theorem logged_alike (m₀ : Memory α) (changes₀ : List (Change α)) :
    Backend.Alike (overlayBackend kind localId : Backend (Memory α) (Staging α ω) α ω)
      (overlayBackend kind localId).logged (fun _ => True)
      (fun m s => s.1 = m ∧ ∃ changes, s.2 = changes₀ ++ changes ∧ Evolved m₀ m changes)
      (fun t s => s.1 = t ∧ ∃ changes, s.2 = changes₀ ++ changes ∧ Evolved m₀ t.commit changes) where
  kind := rfl
  localId := rfl
  start := by
    rintro m ⟨_, _⟩ ⟨rfl, changes, rfl, h⟩
    exact ⟨_, _, rfl, rfl, rfl, changes, rfl, h⟩
  finish := by
    rintro t ⟨_, _⟩ ⟨rfl, changes, rfl, h⟩
    exact ⟨_, _, _, rfl, rfl, rfl, changes, rfl, h⟩
  read := by
    rintro key t ⟨_, _⟩ ⟨rfl, changes, rfl, h⟩
    exact .ok (fun r _ => r.fits_any) ⟨rfl, changes, rfl, h⟩
  write := by
    rintro key content metadata - t ⟨_, _⟩ ⟨rfl, changes, rfl, h⟩
    refine .ok trivial ⟨rfl, _, List.append_assoc _ _ _, ?_⟩
    rw [Staging.commit_write]
    exact evolved_write h key content metadata
  erase := by
    rintro key t ⟨_, _⟩ ⟨rfl, changes, rfl, h⟩
    refine .ok trivial ⟨rfl, _, List.append_assoc _ _ _, ?_⟩
    rw [Staging.commit_erase]
    exact evolved_erase h key
  nextVersion := by
    rintro t ⟨_, _⟩ ⟨rfl, changes, rfl, h⟩
    exact .ok trivial ⟨rfl, changes, rfl, evolved_version h _⟩
  enqueue := by
    rintro action t ⟨_, _⟩ ⟨rfl, changes, rfl, h⟩
    exact ⟨rfl, changes, rfl, h⟩

/-- The store that lists its changes runs like the one that does not. -/
theorem runAll_logged (turns : List (Turn α ω)) (m : Memory α) (changes : List (Change α)) (w : ω) :
    ∃ later, (Turn.runAll (overlayBackend kind localId).logged turns ((m, changes), w)).2 =
        (((Turn.runAll (overlayBackend kind localId) turns (m, w)).2.1, changes ++ later),
          (Turn.runAll (overlayBackend kind localId) turns (m, w)).2.2) ∧
      Evolved m (Turn.runAll (overlayBackend kind localId) turns (m, w)).2.1 later := by
  have hstart : (m, changes).1 = m ∧ ∃ later, (m, changes).2 = changes ++ later ∧ Evolved m m later :=
    ⟨rfl, [], (List.append_nil _).symm, evolved_refl m⟩
  obtain ⟨-, ⟨hstore, later, hlater, hevolved⟩, hworld⟩ :=
    (logged_alike kind localId m changes).runAll_eq (fun turn (_ : turn ∈ turns) => turn.uses_any) hstart w
  exact ⟨later, Prod.ext (Prod.ext hstore hlater) hworld.symm, hevolved⟩

variable (turns : List (Turn α ω)) (w : ω)

/-- What a store that was empty holds after the first `n` transactions. -/
def stored (n : Nat) : Memory α :=
  (Turn.runAll (overlayBackend kind localId) (turns.take n) ({}, w)).2.1

/-- What the first `n` transactions wrote and removed, those that failed apart. -/
def changed (n : Nat) : List (Change α) :=
  (Turn.runAll (overlayBackend kind localId).logged (turns.take n) (({}, []), w)).2.1.2

/-- Between any two committed states the listed changes make the later one of the earlier one. -/
theorem evolved_between {i j : Nat} (hij : i ≤ j) :
    ∃ later, changed kind localId turns w j = changed kind localId turns w i ++ later ∧
      Evolved (stored kind localId turns w i) (stored kind localId turns w j) later := by
  obtain ⟨rest, hsplit⟩ : ∃ rest, turns.take j = turns.take i ++ rest := by
    refine ⟨(turns.take j).drop i, ?_⟩
    conv_lhs => rw [← List.take_append_drop i (turns.take j), List.take_take, Nat.min_eq_left hij]
  obtain ⟨changes, hfirst, -⟩ := runAll_logged kind localId (turns.take i) ({} : Memory α) [] w
  obtain ⟨later, hrest, hevolved⟩ := runAll_logged kind localId rest
    (stored kind localId turns w i) changes
    (Turn.runAll (overlayBackend kind localId) (turns.take i) ({}, w)).2.2
  refine ⟨later, ?_, ?_⟩
  · have hchanged : changed kind localId turns w i = changes := by rw [changed, hfirst]; rfl
    rw [hchanged, changed, hsplit, Turn.runAll_append, hfirst]
    exact congrArg (·.1.2) hrest
  · have hstored : stored kind localId turns w j = (Turn.runAll (overlayBackend kind localId) rest
        (Turn.runAll (overlayBackend kind localId) (turns.take i) ({}, w)).2).2.1 := by
      rw [stored, hsplit, Turn.runAll_append]
    rw [hstored]
    exact hevolved

theorem evolved_changed (n : Nat) :
    Evolved {} (stored kind localId turns w n) (changed kind localId turns w n) := by
  obtain ⟨later, hlater, hevolved⟩ := evolved_between kind localId turns w (Nat.zero_le n)
  rw [hlater]
  exact hevolved

/-- No part of a history writes more than the whole. -/
theorem length_written_le (n : Nat) :
    (written (changed kind localId turns w n)).length ≤
      (written (changed kind localId turns w turns.length)).length := by
  rcases Nat.le_total n turns.length with hn | hn
  · obtain ⟨later, hlater, -⟩ := evolved_between kind localId turns w hn
    rw [hlater, written_append, List.length_append]
    omega
  · have hsame : changed kind localId turns w n = changed kind localId turns w turns.length := by
      rw [changed, changed, List.take_of_length_le hn, List.take_length]
    exact Nat.le_of_eq (by rw [hsame])

/-- What is written after a state that is reached has larger etags than the records there. -/
theorem etag_lt_of_later
    (hcount : (written (changed kind localId turns w turns.length)).length < 2 ^ 64) {i j : Nat}
    {later : List (Change α)}
    (hlater : changed kind localId turns w j = changed kind localId turns w i ++ later)
    (hevolved : Evolved (stored kind localId turns w i) (stored kind localId turns w j) later)
    {key : String} {r : Record α} (hread : (stored kind localId turns w i).records.find? key = some r)
    {entry : String × Record α} (hentry : entry ∈ written later) :
    r.etag.value < entry.2.etag.value := by
  have hfirst := evolved_changed kind localId turns w i
  have hi := length_written_le kind localId turns w i
  have hj := length_written_le kind localId turns w j
  have hlast := hfirst.toNat_lastEtag (by simpa using Nat.lt_of_le_of_lt hi hcount)
  have hzero : ({} : Memory α).lastEtag.value.toNat = 0 := rfl
  rw [hlater, written_append, List.length_append] at hj
  have hlt := hevolved.lastEtag_lt (by omega) hentry
  have hle := (tagged_of_evolved hfirst (Nat.lt_of_le_of_lt hi hcount)).bounded key r hread
  exact UInt64.lt_of_le_of_lt hle hlt

/-- If fewer than 2^64 writes are committed, then at every committed state the etags are distinct
and none is larger than the last one, every write that is committed later has a larger etag than any
record there, and a key that has a record with the same etag at two committed states has the same
record at both: it had it all the time, and no committed change was about the key. -/
theorem etag_names_version
    (hcount : (written (changed kind localId turns w turns.length)).length < 2 ^ 64) :
    (∀ n, Tagged (stored kind localId turns w n)) ∧
      (∀ i j key r entry, i ≤ j → (stored kind localId turns w i).records.find? key = some r →
        entry ∈ written ((changed kind localId turns w j).drop
          (changed kind localId turns w i).length) →
        r.etag.value < entry.2.etag.value) ∧
      (∀ i j key r r', i ≤ j → (stored kind localId turns w i).records.find? key = some r →
        (stored kind localId turns w j).records.find? key = some r' → r.etag = r'.etag →
        r = r' ∧
          (∀ change ∈ (changed kind localId turns w j).drop
            (changed kind localId turns w i).length, change.1 ≠ key) ∧
          ∀ n, i ≤ n → n ≤ j → (stored kind localId turns w n).records.find? key = some r) := by
  refine ⟨fun n => ?_, fun i j key r entry hij hread hentry => ?_,
    fun i j key r r' hij hread hread' hetag => ?_⟩
  · -- one state
    exact tagged_of_evolved (evolved_changed kind localId turns w n)
      (Nat.lt_of_le_of_lt (length_written_le kind localId turns w n) hcount)
  · obtain ⟨later, hlater, hevolved⟩ := evolved_between kind localId turns w hij
    rw [hlater, List.drop_left] at hentry
    exact etag_lt_of_later kind localId turns w hcount hlater hevolved hread hentry
  · -- two states, and all between them
    obtain ⟨later, hlater, hevolved⟩ := evolved_between kind localId turns w hij
    rw [hevolved.records] at hread'
    rcases written_or_untouched hread' with hwritten | ⟨hbefore, huntouched⟩
    · -- a record that was written meanwhile would have a larger etag
      have hlt := etag_lt_of_later kind localId turns w hcount hlater hevolved hread hwritten
      rw [hetag] at hlt
      exact absurd hlt (UInt64.lt_irrefl _)
    · obtain rfl : r = r' := Option.some.inj (hread.symm.trans hbefore)
      refine ⟨rfl, ?_, fun n hin hnj => ?_⟩
      · rw [hlater, List.drop_left]
        exact huntouched
      · obtain ⟨first, hfirst, hevolved'⟩ := evolved_between kind localId turns w hin
        obtain ⟨second, hsecond, -⟩ := evolved_between kind localId turns w hnj
        have hparts : later = first ++ second := by
          rw [hsecond, hfirst, List.append_assoc] at hlater
          exact (List.append_cancel_left hlater).symm
        rw [hevolved'.records, find?_replay_of_untouched]
        · exact hread
        · intro change hchange
          exact huntouched change (hparts ▸ List.mem_append_left _ hchange)

/-- `k` is stored. A transaction that replaces it fails, and another one writes `l` with the etag
that the failed one had given to `k`. -/
def replacementFails : List (Turn String Unit) :=
  [.session [.call (.put "k" none (.ofId "a" 1) "k1")] true,
    .session [.call (.remove "k" none), .call (.put "k" none (.ofId "a" 2) "k2")] false,
    .session [.call (.put "l" none (.ofId "a" 2) "l1")] true]

/-- The first and the last state have the same record of `k`, and nothing touched it. -/
theorem k_untouched_by_failure :
    (stored .document "L" replacementFails () 1).records.find? "k" =
        some ⟨.data "k1", ⟨1⟩, .ofId "a" 1⟩ ∧
      (stored .document "L" replacementFails () 3).records.find? "l" =
        some ⟨.data "l1", ⟨2⟩, .ofId "a" 2⟩ ∧
      Tagged (stored .document "L" replacementFails () 3) ∧
      ∀ n, 1 ≤ n → n ≤ 3 → (stored .document "L" replacementFails () n).records.find? "k" =
        some ⟨.data "k1", ⟨1⟩, .ofId "a" 1⟩ := by
  have hfirst : (stored .document "L" replacementFails () 1).records.find? "k" =
      some ⟨.data "k1", ⟨1⟩, .ofId "a" 1⟩ := by decide +kernel
  have hlast : (stored .document "L" replacementFails () 3).records.find? "k" =
      some ⟨.data "k1", ⟨1⟩, .ofId "a" 1⟩ := by decide +kernel
  obtain ⟨htagged, -, hsame⟩ :=
    etag_names_version .document "L" replacementFails () (by decide +kernel)
  exact ⟨hfirst, by decide +kernel, htagged 3, (hsame 1 3 "k" _ _ (by decide) hfirst hlast rfl).2.2⟩

end Memory

end ReplicaIntake
