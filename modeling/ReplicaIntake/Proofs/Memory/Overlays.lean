import ReplicaIntake.Proofs.LockstepRuns
import ReplicaIntake.Store.Overlay

/-!
# Staged changes are the changes

A transaction that stages its changes sees, under every key, the record that is there once the
changes are carried over (`Staging.find?_commit`). So it may be thought of as working on a copy of
the whole state: staging a change and carrying it over is making the change (`Staging.commit_write`,
`Staging.commit_erase`), and what comes of a use of the store is the same (`overlay_runAll`).
-/

namespace ReplicaIntake.Memory

variable {α ω : Type}

open Op

/-! ## §1 Carrying changes over -/

namespace Staging

theorem find?_carry (records : KeyMap (Record α)) (change : String × Option (Record α)) (q : String) :
    (carry records change).find? q = if q = change.1 then change.2 else records.find? q := by
  obtain ⟨key, _ | record⟩ := change
  · exact records.find?_erase key q
  · exact records.find?_insert key record q

/-- Of changes under different keys, the one that is listed for a key decides. -/
theorem find?_foldl_carry {changes : List (String × Option (Record α))} (hasc : Ascending changes)
    (records : KeyMap (Record α)) (q : String) :
    (changes.foldl carry records).find? q = (changes.lookup q).getD (records.find? q) := by
  induction changes generalizing records with
  | nil => rfl
  | cons change rest ih =>
    obtain ⟨hlater, hrest⟩ := List.pairwise_cons.1 hasc
    rw [List.foldl_cons, ih hrest, find?_carry, lookup_cons_ite]
    by_cases hq : q = change.1
    · -- no later change is about this key
      rw [hq, KeyMap.lookup_eq_none_of_lt hlater]
      simp
    · simp [hq]

theorem read_eq (t : Staging α ω) (key : String) :
    t.read key = (t.overlay.find? key).getD (t.committed.records.find? key) := by
  unfold read
  cases t.overlay.find? key <;> rfl

/-- A commit leaves under every key what the transaction saw there. -/
theorem find?_commit (t : Staging α ω) (key : String) : t.commit.records.find? key = t.read key :=
  (find?_foldl_carry t.overlay.ascending _ key).trans (t.read_eq key).symm

/-! ## §2 Staged changes -/

theorem read_write (t : Staging α ω) (key : String) (content : Content α) (metadata : Metadata)
    (q : String) :
    (t.write key content metadata).read q =
      if q = key then some ⟨content, t.lastEtag.next, metadata⟩ else t.read q := by
  by_cases hq : q = key <;> simp [read, Staging.write, KeyMap.find?_insert, hq]

theorem read_erase (t : Staging α ω) (key q : String) :
    (t.erase key).read q = if q = key then none else t.read q := by
  by_cases hq : q = key <;> simp [read, Staging.erase, KeyMap.find?_insert, hq]

theorem commit_write (t : Staging α ω) (key : String) (content : Content α) (metadata : Metadata) :
    (t.write key content metadata).commit = t.commit.write key content metadata := by
  have hrecords : (t.write key content metadata).commit.records =
      (t.commit.write key content metadata).records := by
    refine KeyMap.ext_find? fun q => ?_
    rw [find?_commit, read_write, ← find?_commit]
    exact (KeyMap.find?_insert _ _ _ _).symm
  exact congrArg (Memory.mk · _ _) hrecords

theorem commit_erase (t : Staging α ω) (key : String) :
    (t.erase key).commit = t.commit.erase key := by
  have hrecords : (t.erase key).commit.records = (t.commit.erase key).records := by
    refine KeyMap.ext_find? fun q => ?_
    rw [find?_commit, read_erase, ← find?_commit]
    exact (KeyMap.find?_erase _ _ _).symm
  exact congrArg (Memory.mk · _ _) hrecords

/-- The transaction that has made the staged changes in a copy of the state. -/
def made (t : Staging α ω) : Transaction α ω := ⟨t.commit, t.pending⟩

end Staging

/-! ## §3 Whole histories -/

/-- A store that stages its changes does what one that copies its state does. -/
theorem overlay_alike (kind : ItemKind) (localId : String) :
    Backend.Alike (overlayBackend kind localId : Backend (Memory α) (Staging α ω) α ω)
      (backend kind localId) (fun _ => True) Eq (fun t t' => t.made = t') where
  kind := rfl
  localId := rfl
  start := by
    rintro m _ rfl
    exact ⟨_, _, rfl, rfl, rfl⟩
  finish := by
    rintro t _ rfl
    exact ⟨_, _, _, rfl, rfl, rfl⟩
  read := by
    rintro key t _ rfl
    have hread : (backend kind localId).read key t.made = .ok (t.read key) t.made :=
      congrArg (EStateM.Result.ok · _) (t.find?_commit key)
    rw [hread]
    exact .ok (fun r _ => r.fits_any) rfl
  write := by
    rintro key content metadata - t _ rfl
    exact .ok trivial (congrArg (Transaction.mk · _) (t.commit_write key content metadata))
  erase := by
    rintro key t _ rfl
    exact .ok trivial (congrArg (Transaction.mk · _) (t.commit_erase key))
  nextVersion := by
    rintro t _ rfl
    exact .ok trivial rfl
  enqueue := by
    rintro action t _ rfl
    rfl

/-- The same history gets the same replies, and leaves the same records, counts and world, whether
transactions stage their changes or make them in a copy of the state. -/
theorem overlay_runAll (kind : ItemKind) (localId : String) (turns : List (Turn α ω))
    (s : Memory α × ω) :
    Turn.runAll (overlayBackend kind localId) turns s =
      Turn.runAll (backend kind localId) turns s := by
  obtain ⟨m, w⟩ := s
  obtain ⟨hreplies, hstore, hworld⟩ := (overlay_alike kind localId).runAll_eq
    (fun turn _ => turn.uses_any) (rfl : m = m) w
  exact Prod.ext hreplies (Prod.ext hstore hworld)

end ReplicaIntake.Memory
