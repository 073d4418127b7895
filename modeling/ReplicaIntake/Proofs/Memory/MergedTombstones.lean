import ReplicaIntake.Proofs.Memory.Redeliveries

/-!
# What a merged tombstone remembers

A deletion that meets a tombstone is merged with it. The entries that the incoming deletion brings,
with itself as the newest, are all kept, and of those that only the stored tombstone knows the
newest ones as far as there is room (`Lineage.merge_eq`). The stored deletion is the newest of
these. So it is remembered if the incoming entries leave any room, and forgotten if they fill the
bound and do not cover it.

- `merged_deletions_replayed_iff`: the incoming deletion is always remembered; copies of both
  deletions are replays from then on exactly if the stored one is covered too, and when that is so.
- `full_merge_forgets_stored`: two entries that come with a deletion push the stored deletion out of
  a lineage of two.
-/

namespace ReplicaIntake.Memory

variable {α ω : Type} {kind : ItemKind} {localId key : String} {i : Intake α ω} {m m' : Memory α}
  {w w' : ω} {metadata : Metadata} {payload : Option α} {stored r : Record α}
  {id current gone : WriteId} {notes : List Notification}

/-! ## §1 Deliveries that are merged -/

/-- Two deletions have been merged only if the stored one is a different one, and then a tombstone
under the identity of the incoming one takes its place. -/
theorem stored_of_merged (hread : m.records.find? key = some stored)
    (hid : metadata.identity = some id)
    (htaken : Taken i kind localId key m w metadata payload (.ok .historiesMerged) m' notes w') :
    stored.metadata.identity ≠ some id ∧ ∃ r, m'.records.find? key = some r ∧
      r.content = .tombstone ∧
      r.metadata = i.mergedTombstone (i.arrived metadata stored.metadata) stored.metadata := by
  cases htaken with
  | met hread' _ hmet =>
    obtain rfl := Option.some.inj (hread.symm.trans hread')
    cases hmet with
    | merged _ hunknown _ _ =>
      refine ⟨?_, _, find?_write .. |>.trans (if_pos rfl), rfl, rfl⟩
      intro hsame
      rw [knows_of_same (by simpa using hid) hsame] at hunknown
      cases hunknown
    -- a policy and a contention answer otherwise
    | settled _ _ hsettled => cases hsettled
    | declined _ _ hcontended => cases hcontended
    | disputed _ _ _ hcontended => cases hcontended

/-- The lineage of a merged tombstone, in terms of the incoming lineage with the incoming deletion
as its newest entry. -/
theorem lineage_mergedTombstone (hmax : 0 < i.config.maxHistory) (hid : metadata.identity = some id)
    (existing : Metadata) :
    let newest := metadata.lineage.append id i.config.maxHistory
    (i.mergedTombstone (i.arrived metadata existing) existing).lineage =
      Lineage.kept newest (existing.lineage ++ existing.identity.toList) i.config.maxHistory ++
        Lineage.distinct newest := by
  intro newest
  -- the incoming lineage has been bounded before, which drops nothing that would be kept here
  have hnewest : (metadata.lineage.bound i.config.maxHistory).append id i.config.maxHistory =
      newest := by
    rw [Lineage.append_eq _ _ hmax, Lineage.bound_bound _ (Nat.sub_le _ _),
      ← Lineage.append_eq _ _ hmax]
  simp only [Intake.mergedTombstone, Intake.lineage_arrived, Intake.identity_arrived, hid,
    Option.toList_some]
  rw [Lineage.merge_eq, ← hnewest, Lineage.append]

/-! ## §2 Copies of the two deletions -/

/-- A tombstone knows of the deletions the one that it is and those that its lineage covers. -/
theorem tombstone_knows_iff {arrived : Metadata} (hcontent : r.content = .tombstone)
    (hid : r.metadata.identity = some id) (hdelete : arrived.deleted = true)
    (hgone : arrived.identity = some gone) :
    m.knows r arrived = true ↔ gone = id ∨ r.metadata.lineage.covers gone = true := by
  have hsides : m.holdsSide r arrived = false := by
    simp [holdsSide, Record.sides, Record.marker?, hcontent]
  have hsame : r.metadata.sameIdentity arrived = decide (gone = id) := by
    rw [Metadata.sameIdentity_of_some hgone, hid]
    by_cases heq : gone = id
    · simp [heq]
    · simp [heq, Ne.symm heq]
  simp [knows, hsame, hsides, hdelete, hgone]

/-- A write is answered as a replay only if it is known. -/
theorem known_of_replayed
    (hmet : Met i kind localId key m w metadata payload r (.ok .replayed) m' notes w') :
    m.knows r (i.arrived metadata r.metadata) = true := by
  cases hmet with
  | replayed hknown => exact hknown
  | settled _ _ hsettled => cases hsettled
  | declined _ _ hcontended => cases hcontended
  | disputed _ _ _ hcontended => cases hcontended

/-- A deletion is answered as a replay by a tombstone that knows it, which is then left as it is. -/
theorem replayed_iff {s : Memory α × ω} (hread : s.1.records.find? key = some r)
    (hcontent : r.content = .tombstone) (hid : r.metadata.identity = some id)
    (hdelete : metadata.deleted = true) (hgone : metadata.identity = some gone) :
    (Command.replicate i key metadata payload).run (backend kind localId) s =
        (.outcome (.ok .replayed), s) ↔
      gone = id ∨ r.metadata.lineage.covers gone = true := by
  have hknows : s.1.knows r (i.arrived metadata r.metadata) = true ↔
      gone = id ∨ r.metadata.lineage.covers gone = true :=
    tombstone_knows_iff hcontent hid (by simpa using hdelete) (by simpa using hgone)
  obtain ⟨result, m', notes, w', htaken, hrun⟩ :=
    run_replicate kind localId i key metadata payload s
  have hmet := taken_of_read hread (by simp [hgone]) (by simp [hdelete]) htaken
  rw [← hknows]
  constructor
  · intro hreplayed
    rw [hrun] at hreplayed
    obtain rfl := Reply.outcome.inj (congrArg Prod.fst hreplayed)
    exact known_of_replayed hmet
  · intro hknown
    obtain ⟨rfl, rfl, rfl, rfl⟩ := met_of_known hknown hmet
    exact hrun

/-- The use delivers a copy of one of the two deletions. -/
def Redelivers (key : String) (id current : WriteId) : Command α ω → Prop
  | .replicate _ q copy _ =>
    q = key ∧ copy.deleted = true ∧ (copy.identity = some id ∨ copy.identity = some current)
  | _ => False

/-- Copies of both deletions are answered as replays, as often and in whatever order they come, by a
tombstone of the one of them that covers the other. -/
theorem redelivered_replayed {s : Memory α × ω} (hread : s.1.records.find? key = some r)
    (hcontent : r.content = .tombstone) (hid : r.metadata.identity = some id)
    (hcovers : r.metadata.lineage.covers current = true) {copies : List (Command α ω)}
    (hcopies : ∀ command ∈ copies, Redelivers key id current command) :
    Command.runAll (backend kind localId) copies s =
      (List.replicate copies.length (.outcome (.ok .replayed)), s) := by
  -- each copy finds the store as the first one does
  induction copies with
  | nil => rfl
  | cons command rest ih =>
    have hfirst : command.run (backend kind localId) s = (.outcome (.ok .replayed), s) := by
      have hcopy := hcopies command List.mem_cons_self
      cases command with
      | replicate intake q copy payload =>
        obtain ⟨rfl, hdelete, hgone | hgone⟩ := hcopy
        · exact (replayed_iff hread hcontent hid hdelete hgone).2 (.inl rfl)
        · exact (replayed_iff hread hcontent hid hdelete hgone).2 (.inr hcovers)
      | _ => exact hcopy.elim
    have hrest := ih fun c hc => hcopies c (List.mem_cons_of_mem _ hc)
    rw [Command.runAll, hfirst]
    simp only [hrest, List.length_cons, List.replicate_succ]

/-! ## §3 Two merged deletions -/

/-- When a deletion has been merged with a stored one, a tombstone under its identity lists it and
the newest entries that it came with, and of those that only the stored deletion knows as many as
fit, that deletion as the newest. So the stored one is covered if there is room beside the incoming
entries, unless its own lineage lists it as another entry than the newest; and if there is none, it
is covered exactly if they cover it. Copies of both deletions, delivered any number of times and in
any order through whatever intakes, are replays that change nothing exactly if the stored one is
covered. -/
theorem merged_deletions_replayed_iff (kind : ItemKind) (localId : String) {i : Intake α ω}
    (hmax : 0 < i.config.maxHistory) {key : String} {s : Memory α × ω} {stored : Record α}
    {metadata : Metadata} {payload : Option α} {current id : WriteId}
    (hread : s.1.records.find? key = some stored)
    (hcurrent : stored.metadata.identity = some current) (hid : metadata.identity = some id)
    (hmerged : ((Command.replicate i key metadata payload).run (backend kind localId) s).1 =
      .outcome (.ok .historiesMerged)) :
    let after := ((Command.replicate i key metadata payload).run (backend kind localId) s).2
    let newest := metadata.lineage.append id i.config.maxHistory
    let room := i.config.maxHistory - (Lineage.distinct newest).length
    ∃ r, after.1.records.find? key = some r ∧ r.content = .tombstone ∧
      r.metadata.identity = some id ∧
      r.metadata.lineage = Lineage.kept newest (stored.metadata.lineage ++ [current])
        i.config.maxHistory ++ Lineage.distinct newest ∧
      r.metadata.lineage.covers id = true ∧
      (0 < room → current ∉ stored.metadata.lineage.dropLast →
        r.metadata.lineage.covers current = true) ∧
      (room = 0 → (r.metadata.lineage.covers current = true ↔ newest.covers current = true)) ∧
      ((∀ copies : List (Command α ω), (∀ command ∈ copies, Redelivers key id current command) →
          Command.runAll (backend kind localId) copies after =
            (List.replicate copies.length (.outcome (.ok .replayed)), after)) ↔
        r.metadata.lineage.covers current = true) := by
  intro after newest room
  obtain ⟨result, m', notes, w', htaken, hrun⟩ :=
    run_replicate kind localId i key metadata payload s
  rw [hrun] at hmerged
  obtain rfl := Reply.outcome.inj hmerged
  have hstore : after = committed i s.1 m' notes w' (.ok .historiesMerged) := congrArg Prod.snd hrun
  obtain ⟨hne, r, hr, hcontent, hmetadata⟩ := stored_of_merged hread hid htaken
  have hstored : after.1.records.find? key = some r := by
    rw [hstore]
    exact hr
  have hidentity : r.metadata.identity = some id := by
    rw [hmetadata]
    exact (Intake.identity_arrived ..).trans hid
  have hlineage : r.metadata.lineage = Lineage.kept newest (stored.metadata.lineage ++ [current])
      i.config.maxHistory ++ Lineage.distinct newest := by
    rw [hmetadata, lineage_mergedTombstone hmax hid, hcurrent, Option.toList_some]
  have hcovers : ∀ e, r.metadata.lineage.covers e =
      ((Lineage.kept newest (stored.metadata.lineage ++ [current]) i.config.maxHistory).covers e ||
        newest.covers e) := by
    intro e
    rw [hlineage, Lineage.covers_append, Lineage.covers_distinct]
  refine ⟨r, hstored, hcontent, hidentity, hlineage, ?_, ?_, ?_, ?_⟩
  · -- the incoming deletion is the newest of the entries that it brings
    have hnewest : id ∈ newest := Lineage.mem_append_self _ hmax
    rw [hcovers, Lineage.covers_of_mem hnewest, Bool.or_true]
  · -- with room, the newest that only the stored deletion knows is kept, and that is itself
    intro hroom hunlisted
    rw [hcovers]
    by_cases hbrought : current ∈ newest
    · rw [Lineage.covers_of_mem hbrought, Bool.or_true]
    · have hkept := Lineage.last_mem_kept (Nat.lt_of_sub_pos hroom) hbrought hunlisted
      rw [Lineage.covers_of_mem hkept, Bool.true_or]
  · -- without room, nothing that only the stored deletion knows is kept
    intro hfull
    have hlength : (Lineage.distinct newest).length ≤ i.config.maxHistory :=
      Nat.le_trans (Lineage.length_distinct_le _) (Lineage.length_bound_le _ _)
    have hempty : Lineage.kept newest (stored.metadata.lineage ++ [current]) i.config.maxHistory = [] :=
      Lineage.kept_of_full (Nat.le_antisymm hlength (Nat.sub_eq_zero_iff_le.1 hfull))
    rw [hcovers, hempty]
    rfl
  · constructor
    · intro hreplayed
      -- one copy of the stored deletion is enough to tell
      let copy : Metadata := { Metadata.ofId current.source current.version with deleted := true }
      have hcopy := hreplayed [.replicate i key copy none] (by
        intro command hcommand
        obtain rfl := List.mem_singleton.1 hcommand
        exact ⟨rfl, rfl, .inr rfl⟩)
      obtain ⟨hreply, hstate⟩ := Prod.mk.inj hcopy
      have hrunCopy : (Command.replicate i key copy none).run (backend kind localId) after =
          (.outcome (.ok .replayed), after) := Prod.ext (List.singleton_inj.1 hreply) hstate
      have hanswer := (replayed_iff hstored hcontent hidentity rfl rfl).1 hrunCopy
      exact hanswer.resolve_left fun heq => hne (hcurrent.trans (congrArg some heq))
    · intro hstoredCovered copies hcopies
      exact redelivered_replayed hstored hcontent hidentity hstoredCovered hcopies

/-- A deletion as `source` makes it on top of the given writes. -/
def deletionBy (source : String) (version : UInt64) (lineage : Lineage) : Metadata :=
  { Metadata.ofId source version with deleted := true, lineage }

/-- An intake whose lineages have room for two. -/
def roomForTwo : Intake String Unit := { config := ⟨2⟩ }

/-- `a` has written and deleted its write. -/
def deletedByA : List (Command String Unit) :=
  [.replicate roomForTwo "k" (.ofId "a" 1) (some "a1"),
    .replicate roomForTwo "k" (deletionBy "a" 2 [⟨"a", 1⟩]) none]

/-- What is left of it. -/
theorem held_deletedByA :
    (Command.runAll (backend .document "L") deletedByA ({}, ())).2.1.records.find? "k" =
      some ⟨.tombstone, ⟨2⟩, deletionBy "a" 2 [⟨"a", 1⟩]⟩ := by
  decide +kernel

/-- A deletion by `b` that lists nothing leaves room for the stored deletion. Copies of both are
replays after the merge. -/
theorem room_remembers_stored :
    let merged := ((Command.replicate roomForTwo "k" (deletionBy "b" 1 []) none).run
      (backend .document "L") (Command.runAll (backend .document "L") deletedByA ({}, ())).2).2
    ∀ copies : List (Command String Unit),
      (∀ command ∈ copies, Redelivers "k" ⟨"b", 1⟩ ⟨"a", 2⟩ command) →
      Command.runAll (backend .document "L") copies merged =
        (List.replicate copies.length (.outcome (.ok .replayed)), merged) := by
  have hid : (deletionBy "b" 1 []).identity = some ⟨"b", 1⟩ := rfl
  have hmerged : ((Command.replicate roomForTwo "k" (deletionBy "b" 1 []) none).run
      (backend .document "L") (Command.runAll (backend .document "L") deletedByA ({}, ())).2).1 =
        .outcome (.ok .historiesMerged) := rfl
  obtain ⟨r, -, -, -, -, -, hroom, -, hreplayed⟩ :=
    merged_deletions_replayed_iff .document "L" (by decide) held_deletedByA rfl hid hmerged
  exact hreplayed.2 (hroom (by decide) (by decide))

/-- It is not so that a merged tombstone covers both deletions: two entries that come with a
deletion fill a lineage of two. -/
theorem full_merge_forgets_stored :
    ¬ ∀ (history : List (Command String Unit)) (i : Intake String Unit) (key : String)
        (stored r : Record String) (metadata : Metadata) (current id : WriteId),
      let before := (Command.runAll (backend .document "L") history ({}, ())).2
      let merge := (Command.replicate i key metadata none).run (backend .document "L") before
      2 ≤ i.config.maxHistory → before.1.records.find? key = some stored →
      stored.content = .tombstone → stored.metadata.identity = some current →
      metadata.identity = some id → merge.1 = .outcome (.ok .historiesMerged) →
      merge.2.1.records.find? key = some r →
      r.metadata.lineage.covers id = true ∧ r.metadata.lineage.covers current = true := by
  intro h
  have hcovers := (h deletedByA roomForTwo "k" _
    ⟨.tombstone, ⟨3⟩, { deletionBy "b" 1 [⟨"c", 2⟩, ⟨"b", 1⟩] with mergedLineage := true }⟩
    (deletionBy "b" 1 [⟨"c", 1⟩, ⟨"c", 2⟩]) ⟨"a", 2⟩ ⟨"b", 1⟩ (by decide) held_deletedByA rfl rfl rfl
    rfl (by decide +kernel)).2
  revert hcovers
  decide

end ReplicaIntake.Memory
