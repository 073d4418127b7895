import ReplicaIntake.Proofs.Memory.DistinctSides
import ReplicaIntake.Proofs.Memory.FreshVersions
import ReplicaIntake.Proofs.Memory.MergedTombstones

/-!
# Entries that a lineage lists twice

A local write appends the write that it replaces to what that one listed, without looking whether it
is listed already. For most writes it is not. But a tombstone that two deletions were merged into
lists the deletion whose identity it has, as its newest entry, and a local write over it lists that
deletion twice in a row. The pair stays in the lineages of later local writes until the bound drops
the first of the two, or until something else is stored.

`Doubling` says of a lineage which of these is the case, and `Doubling.along` follows it through a
history, by the uses and their replies alone.

- `lineage_repeats_iff`: after every history of peers that repeat nothing, when a local write lists
  an entry twice, and that none does as long as no deletions have been merged under its key.
- `merged_deletion_listed_twice`: a put over two merged deletions lists the later one twice.
-/

namespace ReplicaIntake

variable {α ω : Type}

/-! ## §1 Doublings -/

/-- Whether a lineage lists a write twice, or will when the next local write is made on top. -/
inductive Doubling where
  /-- Nothing is listed twice, and the write does not list itself. -/
  | clean
  /-- The write lists itself, as its newest entry. -/
  | listsItself
  /-- One entry is listed twice in a row, with so many entries after it. -/
  | twice (newer : Nat)
  deriving DecidableEq

namespace Doubling

/-- Some entry is listed twice. -/
def repeats : Doubling → Bool
  | twice _ => true
  | _ => false

/-- The lineage of a local write on top. A pair is lost when the bound drops the first of the two. -/
def afterWrite (max : Nat) : Doubling → Doubling
  | clean => clean
  | listsItself => if 2 ≤ max then twice 0 else clean
  | twice newer => if newer + 3 ≤ max then twice (newer + 1) else clean

/-- The lineage under a key after taking in a write with the given outcome. Only a merged tombstone
lists itself, if it has an identity and there is room for one entry. -/
def afterIntake (i : Intake α ω) (metadata : Metadata) (d : Doubling) : Outcome → Doubling
  | .created | .overwritten | .deleted => clean
  | .historiesMerged =>
    if 0 < i.config.maxHistory ∧ metadata.identity ≠ none then listsItself else clean
  -- a new marker has no lineage, and one that is there keeps its own
  | .conflict _ isNew => if isNew then clean else d
  | _ => d

/-- The lineage under `key` after a use with the given reply. -/
def next (key : String) (d : Doubling) : Command α ω → Reply α → Doubling
  | .replicate i q metadata _, .outcome (.ok outcome) =>
    if q = key then d.afterIntake i metadata outcome else d
  | .putLocal q _ max, .written (.ok (some _)) => if q = key then d.afterWrite max else d
  | .deleteLocal q max, .written (.ok (some _)) => if q = key then d.afterWrite max else d
  | .resolveLocal q _ _, .written (.ok (some _)) => if q = key then clean else d
  | _, _ => d

/-- The lineage under `key` after a history with the given replies. -/
def along (key : String) (history : List (Command α ω)) (replies : List (Reply α)) : Doubling :=
  (history.zip replies).foldl (fun d use => d.next key use.1 use.2) clean

/-- What there is under a key, if anything, is as the doubling says. -/
inductive Describes : Doubling → Option Metadata → Prop
  | absent : Describes clean none
  | clean {metadata : Metadata} (hnodup : metadata.lineage.Nodup)
      (hself : ∀ id, metadata.identity = some id → id ∉ metadata.lineage) :
    Describes clean (some metadata)
  | listsItself {metadata : Metadata} {older : Lineage} {id : WriteId}
      (hid : metadata.identity = some id) (hlineage : metadata.lineage = older ++ [id])
      (hnodup : metadata.lineage.Nodup) : Describes listsItself (some metadata)
  | twice {metadata : Metadata} {older newer : Lineage} {e id : WriteId}
      (hid : metadata.identity = some id) (hself : id ∉ metadata.lineage)
      (hlineage : metadata.lineage = older ++ e :: e :: newer)
      (honce : (older ++ e :: newer).Nodup) : Describes (twice newer.length) (some metadata)

variable {d : Doubling} {metadata stored : Metadata} {id new : WriteId} {max : Nat}

/-- A lineage has a repetition exactly if it has a pair. -/
theorem Describes.nodup_iff (h : d.Describes (some metadata)) :
    metadata.lineage.Nodup ↔ d.repeats = false := by
  cases h with
  | clean hnodup _ => exact iff_of_true hnodup rfl
  | listsItself _ _ hnodup => exact iff_of_true hnodup rfl
  | twice _ _ hlineage _ =>
    refine iff_of_false ?_ (by simp [repeats])
    rw [hlineage]
    simp [List.nodup_append]

theorem describes_clean (hnodup : stored.lineage.Nodup) (hid : stored.identity = some new)
    (hself : new ∉ stored.lineage) : clean.Describes (some stored) := by
  refine .clean hnodup ?_
  intro id' hid'
  exact Option.some.inj (hid.symm.trans hid') ▸ hself

/-! ## §2 A local write on top -/

section Stamp

/-- Over a write that lists itself, the next one lists it twice, if there is room. -/
theorem describes_append_self {older : Lineage} (hid : stored.identity = some new)
    (hself : new ∉ stored.lineage) (hnodup : (older ++ [id]).Nodup)
    (hlineage : stored.lineage = (older ++ [id] ++ [id]).bound max) :
    (listsItself.afterWrite max).Describes (some stored) := by
  by_cases hroom : 2 ≤ max
  · have hpair : ([id] ++ [id]).length ≤ max := hroom
    rw [afterWrite, if_pos hroom]
    rw [List.append_assoc, Lineage.bound_append older hpair] at hlineage
    refine .twice hid hself hlineage ?_
    exact hnodup.sublist ((List.drop_sublist _ _).append_right _)
  · -- there is room for at most one of the two
    have hone : max ≤ [id].length := by
      rw [List.length_singleton]
      omega
    rw [afterWrite, if_neg hroom]
    refine describes_clean ?_ hid hself
    rw [hlineage, Lineage.bound_append_of_le _ hone]
    exact Lineage.nodup_bound (List.pairwise_singleton _ id) max

/-- A pair is kept below the next write, if there is room. -/
theorem describes_append_pair {older newer : Lineage} {e : WriteId}
    (hid : stored.identity = some new) (hself : new ∉ stored.lineage)
    (honce : (older ++ e :: (newer ++ [id])).Nodup)
    (hlineage : stored.lineage = (older ++ e :: e :: (newer ++ [id])).bound max) :
    ((twice newer.length).afterWrite max).Describes (some stored) := by
  have hlength : (newer ++ [id]).length = newer.length + 1 := by simp
  by_cases hroom : newer.length + 3 ≤ max
  · have hpair : (e :: e :: (newer ++ [id])).length ≤ max := by
      rw [List.length_cons, List.length_cons, hlength]
      omega
    have hafter : (twice newer.length).afterWrite max = twice (newer ++ [id]).length := by
      rw [hlength]
      exact if_pos hroom
    rw [hafter]
    rw [Lineage.bound_append older hpair] at hlineage
    refine .twice hid hself hlineage ?_
    exact honce.sublist ((List.drop_sublist _ _).append_right _)
  · -- the bound drops at least the first of the two
    have hafter : (twice newer.length).afterWrite max = clean := if_neg hroom
    have hrest : max ≤ (e :: (newer ++ [id])).length := by
      rw [List.length_cons, hlength]
      omega
    have hcut : stored.lineage = Lineage.bound (e :: (newer ++ [id])) max := by
      rw [hlineage, ← Lineage.bound_append_of_le (older ++ [e]) hrest, List.append_assoc]
      rfl
    rw [hafter]
    refine describes_clean ?_ hid hself
    rw [hcut]
    exact Lineage.nodup_bound (honce.sublist (List.sublist_append_right _ _)) max

/-- A local write on top of what does not name it is as `afterWrite` says. -/
theorem describes_stamp {previous : Option Metadata} {node : String} {version : UInt64}
    (h : d.Describes previous) (hbefore : ∀ p, previous = some p → p.NamesBefore node version)
    (hid : stored.identity = some ⟨node, version⟩)
    (hstamp : stored.lineage = (Metadata.stamp previous node version max).lineage) :
    (d.afterWrite max).Describes (some stored) := by
  -- the version is new, so the write cannot list itself
  have hself : ∀ p, previous = some p → ⟨node, version⟩ ∉ stored.lineage := by
    rintro p rfl hlisted
    rw [hstamp] at hlisted
    rcases Metadata.mem_of_mem_stamp hlisted with hlisted | hsame
    · exact (hbefore p rfl).unlisted hlisted
    · exact (hbefore p rfl).ne hsame rfl
  -- what replaces a write lists it last, as far as there is room
  have hlast : ∀ p current, previous = some p → p.identity = some current →
      stored.lineage = (p.lineage ++ [current]).bound max := by
    rintro p current rfl hcurrent
    rw [hstamp]
    simp only [Metadata.stamp, hcurrent, Lineage.append]
  cases h with
  | absent =>
    have hnone : stored.lineage = [] := hstamp
    exact describes_clean (by simp [hnone]) hid (by simp [hnone])
  | @clean p hnodup hunlisted =>
    refine describes_clean ?_ hid (hself p rfl)
    cases hcurrent : p.identity with
    | none =>
      rw [hstamp]
      simp only [Metadata.stamp, hcurrent]
      exact Lineage.nodup_bound hnodup max
    | some current =>
      rw [hlast p current rfl hcurrent, ← List.concat_eq_append]
      exact Lineage.nodup_bound (hnodup.concat (hunlisted current hcurrent)) max
  | @listsItself p older current hcurrent hends hnodup =>
    -- the merged deletion ends its own lineage, and is now listed behind that once more
    refine describes_append_self hid (hself p rfl) (hends ▸ hnodup) ?_
    rw [← hends]
    exact hlast p current rfl hcurrent
  | @twice p older newer e current hcurrent hunlisted hpair honce =>
    have hnew : current ∉ older ++ e :: newer := fun hlisted => hunlisted (by simp_all)
    have honce' := honce.concat hnew
    rw [List.concat_eq_append, List.append_assoc, List.cons_append] at honce'
    refine describes_append_pair hid (hself p rfl) honce' ?_
    rw [hlast p current rfl hcurrent, hpair, List.append_assoc]
    rfl

end Stamp

end Doubling

namespace Memory

open Doubling (along)
open ShadowKey (IsDiscriminator)

variable {kind : ItemKind} {localId key : String} {i : Intake α ω} {m m' : Memory α} {w w' : ω}
  {d : Doubling} {metadata : Metadata} {payload : Option α} {existing : Record α}
  {outcome : Outcome} {notes : List Notification} {max : Nat}

/-! ## §3 Taking in a write -/

/-- The metadata under a key, if there is any. -/
def metadataAt (m : Memory α) (key : String) : Option Metadata :=
  (m.records.find? key).map (·.metadata)

theorem metadataAt_of_read (hread : m.records.find? key = some existing) :
    m.metadataAt key = some existing.metadata := by
  rw [metadataAt, hread]
  rfl

theorem metadataAt_write (m : Memory α) (key : String) (content : Content α) (metadata : Metadata)
    (q : String) :
    (m.write key content metadata).metadataAt q = if q = key then some metadata else m.metadataAt q := by
  rw [metadataAt, find?_write]
  split <;> rfl

/-- A tombstone that two deletions were merged into lists the incoming one as its newest entry. -/
theorem describes_mergedTombstone (hself : ∀ id, metadata.identity = some id → id ∉ metadata.lineage)
    (d : Doubling) (existing : Metadata) :
    (d.afterIntake i metadata .historiesMerged).Describes
      (some (i.mergedTombstone (i.arrived metadata existing) existing)) := by
  generalize hmerged : i.mergedTombstone (i.arrived metadata existing) existing = merged
  have hnodup : merged.lineage.Nodup := by
    rw [← hmerged]
    exact Lineage.nodup_bound (Lineage.nodup_union _ _) _
  have hidentity : merged.identity = metadata.identity := by
    rw [← hmerged]
    exact Intake.identity_arrived ..
  cases hid : metadata.identity with
  | none =>
    have hclean : d.afterIntake i metadata .historiesMerged = .clean :=
      if_neg fun h => h.2 hid
    rw [hclean]
    refine .clean hnodup ?_
    intro id hmergedId
    rw [hidentity, hid] at hmergedId
    cases hmergedId
  | some id =>
    by_cases hmax : 0 < i.config.maxHistory
    · have hlists : d.afterIntake i metadata .historiesMerged = .listsItself :=
        if_pos ⟨hmax, by simp [hid]⟩
      have hunlisted : id ∉ metadata.lineage.bound (i.config.maxHistory - 1) :=
        fun hlisted => hself id hid (Metadata.mem_of_mem_bound hlisted)
      have hlineage := lineage_mergedTombstone hmax hid existing
      simp only [hmerged, Lineage.append_eq _ _ hmax, Lineage.distinct_concat hunlisted] at hlineage
      rw [← List.append_assoc] at hlineage
      rw [hlists]
      exact .listsItself (hidentity.trans hid) hlineage hnodup
    · -- a lineage of nothing lists nothing
      have hclean : d.afterIntake i metadata .historiesMerged = .clean := if_neg fun h => hmax h.1
      have hnone : merged.lineage = [] := by
        rw [← List.length_eq_zero_iff, ← hmerged]
        exact Nat.le_zero.1 (Nat.le_trans (Lineage.length_bound_le _ _) (Nat.not_lt.1 hmax))
      rw [hclean]
      exact Doubling.describes_clean hnodup (hidentity.trans hid) (by simp [hnone])

/-- A side joins a conflict without a change to the metadata of its marker; a new marker has none. -/
theorem describes_contended {side : Metadata} {operation : Operation}
    (h : d.Describes (some existing.metadata)) (hread : m.records.find? key = some existing)
    (hcontended : Contended kind localId key side payload existing operation m (.ok outcome) m'
      notes) : (d.afterIntake i metadata outcome).Describes (m'.metadataAt key) := by
  have hshadow : ∀ source, key ≠ ShadowKey.make key source :=
    fun source => (ShadowKey.make_ne_primary key source).symm
  cases hcontended with
  | created _ _ _ hm =>
    rw [hm, withConflict, metadataAt_write, if_pos rfl]
    exact .clean List.nodup_nil fun _ _ => List.not_mem_nil
  | joined _ _ _ _ hm =>
    rw [hm, metadataAt_write, if_pos rfl]
    exact h
  | rewritten =>
    rw [withSide, metadataAt_write, if_neg (hshadow _), metadataAt_of_read hread]
    exact h

/-- What is under the key after a write has been taken in is as `afterIntake` says, if no policy
decides and the write itself repeats nothing. -/
theorem describes_taken (hresolver : i.resolver = .chain []) (hnodup : metadata.lineage.Nodup)
    (hself : ∀ id, metadata.identity = some id → id ∉ metadata.lineage)
    (h : d.Describes (m.metadataAt key))
    (htaken : Taken i kind localId key m w metadata payload (.ok outcome) m' notes w') :
    (d.afterIntake i metadata outcome).Describes (m'.metadataAt key) := by
  -- a write that is stored as it came
  have hstored : ∀ stored : Metadata, stored.identity = metadata.identity →
      stored.lineage = metadata.lineage.bound i.config.maxHistory →
      Doubling.clean.Describes (some stored) := by
    intro stored hid hlineage
    refine .clean (hlineage ▸ Lineage.nodup_bound hnodup _) ?_
    intro id hsome hlisted
    rw [hlineage] at hlisted
    exact hself id (hid ▸ hsome) (Metadata.mem_of_mem_bound hlisted)
  cases htaken with
  | created =>
    rw [metadataAt_write, if_pos rfl]
    exact hstored _ rfl rfl
  | ignored => exact h
  | met hread _ hmet =>
    cases hmet with
    | replayed => exact h
    | stale => exact h
    | merged =>
      rw [metadataAt_write, if_pos rfl]
      exact describes_mergedTombstone hself d _
    | overwritten =>
      rw [metadataAt_write, if_pos rfl]
      exact hstored _ (Intake.identity_arrived ..) (Intake.lineage_arrived ..)
    | deleted =>
      rw [metadataAt_write, if_pos rfl]
      exact hstored _ (Intake.identity_arrived ..) (Intake.lineage_arrived ..)
    | settled _ hdecided =>
      -- there is no policy
      rw [hresolver] at hdecided
      cases hdecided
    | declined _ _ hcontended =>
      rw [metadataAt_of_read hread] at h
      exact describes_contended h hread hcontended
    | disputed _ _ _ hcontended =>
      rw [metadataAt_of_read hread] at h
      exact describes_contended h hread hcontended

/-! ## §4 Local writes -/

/-- Whatever the store holds names only versions of its own before the next one. -/
theorem namesBefore_of_namedUpTo (hroom : m.lastVersion.toNat + 1 < UInt64.size)
    (hnamed : NamedUpTo localId m) {q : String} {p : Metadata} (hread : m.metadataAt q = some p) :
    p.NamesBefore localId m.versioned.lastVersion := by
  obtain ⟨r, hr, rfl⟩ := Option.map_eq_some_iff.1 hread
  intro e he hsource
  exact UInt64.lt_of_le_of_lt (hnamed q r hr e he hsource) (lt_versioned hroom).1

/-- A resolution does not list itself. -/
theorem unlisted_resolutionOf (hroom : m.lastVersion.toNat + 1 < UInt64.size)
    (hnamed : NamedUpTo localId m) (marker : Marker) (metadata : Metadata) (max : Nat) :
    ⟨localId, m.versioned.lastVersion⟩ ∉ (m.resolutionOf localId marker metadata max).lineage := by
  intro hlisted
  obtain ⟨side, hside, hnames⟩ := Backend.mem_resolvedLineage.1 (Metadata.mem_of_mem_bound hlisted)
  rw [sidesOf_eq_filterMap] at hside
  obtain ⟨shadow, -, hshadow⟩ := List.mem_filterMap.1 hside
  exact UInt64.lt_irrefl _ (namesBefore_of_namedUpTo hroom hnamed hshadow _ hnames rfl)

/-- What a local write stores is what it answers. -/
theorem metadataAt_written (hfamily : Family localId m key)
    (hwritten : Written localId key payload max m metadata m') :
    m'.metadataAt key = some metadata := by
  cases hwritten with
  | stamped => rw [metadataAt_write, if_pos rfl]
  | resolved hread hmarker =>
    have hlisting := (listing_of_marker hfamily hread hmarker).1
    rw [metadataAt, find?_eraseAll, if_neg hlisting.unlisted_key, find?_write, if_pos rfl]
    rfl

/-- A stamp is as `afterWrite` says under its own key, and concerns no other one. -/
theorem describes_write_stamp (hroom : m.lastVersion.toNat + 1 < UInt64.size)
    (hnamed : NamedUpTo localId m) (h : d.Describes (m.metadataAt key)) (q : String)
    (content : Content α) {stored : Metadata}
    (hid : stored.identity = some ⟨localId, m.versioned.lastVersion⟩)
    (hstamp : stored.lineage =
      (Metadata.stamp (m.metadataAt q) localId m.versioned.lastVersion max).lineage) :
    (if q = key then d.afterWrite max else d).Describes
      ((m.versioned.write q content stored).metadataAt key) := by
  rw [metadataAt_write]
  by_cases hq : q = key
  · subst hq
    rw [if_pos rfl, if_pos rfl]
    exact Doubling.describes_stamp h (fun p => namesBefore_of_namedUpTo hroom hnamed) hid hstamp
  · rw [if_neg hq, if_neg (Ne.symm hq)]
    exact h

/-- What is under the key after the use is as `next` says. -/
def Foretold (kind : ItemKind) (localId key : String) (d : Doubling) (command : Command α ω)
    (s : Memory α × ω) : Prop :=
  (d.next key command (command.run (backend kind localId) s).1).Describes
    ((command.run (backend kind localId) s).2.1.metadataAt key)

section Uses

variable (h : d.Describes (m.metadataAt key)) (w : ω)
include h

theorem foretold_putLocal (hroom : m.lastVersion.toNat + 1 < UInt64.size)
    (hnamed : NamedUpTo localId m) (q : String) (a : α) (max : Nat) :
    Foretold kind localId key d (.putLocal q a max) (m, w) := by
  cases hfree : (m.records.find? q).bind (·.marker?) with
  | some marker =>
    have hanswer := putLocal_of_marker kind localId a max w hfree
    simp only [Foretold, Command.run, hanswer]
    exact h
  | none =>
    have hanswer := putLocal_of_free kind localId a max w hfree
    simp only [Foretold, Command.run, hanswer]
    exact describes_write_stamp hroom hnamed h q _ (identity_stamp ..) rfl

theorem foretold_deleteLocal (hroom : m.lastVersion.toNat + 1 < UInt64.size)
    (hnamed : NamedUpTo localId m) (q : String) (max : Nat) :
    Foretold kind localId key d (.deleteLocal q max) (m, w) := by
  cases hread : m.records.find? q with
  | none =>
    have hanswer := deleteLocal_of_absent kind localId max w hread
    simp only [Foretold, Command.run, hanswer]
    exact h
  | some existing =>
    cases hmarker : existing.marker? with
    | some marker =>
      have hanswer := deleteLocal_of_marker kind localId max w (by rw [hread]; exact hmarker)
      simp only [Foretold, Command.run, hanswer]
      exact h
    | none =>
      have hanswer := deleteLocal_of_free kind localId max w hread hmarker
      simp only [Foretold, Command.run, hanswer]
      refine describes_write_stamp hroom hnamed h q _
        (identity_stamp (some existing.metadata) localId m.versioned.lastVersion max) ?_
      rw [metadataAt_of_read hread]

/-- Uses of other families do not concern the key. -/
theorem describes_of_within {q : String} (hkey : IsPrimary key) (hq : IsPrimary q) (hne : q ≠ key)
    (hwithin : Within q m m') : d.Describes (m'.metadataAt key) := by
  have hsame : m'.records.find? key = m.records.find? key :=
    hwithin key (Ne.symm hne) fun d hd => hkey.ne_shadow hq.nonempty hd
  rwa [metadataAt, hsame]

theorem foretold_resolveLocal (hkey : IsPrimary key) (hroom : m.lastVersion.toNat + 1 < UInt64.size)
    (hnamed : NamedUpTo localId m) (hdistinct : Distinct localId m) {q : String} (hq : IsPrimary q)
    (payload : Option α) (max : Nat) :
    Foretold kind localId key d (.resolveLocal q payload max) (m, w) := by
  cases hfree : (m.records.find? q).bind (·.marker?) with
  | none =>
    have hanswer := resolveLocal_of_free kind localId payload max w hfree
    simp only [Foretold, Command.run, hanswer]
    exact h
  | some marker =>
    obtain ⟨existing, hread, hmarker⟩ := Option.bind_eq_some_iff.1 hfree
    have hcontent := content_of_marker? hmarker
    have hanswer := resolveLocal_of_marker kind localId payload max w hread hmarker
    simp only [Foretold, Command.run, hanswer]
    have hwritten : Written localId q payload max m _ _ := .resolved hread hcontent rfl
    have hfamily := hdistinct.orderly.families q hq
    show (if q = key then Doubling.clean else d).Describes _
    by_cases hsame : q = key
    · subst hsame
      rw [if_pos rfl, metadataAt_written hfamily hwritten]
      exact Doubling.describes_clean
        (nodup_resolutionOf hdistinct hq hread hcontent existing.metadata max) rfl
        (unlisted_resolutionOf hroom hnamed marker existing.metadata max)
    · rw [if_neg hsame]
      exact describes_of_within h hkey hq hsame (family_written hfamily hwritten).1

end Uses

/-! ## §5 Histories -/

/-- A write that is brought lists nothing twice, nor itself, and meets no policy. -/
def Unrepeated : Command α ω → Prop
  | .replicate i _ metadata _ => i.resolver = .chain [] ∧ metadata.lineage.Nodup ∧
    ∀ id, metadata.identity = some id → id ∉ metadata.lineage
  | _ => True

/-- Every admissible use leaves what `next` says. -/
theorem foretold_of_unrepeated (hlocal : IsDiscriminator localId) (hkey : IsPrimary key)
    (hroom : m.lastVersion.toNat + 1 < UInt64.size) (hnamed : NamedUpTo localId m)
    (hdistinct : Distinct localId m) (h : d.Describes (m.metadataAt key)) {command : Command α ω}
    (hadmissible : Admissible command) (hunrepeated : Unrepeated command) (w : ω) :
    Foretold kind localId key d command (m, w) := by
  cases hadmissible with
  | @replicate i q metadata payload hq hsources hconflict =>
    obtain ⟨result, m', notes, w', htaken, hrun⟩ :=
      run_replicate kind localId i q metadata payload (m, w)
    rw [Foretold, hrun]
    cases result with
    | error e => exact h
    | ok outcome =>
      show (if q = key then d.afterIntake i metadata outcome else d).Describes _
      by_cases hsame : q = key
      · subst hsame
        rw [if_pos rfl]
        obtain ⟨hresolver, hnodup, hself⟩ := hunrepeated
        exact describes_taken hresolver hnodup hself h htaken
      · -- a use of another item stays within the family of that item
        rw [if_neg hsame]
        exact describes_of_within h hkey hq hsame
          (family_taken hlocal (hdistinct.orderly.families q hq) hsources hconflict htaken).1
  | putLocal => exact foretold_putLocal h w hroom hnamed _ _ _
  | deleteLocal => exact foretold_deleteLocal h w hroom hnamed _ _
  | resolveLocal hq => exact foretold_resolveLocal h w hkey hroom hnamed hdistinct hq _ _
  | get => exact h

section Runs

variable {history : List (Command α ω)}

/-- The reply of one more use is looked at last. -/
theorem along_concat {replies : List (Reply α)} (hlength : history.length = replies.length)
    (key : String) (command : Command α ω) (reply : Reply α) :
    along key (history ++ [command]) (replies ++ [reply]) =
      (along key history replies).next key command reply := by
  rw [along, List.zip_append hlength, List.foldl_append]
  rfl

variable (kind) (hlocal : IsDiscriminator localId) (hkey : IsPrimary key)
  (hadmissible : ∀ command ∈ history, Admissible command) {w : ω}
  (hcount : KeepsCount kind localId w history) (hlength : history.length + 1 < UInt64.size)
include hlocal hkey hadmissible hcount hlength

/-- A use after a history, under which the lineage is as told, leaves what `next` says. -/
theorem foretold_after
    (h : (along key history (Command.runAll (backend kind localId) history ({}, w)).1).Describes
      ((Command.runAll (backend kind localId) history ({}, w)).2.1.metadataAt key))
    {command : Command α ω} (hcommand : Admissible command) (hunrepeated : Unrepeated command) :
    Foretold kind localId key
      (along key history (Command.runAll (backend kind localId) history ({}, w)).1) command
      (Command.runAll (backend kind localId) history ({}, w)).2 := by
  obtain ⟨hnamed, hlast⟩ := namedUpTo_runAll kind localId w hcount (Nat.lt_of_succ_lt hlength)
  exact foretold_of_unrepeated hlocal hkey (Nat.lt_of_le_of_lt (Nat.succ_le_succ hlast) hlength)
    hnamed (distinct_runAll kind hlocal hadmissible w) h hcommand hunrepeated _

/-- After a history, the lineage under a key is as the uses and their replies say. -/
theorem describes_runAll (hunrepeated : ∀ command ∈ history, Unrepeated command) :
    (along key history (Command.runAll (backend kind localId) history ({}, w)).1).Describes
      ((Command.runAll (backend kind localId) history ({}, w)).2.1.metadataAt key) := by
  -- on the history so far: the last use meets a store whose lineage is as told
  induction history using List.reverseRecOn with
  | nil => exact .absent
  | append_singleton before command ih =>
    have hlast : command ∈ before ++ [command] := by simp
    have hfirst : ∀ c ∈ before, c ∈ before ++ [command] := fun c hc => List.mem_append_left _ hc
    rw [List.length_append, List.length_singleton] at hlength
    have hbefore := fun c hc => hadmissible c (hfirst c hc)
    have htold := ih hbefore hcount.before (Nat.lt_of_succ_lt hlength)
      fun c hc => hunrepeated c (hfirst c hc)
    have hnext := foretold_after kind hlocal hkey hbefore hcount.before (Nat.lt_of_succ_lt hlength) htold
      (hadmissible command hlast) (hunrepeated command hlast)
    rw [runAll_append]
    show (along key (before ++ [command]) (_ ++ [_])).Describes _
    rw [along_concat (length_runAll kind localId before _).symm]
    exact hnext

end Runs

/-! ## §6 Replies -/

/-- The use is a local write under `key`. -/
def WritesUnder (key : String) : Command α ω → Prop
  | .putLocal q _ _ | .deleteLocal q _ | .resolveLocal q _ _ => q = key
  | _ => False

theorem written_of_answer {command : Command α ω} {s : Memory α × ω}
    (hunder : WritesUnder key command)
    (hanswer : (command.run (backend kind localId) s).1 = .written (.ok (some metadata))) :
    ∃ payload max, Written localId key payload max s.1 metadata
      (command.run (backend kind localId) s).2.1 := by
  cases command with
  | putLocal q a max =>
    obtain rfl : q = key := hunder
    rcases putLocal_cases kind localId q a max s.1 s.2 with
      ⟨error, hrun⟩ | ⟨stored, m', hwritten, hrun⟩ <;>
      simp only [Command.run, hrun] at hanswer ⊢ <;> cases hanswer
    exact ⟨_, _, hwritten⟩
  | deleteLocal q max =>
    obtain rfl : q = key := hunder
    rcases deleteLocal_cases kind localId q max s.1 s.2 with
      ⟨-, hrun⟩ | ⟨error, hrun⟩ | ⟨stored, m', hwritten, hrun⟩ <;>
      simp only [Command.run, hrun] at hanswer ⊢ <;> cases hanswer
    exact ⟨_, _, hwritten⟩
  | resolveLocal q payload max =>
    obtain rfl : q = key := hunder
    rcases resolveLocal_cases kind localId q payload max s.1 s.2 with
      ⟨error, hrun⟩ | ⟨stored, m', hwritten, hrun⟩ <;>
      simp only [Command.run, hrun] at hanswer ⊢ <;> cases hanswer
    exact ⟨_, _, hwritten⟩
  | _ => exact hunder.elim

/-- The use took in a deletion that was merged with the one that is stored under `key`. -/
def MergesUnder (key : String) : Command α ω × Reply α → Prop
  | (.replicate _ q _ _, .outcome (.ok .historiesMerged)) => q = key
  | _ => False

theorem next_clean {command : Command α ω} {reply : Reply α}
    (hunmerged : ¬ MergesUnder key (command, reply)) :
    Doubling.clean.next key command reply = .clean := by
  unfold Doubling.next
  split
  next i q metadata payload outcome =>
    by_cases hq : q = key
    · rw [if_pos hq]
      cases outcome with
      | historiesMerged => exact absurd hq hunmerged
      | conflict => exact ite_self _
      | _ => rfl
    · exact if_neg hq
  -- a local write adds nothing to a lineage without repetitions
  · exact ite_self _
  · exact ite_self _
  · exact ite_self _
  · rfl

/-- Nothing comes to be listed twice unless deletions are merged. -/
theorem along_of_unmerged {history : List (Command α ω)} {replies : List (Reply α)}
    (hunmerged : ∀ use ∈ history.zip replies, ¬ MergesUnder key use) :
    along key history replies = .clean := by
  unfold along
  generalize history.zip replies = uses at hunmerged ⊢
  induction uses with
  | nil => rfl
  | cons use rest ih =>
    rw [List.foldl_cons, next_clean (hunmerged use List.mem_cons_self)]
    exact ih fun later hlater => hunmerged later (List.mem_cons_of_mem _ hlater)

/-! ## §7 Lineages that local writes answer -/

/-- After every history of uses that bring nothing repeated, whether the lineage of a local write
lists an entry twice can be told from the uses under its key and their replies: it does if deletions
were merged there and all since were refusals, writes that changed nothing, and local writes that
had room for the pair. As long as no deletions are merged under the key, no lineage does. -/
theorem lineage_repeats_iff (kind : ItemKind) (hlocal : IsDiscriminator localId)
    (hkey : IsPrimary key) {history : List (Command α ω)}
    (hadmissible : ∀ command ∈ history, Admissible command)
    (hunrepeated : ∀ command ∈ history, Unrepeated command) {w : ω}
    (hcount : KeepsCount kind localId w history) (hlength : history.length + 1 < UInt64.size)
    {command : Command α ω} (hunder : WritesUnder key command) {metadata : Metadata}
    (hanswer : (command.run (backend kind localId)
      (Command.runAll (backend kind localId) history ({}, w)).2).1 =
        .written (.ok (some metadata))) :
    let replies := (Command.runAll (backend kind localId) history ({}, w)).1
    (metadata.lineage.Nodup ↔ ((along key history replies).next key command
        (.written (.ok (some metadata)))).repeats = false) ∧
      ((∀ use ∈ history.zip replies, ¬ MergesUnder key use) → metadata.lineage.Nodup) := by
  intro replies
  have hfamily : Family localId (Command.runAll (backend kind localId) history ({}, w)).2.1 key :=
    (distinct_runAll kind hlocal hadmissible w).orderly.families key hkey
  obtain ⟨payload, max, hwritten⟩ := written_of_answer hunder hanswer
  have hcommand : Admissible command := by
    cases command with
    | putLocal => exact .putLocal (hunder ▸ hkey)
    | deleteLocal => exact .deleteLocal (hunder ▸ hkey)
    | resolveLocal => exact .resolveLocal (hunder ▸ hkey)
    | _ => exact hunder.elim
  have hlocalWrite : Unrepeated command := by
    cases command with
    | replicate => exact hunder.elim
    | _ => trivial
  -- after the history the store is as `along` says, and the write leads on to `next`
  have htold := foretold_after kind hlocal hkey hadmissible hcount hlength
    (describes_runAll kind hlocal hkey hadmissible hcount hlength hunrepeated) hcommand hlocalWrite
  rw [Foretold, metadataAt_written hfamily hwritten, hanswer] at htold
  refine ⟨htold.nodup_iff, ?_⟩
  -- without merged deletions it has been clean all along
  intro hunmerged
  have hlast : ¬ MergesUnder key (command, (.written (.ok (some metadata)) : Reply α)) := by
    cases command <;> exact id
  rw [along_of_unmerged hunmerged, next_clean hlast] at htold
  exact htold.nodup_iff.2 rfl

/-- `a` has written and deleted its write, and `b` deletes it as well. -/
def deletedByBoth : List (Command String Unit) :=
  [.replicate {} "k" (.ofId "a" 1) (some "a1"), .replicate {} "k" (deletionBy "a" 2 [⟨"a", 1⟩]) none,
    .replicate {} "k" (deletionBy "b" 1 []) none]

/-- All that is brought is as correct peers make it. -/
theorem tidy_deletedByBoth :
    (∀ command ∈ deletedByBoth, Admissible command) ∧
      (∀ command ∈ deletedByBoth, Unrepeated command) ∧
      KeepsCount .document "L" () deletedByBoth := by
  have hk : IsPrimary "k" := ⟨by decide, by decide +kernel⟩
  have ha : IsDiscriminator "a" := ⟨by decide, by decide +kernel⟩
  have hb : IsDiscriminator "b" := ⟨by decide, by decide +kernel⟩
  have hnames : ∀ metadata : Metadata, (∀ e, metadata.identity = some e → e.source ≠ "L") →
      (∀ e ∈ metadata.lineage, e.source ≠ "L") → ∀ last (payload : Option String),
      InCount "L" last (.replicate ({} : Intake String Unit) "k" metadata payload) :=
    fun _ hid hlineage _ _ => ⟨.chain (by simp), namesOnly_of_foreign hid hlineage⟩
  refine ⟨?_, ?_, keepsCount_of_inCount ?_⟩ <;>
    simp only [deletedByBoth, List.forall_mem_cons, List.not_mem_nil, false_implies, implies_true,
      and_true]
  · exact ⟨.replicate hk (fun _ h => Option.some.inj h ▸ ha) rfl rfl,
      .replicate hk (fun _ h => Option.some.inj h ▸ ha) rfl rfl,
      .replicate hk (fun _ h => Option.some.inj h ▸ hb) rfl rfl⟩
  · simp [Unrepeated, deletionBy, Metadata.ofId, Metadata.identity]
  · refine ⟨fun last => hnames _ ?_ ?_ last _, fun last => hnames _ ?_ ?_ last _,
      fun last => hnames _ ?_ ?_ last _⟩ <;> simp [deletionBy, Metadata.ofId, Metadata.identity]

/-- The deletion by `b` was merged with the one by `a`. A put over it lists the deletion by `b` twice
in a row. -/
theorem merged_deletion_listed_twice :
    ∃ metadata : Metadata, metadata.lineage = [⟨"a", 1⟩, ⟨"a", 2⟩, ⟨"b", 1⟩, ⟨"b", 1⟩] ∧
      ((Command.putLocal "k" "l1" 50).run (backend .document "L")
        (Command.runAll (backend .document "L") deletedByBoth ({}, ())).2).1 =
          .written (.ok (some metadata)) ∧
      ¬ metadata.lineage.Nodup := by
  have hanswer : ((Command.putLocal "k" "l1" 50).run (backend .document "L")
      (Command.runAll (backend .document "L") deletedByBoth ({}, ())).2).1 =
        .written (.ok (some { Metadata.ofId "L" 1 with
          lineage := [⟨"a", 1⟩, ⟨"a", 2⟩, ⟨"b", 1⟩, ⟨"b", 1⟩] })) := rfl
  have hk : IsPrimary "k" := ⟨by decide, by decide +kernel⟩
  have hunder : WritesUnder "k" (.putLocal "k" "l1" 50 : Command String Unit) := rfl
  obtain ⟨hadmissible, hunrepeated, hcount⟩ := tidy_deletedByBoth
  have hrepeats := (lineage_repeats_iff .document ⟨by decide, by decide +kernel⟩ hk hadmissible
    hunrepeated hcount (by decide) hunder hanswer).1
  refine ⟨_, rfl, hanswer, fun hnodup => ?_⟩
  have hnone := hrepeats.1 hnodup
  revert hnone
  decide +kernel

/-- It is not so that the lineages of local writes have no repeated entries, even where all that is
brought to the store has none. -/
theorem pair_in_local_lineage :
    ¬ ∀ (history : List (Command String Unit)) (key : String) (command : Command String Unit)
        (metadata : Metadata),
      (∀ c ∈ history, Admissible c) → (∀ c ∈ history, Unrepeated c) →
      KeepsCount .document "L" () history → WritesUnder key command →
      (command.run (backend .document "L")
        (Command.runAll (backend .document "L") history ({}, ())).2).1 =
          .written (.ok (some metadata)) →
      metadata.lineage.Nodup := by
  intro h
  obtain ⟨hadmissible, hunrepeated, hcount⟩ := tidy_deletedByBoth
  have hnodup := h deletedByBoth "k" (.putLocal "k" "l1" 50)
    { Metadata.ofId "L" 1 with lineage := [⟨"a", 1⟩, ⟨"a", 2⟩, ⟨"b", 1⟩, ⟨"b", 1⟩] }
    hadmissible hunrepeated hcount rfl rfl
  revert hnodup
  decide

end Memory

end ReplicaIntake
