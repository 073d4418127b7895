import Mathlib.Data.List.Basic
import ReplicaIntake.Proofs.Memory.Redeliveries

/-!
# Conflicts that this node ends

A local resolution is a write of this node under a fresh version, and the newest entries of its
lineage are the sides of the conflict. If there is room for all of them, every side is listed
(`side_mem_resolutionOf`), however much its own lineage adds.

So the conflict is over for every store that takes part (`resolution_settles_conflict`): where it
was resolved, a side that comes again is passed over, and where a side is stored, the resolution
takes its place. Both rest on the version being fresh: a copy of a side that named a version of this
node which is not given out yet could list the resolution in turn.
-/

namespace ReplicaIntake

variable {α ω : Type}

namespace Metadata

variable {node : String} {version : UInt64} {metadata : Metadata} {id : WriteId}

/-- Of the versions of `node`, the metadata names only ones before `version`. -/
def NamesBefore (node : String) (version : UInt64) (metadata : Metadata) : Prop :=
  ∀ e, metadata.identity = some e ∨ e ∈ metadata.lineage → e.source = node → e.version < version

theorem NamesBefore.ne (h : metadata.NamesBefore node version)
    (hid : metadata.identity = some id) : id ≠ ⟨node, version⟩ := by
  rintro rfl
  exact UInt64.lt_irrefl _ (h _ (.inl hid) rfl)

theorem NamesBefore.unlisted (h : metadata.NamesBefore node version) :
    ⟨node, version⟩ ∉ metadata.lineage :=
  fun hlisted => UInt64.lt_irrefl _ (h _ (.inr hlisted) rfl)

theorem NamesBefore.uncovered (h : metadata.NamesBefore node version) :
    metadata.lineage.covers ⟨node, version⟩ = false :=
  Lineage.uncovered_of_earlier fun e he => h e (.inr he)

end Metadata

namespace Memory

variable {kind : ItemKind} {localId key shadow : String} {m m' : Memory α} {marker : Marker}
  {conflict side held : Record α} {metadata : Metadata} {payload : Option α} {max : Nat}
  {id : WriteId}

/-! ## §1 The lineage of a resolution -/

theorem sidesOf_eq_filterMap (m : Memory α) (shadows : List String) :
    m.sidesOf shadows =
      shadows.filterMap fun shadow => (m.records.find? shadow).map (·.metadata) := by
  rw [sidesOf, List.filterMap_eq_flatMap_toList]

/-- A resolution lists every side, if there is room for as many entries as there are sides. -/
theorem side_mem_resolutionOf (localId : String) (existing : Metadata) (hroom : marker.size ≤ max)
    (hlisted : shadow ∈ marker.shadows) (hside : m.records.find? shadow = some side)
    (hid : side.metadata.identity = some id) :
    id ∈ (m.resolutionOf localId marker existing max).lineage := by
  apply Lineage.mem_bound_withNewest
  · have hread : side.metadata ∈ m.sidesOf marker.shadows := by
      rw [sidesOf_eq_filterMap]
      exact List.mem_filterMap.2 ⟨shadow, hlisted, by simp [hside]⟩
    exact List.mem_filterMap.2 ⟨_, hread, hid⟩
  · -- there are at most as many identities as sides that are there, and as shadows
    calc ((m.sidesOf marker.shadows).filterMap (·.identity)).length
        ≤ (m.sidesOf marker.shadows).length := List.length_filterMap_le ..
      _ ≤ marker.size := by
        rw [sidesOf_eq_filterMap]
        exact List.length_filterMap_le ..
      _ ≤ max := hroom

/-! ## §2 What a resolution leaves -/

/-- The conflict is over: in its place the payload is stored as a fresh write of this node that
lists every side, and the sides are removed. -/
structure Concluded (localId key : String) (marker : Marker) (payload : Option α) (max : Nat)
    (m : Memory α) (metadata : Metadata) (m' : Memory α) : Prop where
  stored : m'.records.find? key = some ⟨.ofPayload payload, m.lastEtag.next, metadata⟩
  identity : metadata.identity = some ⟨localId, m.versioned.lastVersion⟩
  deleted : metadata.deleted = payload.isNone
  unflagged : metadata.conflict = false
  bounded : metadata.lineage.length ≤ max
  listed : ∀ shadow ∈ marker.shadows, ∀ side id, m.records.find? shadow = some side →
    side.metadata.identity = some id → id ∈ metadata.lineage
  removed : ∀ shadow ∈ marker.shadows, m'.records.find? shadow = none
  others : ∀ q, q ≠ key → q ∉ marker.shadows → m'.records.find? q = m.records.find? q

theorem concluded_resolution (localId : String) (m : Memory α) (payload : Option α)
    (existing : Metadata) (hroom : marker.size ≤ max) (hown : key ∉ marker.shadows) :
    Concluded localId key marker payload max m
      { m.resolutionOf localId marker existing max with deleted := payload.isNone }
      ((m.versioned.write key (.ofPayload payload)
        { m.resolutionOf localId marker existing max with
          deleted := payload.isNone }).eraseAll marker.shadows) where
  stored := by
    rw [find?_eraseAll, if_neg hown, find?_write, if_pos rfl]
    rfl
  identity := rfl
  deleted := rfl
  unflagged := rfl
  bounded := Lineage.length_bound_le _ _
  listed shadow hlisted side id hside hid :=
    side_mem_resolutionOf localId existing hroom hlisted hside hid
  removed := by
    intro shadow hlisted
    rw [find?_eraseAll, if_pos hlisted]
  others := by
    intro q hq hunlisted
    rw [find?_eraseAll, if_neg hunlisted, find?_write, if_neg hq, records_versioned]

/-- A local resolution succeeds, and ends the conflict. -/
theorem run_resolveLocal (kind : ItemKind) (localId : String) (payload : Option α)
    {s : Memory α × ω} (hread : s.1.records.find? key = some conflict)
    (hmarker : conflict.content = .marker marker) (hroom : marker.size ≤ max)
    (hown : key ∉ marker.shadows) :
    ∃ metadata m',
      (Command.resolveLocal key payload max : Command α ω).run (backend kind localId) s =
        (.written (.ok (some metadata)), (m', s.2)) ∧
      Concluded localId key marker payload max s.1 metadata m' := by
  have hanswer := resolveLocal_of_marker kind localId payload max s.2 hread
    (marker?_of_content hmarker)
  refine ⟨_, _, ?_, concluded_resolution localId s.1 payload conflict.metadata hroom hown⟩
  rw [Command.run, hanswer]
  rfl

/-! ## §3 The sides afterwards -/

/-- Where the conflict was resolved, a side that comes again is passed over, as a put and as a
deletion. -/
theorem passesOver_of_concluded {s : Memory α × ω}
    (h : Concluded localId key marker payload max m metadata s.1)
    (hlisted : shadow ∈ marker.shadows) (hside : m.records.find? shadow = some side)
    (hid : side.metadata.identity = some id) {later : Intake α ω} {copy : Metadata}
    {delivered : Option α} (hcopy : copy.identity = some id)
    (hbefore : copy.NamesBefore localId m.versioned.lastVersion)
    (hpayload : copy.deleted = false → delivered ≠ none) :
    PassesOver kind localId later key copy delivered s := by
  have hunlisted : ⟨localId, m.versioned.lastVersion⟩ ∉
      copy.lineage.bound later.config.maxHistory := by
    intro hin
    exact hbefore.unlisted (Metadata.mem_of_mem_bound hin)
  exact passesOver_of_listed h.stored (isMarker_of_unflagged payload _ h.unflagged) h.identity hcopy
    (hbefore.ne hcopy) hpayload (h.listed shadow hlisted side id hside hid) hunlisted

/-! ## §4 The sides elsewhere -/

/-- What a store that holds a side answers to the resolution. -/
def settledElsewhere (held : Record α) (payload : Option α) : Outcome :=
  if payload.isSome then .overwritten
  else if held.isTombstone then .historiesMerged
  else .deleted

/-- The resolution takes the place of `held` in a store that holds it. -/
def Adopts (kind : ItemKind) (localId : String) (i : Intake α ω) (key : String)
    (metadata : Metadata) (payload : Option α) (held : Record α) (s : Memory α × ω) : Prop :=
  let run := (Command.replicate i key metadata payload).run (backend kind localId) s
  run.1 = .outcome (.ok (settledElsewhere held payload)) ∧
    ∃ r, run.2.1.records.find? key = some r ∧ r.content = .ofPayload payload ∧
      r.metadata.identity = metadata.identity

section Elsewhere

variable {node : String} {version : UInt64} {i : Intake α ω} {w w' : ω}
  {result : Except (IntakeError StoreError) Outcome} {notes : List Notification}

/-- A record that the resolution lists, and that names only earlier versions of its node, yields to
the resolution. -/
theorem adopted_of_met (hplain : held.isMarker = false) (hheld : held.metadata.identity = some id)
    (hbefore : held.metadata.NamesBefore node version)
    (hid : metadata.identity = some ⟨node, version⟩) (hdeleted : metadata.deleted = payload.isNone)
    (hlisted : id ∈ metadata.lineage.bound i.config.maxHistory)
    (hmet : Met i kind localId key m w metadata payload held result m' notes w') :
    result = .ok (settledElsewhere held payload) ∧
      ∃ r, m'.records.find? key = some r ∧ r.content = .ofPayload payload ∧
        r.metadata.identity = metadata.identity := by
  have hidentity : (i.arrived metadata held.metadata).identity = some ⟨node, version⟩ := by
    simpa using hid
  -- the record does not know the resolution, and the resolution lists the record
  have hunknown : m.knows held (i.arrived metadata held.metadata) = false :=
    unknown_of_uncovered hplain hheld (hbefore.ne hheld) hidentity hbefore.uncovered
  have hdescendant : (i.arrived metadata held.metadata).checkAncestry held.metadata =
      .ok .descendant := by
    rw [Metadata.checkAncestry_descendant_iff hidentity hheld (hbefore.ne hheld).symm,
      Intake.lineage_arrived]
    exact ⟨hlisted, hbefore.unlisted⟩
  have hcarried : metadata.carried payload = payload := by
    rw [Metadata.carried, hdeleted]
    cases payload <;> rfl
  by_cases hboth : metadata.deleted = true ∧ held.isTombstone = true
  · -- two deletions are merged before anything is compared
    obtain ⟨hdelete, htombstone⟩ := hboth
    obtain ⟨rfl, rfl, -, -⟩ := met_of_tombstone hdelete hunknown hplain htombstone hmet
    obtain rfl : payload = none := by simpa [hdelete] using hdeleted
    exact ⟨by simp [settledElsewhere, htombstone],
      _, find?_write .. |>.trans (if_pos rfl), rfl, hidentity.trans hid.symm⟩
  · have hcompared : Compared i m metadata held := by
      refine ⟨hunknown, hplain, fun hdelete => ?_⟩
      simpa [hdelete] using hboth
    obtain ⟨rfl, rfl, -, -⟩ := met_of_descendant hcompared hdescendant hmet
    rw [hcarried]
    refine ⟨?_, _, find?_write .. |>.trans (if_pos rfl), rfl, hidentity.trans hid.symm⟩
    cases payload with
    | some a => simp [settledElsewhere, hdeleted]
    | none =>
      have hlive := hcompared.live hdeleted
      simp [settledElsewhere, hdeleted, hlive]

theorem adopts_of_concluded (kind : ItemKind) (localId : String) {s : Memory α × ω}
    (h : Concluded node key marker payload max m metadata m')
    (hlisted : shadow ∈ marker.shadows) (hside : m.records.find? shadow = some side)
    (hid : side.metadata.identity = some id) (hread : s.1.records.find? key = some held)
    (hplain : held.isMarker = false) (hheld : held.metadata.identity = some id)
    (hbefore : held.metadata.NamesBefore node m.versioned.lastVersion)
    (hmax : i.config.maxHistory = max) :
    Adopts kind localId i key metadata payload held s := by
  have hpayload : metadata.deleted = false → payload ≠ none := by
    rintro hput rfl
    simp [h.deleted] at hput
  obtain ⟨result, m', notes, w', htaken, hrun⟩ :=
    run_replicate kind localId i key metadata payload s
  have hmet := taken_of_read hread (by simp [h.identity]) hpayload htaken
  have hkept : id ∈ metadata.lineage.bound i.config.maxHistory := by
    rw [hmax, Lineage.bound_of_length_le h.bounded]
    exact h.listed shadow hlisted side id hside hid
  obtain ⟨rfl, hstored⟩ :=
    adopted_of_met hplain hheld hbefore h.identity h.deleted hkept hmet
  rw [Adopts, hrun]
  exact ⟨rfl, hstored⟩

end Elsewhere

/-! ## §5 The conflict -/

/-- After every history, a conflict of no more sides than a lineage has room for ends with a local
resolution. Each side is listed by the resolution, is removed here and passed over from then on, and
yields to the resolution in every store that holds it. This is so for every copy of a side, also for
one with a longer lineage, that names only versions of this node from before the resolution. -/
theorem resolution_settles_conflict (kind : ItemKind) (localId : String)
    (history : List (Command α ω)) (w : ω) {key : String} {conflict : Record α} {marker : Marker}
    (hread : (Command.runAll (backend kind localId) history ({}, w)).2.1.records.find? key =
      some conflict)
    (hmarker : conflict.content = .marker marker) {max : Nat} (hroom : marker.size ≤ max)
    (payload : Option α) :
    let before := (Command.runAll (backend kind localId) history ({}, w)).2
    let resolution :=
      (Command.resolveLocal key payload max : Command α ω).run (backend kind localId) before
    let version := before.1.lastVersion + 1
    (∀ shadow ∈ marker.shadows, ∃ side, before.1.records.find? shadow = some side ∧
      side.metadata.identity ≠ none) →
    ∃ metadata, resolution.1 = .written (.ok (some metadata)) ∧
      Concluded localId key marker payload max before.1 metadata resolution.2.1 ∧
      ∀ shadow ∈ marker.shadows, ∀ side, before.1.records.find? shadow = some side →
        (∀ (later : Intake α ω) (copy : Metadata) (delivered : Option α),
          copy.identity = side.metadata.identity → copy.NamesBefore localId version →
          (copy.deleted = false → delivered ≠ none) →
          PassesOver kind localId later key copy delivered resolution.2) ∧
        ∀ (otherKind : ItemKind) (otherId : String) (i : Intake α ω) (other : Memory α × ω)
          (held : Record α), i.config.maxHistory = max → other.1.records.find? key = some held →
          held.isMarker = false → held.metadata.identity = side.metadata.identity →
          held.metadata.NamesBefore localId version →
          Adopts otherKind otherId i key metadata payload held other := by
  intro before resolution version hsides
  have hblank : Blank conflict := markersBlank_runAll kind localId history w key conflict hread
  -- the marker has no identity, so it is not one of the sides
  have hown : key ∉ marker.shadows := by
    intro hlisted
    obtain ⟨side, hside, hid⟩ := hsides key hlisted
    obtain rfl := Option.some.inj (hread.symm.trans hside)
    exact hid (by simp [Metadata.identity, (hblank marker hmarker).1])
  obtain ⟨metadata, m', hrun, hconcluded⟩ :=
    run_resolveLocal kind localId payload hread hmarker hroom hown
  have hresolution : resolution = (.written (.ok (some metadata)), (m', before.2)) := hrun
  rw [hresolution]
  refine ⟨metadata, rfl, hconcluded, ?_⟩
  intro shadow hlisted side hside
  obtain ⟨stored, hstored, hidentified⟩ := hsides shadow hlisted
  obtain rfl := Option.some.inj (hstored.symm.trans hside)
  obtain ⟨id, hid⟩ := Option.ne_none_iff_exists'.1 hidentified
  refine ⟨?_, ?_⟩
  · intro later copy delivered hcopy hbefore hpayload
    exact passesOver_of_concluded hconcluded hlisted hside hid (hcopy.trans hid) hbefore hpayload
  · intro otherKind otherId i other held hmax hheld hplain hsame hbefore
    exact adopts_of_concluded otherKind otherId hconcluded hlisted hside hid hheld hplain
      (hsame.trans hid) hbefore hmax

/-- A store that has taken in the write of `b` alone. -/
def holdsB : Memory String × Unit :=
  (Command.runAll (backend .document "M")
    [.replicate {} "k" (.ofId "b" 1) (some "b1")] ({}, ())).2

/-- Two sides fit a lineage of two: when `L` has ended the conflict of `a` and `b`, it passes over
the write of `a`, and a store that holds the write of `b` takes the resolution. -/
theorem conflict_of_a_and_b_settled :
    let before := (Command.runAll (backend .document "L") concurrentAB ({}, ())).2
    let resolution := (Command.resolveLocal "k" (some "c1") 2 : Command String Unit).run
      (backend .document "L") before
    ∃ metadata, resolution.1 = .written (.ok (some metadata)) ∧
      PassesOver .document "L" remote "k" (.ofId "a" 1) (some "a1") resolution.2 ∧
      Adopts .document "M" { config := ⟨2⟩ } "k" metadata (some "c1")
        ⟨.data "b1", ⟨1⟩, .ofId "b" 1⟩ holdsB := by
  intro before resolution
  have hconflict := inConflict_concurrentAB
  have hroom : Marker.size ⟨["k/conflicts/L", "k/conflicts/b"]⟩ ≤ 2 := by decide
  obtain ⟨metadata, hreply, -, hsides⟩ := resolution_settles_conflict .document "L" concurrentAB ()
    hconflict.marker rfl hroom (some "c1") (by
      intro shadow hlisted
      simp only [List.mem_cons, List.not_mem_nil, or_false] at hlisted
      rcases hlisted with rfl | rfl
      · exact ⟨_, hconflict.ofA, by decide⟩
      · exact ⟨_, hconflict.ofB, by decide⟩)
  have hforeign : ∀ source : String, source ≠ "L" →
      (Metadata.ofId source 1).NamesBefore "L" (before.1.lastVersion + 1) := by
    rintro source hne e (hid | hlisted) hsource
    · exact absurd hsource (Option.some.inj hid ▸ hne)
    · cases hlisted
  refine ⟨metadata, hreply, ?_, ?_⟩
  · exact (hsides "k/conflicts/L" (by decide) _ hconflict.ofA).1 remote (.ofId "a" 1) (some "a1") rfl
      (hforeign "a" (by decide)) (by simp)
  · exact (hsides "k/conflicts/b" (by decide) _ hconflict.ofB).2 .document "M" { config := ⟨2⟩ }
      holdsB ⟨.data "b1", ⟨1⟩, .ofId "b" 1⟩ rfl (by decide +kernel) rfl rfl
      (hforeign "b" (by decide))

end Memory

end ReplicaIntake
