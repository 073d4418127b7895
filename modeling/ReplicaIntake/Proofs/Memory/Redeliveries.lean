import ReplicaIntake.Proofs.Memory.LateWrites
import ReplicaIntake.Proofs.Memory.PlainRecords
import ReplicaIntake.Proofs.Policies

/-!
# Deliveries after a policy has ended a conflict

A policy that is asked about a key in conflict sees the marker, which has neither identity nor
lineage, and not the sides, which are removed with it. So what it stores lists what the incoming
write listed and nothing else, and a side that the write did not list is not known any more when it
comes again.

- `passesOver_iff_of_isPlain`: a plain record passes over the writes that it is, or descends from.
- `passes_over_removed_side_iff`: a side that a policy has removed is passed over exactly if the
  write that ended the conflict listed it.
- `removed_sides_unlisted`: two sides that no write lists are forgotten, and one of them comes back.
-/

namespace ReplicaIntake

variable {α ω : Type}

namespace Memory

variable {kind : ItemKind} {localId key : String} {i : Intake α ω} {m m' : Memory α} {w w' : ω}
  {metadata : Metadata} {payload : Option α} {r : Record α} {id gone : WriteId} {a : α}
  {result : Except (IntakeError StoreError) Outcome} {notes : List Notification}

/-! ## §1 Writes that are passed over -/

/-- The write is answered as one that changes nothing, and changes nothing. -/
def PassesOver (kind : ItemKind) (localId : String) (i : Intake α ω) (key : String)
    (metadata : Metadata) (payload : Option α) (s : Memory α × ω) : Prop :=
  ∃ outcome : Outcome, outcome.isNoop = true ∧
    (Command.replicate i key metadata payload).run (backend kind localId) s =
      (.outcome (.ok outcome), s)

theorem knows_of_same {arrived : Metadata} (hid : arrived.identity = some id)
    (hsame : r.metadata.identity = some id) : m.knows r arrived = true := by
  simp [knows, Metadata.sameIdentity_of_some hid, hsame]

theorem knows_of_holds {marker : Marker} {arrived : Metadata}
    (hmarker : r.content = .marker marker) (hid : arrived.identity = some id)
    (hheld : Holds m marker id) : m.knows r arrived = true := by
  obtain ⟨shadow, hlisted, side, hread, hside⟩ := hheld
  have hholds : m.holdsSide r arrived = true := by
    rw [holdsSide, sides_of_content hmarker, List.any_eq_true]
    exact ⟨shadow, hlisted, by simp [hread, Metadata.sameIdentity_of_some hid, hside]⟩
  simp [knows, hholds]

/-- A record that is no marker does not know a write that it is not and does not cover. -/
theorem unknown_of_uncovered {arrived : Metadata} {current : WriteId} (hplain : r.isMarker = false)
    (hcurrent : r.metadata.identity = some current) (hne : current ≠ id)
    (hid : arrived.identity = some id) (huncovered : r.metadata.lineage.covers id = false) :
    m.knows r arrived = false := by
  have hsame : r.metadata.sameIdentity arrived = false := by
    simp [Metadata.sameIdentity_of_some hid, hcurrent, hne]
  have hsides : m.holdsSide r arrived = false := by
    simp [holdsSide, sides_of_plain hplain]
  simp [knows, hsame, hsides, hid, huncovered]

/-- Only what is known and what is older than the record is answered as changing nothing. -/
theorem known_or_ancestor_of_noop {outcome : Outcome} (hnoop : outcome.isNoop = true)
    (hmet : Met i kind localId key m w metadata payload r (.ok outcome) m' notes w') :
    m.knows r (i.arrived metadata r.metadata) = true ∨
      Compared i m metadata r ∧
        (i.arrived metadata r.metadata).checkAncestry r.metadata = .ok .ancestor := by
  cases hmet with
  | replayed hknown => exact .inl hknown
  | stale hcompared hancestry => exact .inr ⟨hcompared, hancestry⟩
  | merged => cases hnoop
  | overwritten => cases hnoop
  | deleted => cases hnoop
  -- what a policy decides and what contends is never answered so
  | settled _ _ hsettled => cases hsettled <;> cases hnoop
  | declined _ _ hcontended => cases hcontended <;> cases hnoop
  | disputed _ _ _ hcontended => cases hcontended <;> cases hnoop

theorem passesOver_iff {s : Memory α × ω} (hread : s.1.records.find? key = some r)
    (hid : metadata.identity ≠ none) (hpayload : metadata.deleted = false → payload ≠ none) :
    PassesOver kind localId i key metadata payload s ↔
      s.1.knows r (i.arrived metadata r.metadata) = true ∨
        Compared i s.1 metadata r ∧
          (i.arrived metadata r.metadata).checkAncestry r.metadata = .ok .ancestor := by
  obtain ⟨result, m', notes, w', htaken, hrun⟩ :=
    run_replicate kind localId i key metadata payload s
  have hmet := taken_of_read hread hid hpayload htaken
  constructor
  · rintro ⟨outcome, hnoop, hpassed⟩
    rw [hrun] at hpassed
    obtain rfl := Reply.outcome.inj (congrArg Prod.fst hpassed)
    exact known_or_ancestor_of_noop hnoop hmet
  · intro h
    have hunchanged : (result = .ok .replayed ∨ result = .ok .stale) ∧
        m' = s.1 ∧ notes = [] ∧ w' = s.2 := by
      rcases h with hknown | ⟨hcompared, hancestry⟩
      · obtain ⟨hresult, hrest⟩ := met_of_known hknown hmet
        exact ⟨.inl hresult, hrest⟩
      · obtain ⟨hresult, hrest⟩ := met_of_ancestor hcompared hancestry hmet
        exact ⟨.inr hresult, hrest⟩
    obtain ⟨hresult, rfl, rfl, rfl⟩ := hunchanged
    rcases hresult with rfl | rfl
    · exact ⟨.replayed, rfl, hrun⟩
    · exact ⟨.stale, rfl, hrun⟩

theorem passesOver_of_known {s : Memory α × ω} (hread : s.1.records.find? key = some r)
    (hid : metadata.identity = some id) (hpayload : metadata.deleted = false → payload ≠ none)
    (hknown : s.1.knows r (i.arrived metadata r.metadata) = true) :
    PassesOver kind localId i key metadata payload s :=
  (passesOver_iff hread (by simp [hid]) hpayload).2 (.inl hknown)

/-- A record that is no marker passes over a write that it lists, whether data or a tombstone, if
that write does not list it in turn. -/
theorem passesOver_of_listed {s : Memory α × ω} {current : WriteId}
    (hread : s.1.records.find? key = some r) (hplain : r.isMarker = false)
    (hcurrent : r.metadata.identity = some current) (hid : metadata.identity = some id)
    (hne : id ≠ current) (hpayload : metadata.deleted = false → payload ≠ none)
    (hlisted : id ∈ r.metadata.lineage)
    (hunlisted : current ∉ metadata.lineage.bound i.config.maxHistory) :
    PassesOver kind localId i key metadata payload s := by
  have hidentity : (i.arrived metadata r.metadata).identity = some id := by
    simpa using hid
  cases hknown : s.1.knows r (i.arrived metadata r.metadata) with
  | true => exact passesOver_of_known hread hid hpayload hknown
  | false =>
    -- a deletion would have been covered, so this is a put that is compared
    have hput : metadata.deleted = false := by
      cases hdeleted : metadata.deleted with
      | false => rfl
      | true => simp [knows, hdeleted, hid, Lineage.covers_of_mem hlisted] at hknown
    refine (passesOver_iff hread (by simp [hid]) hpayload).2 (.inr ⟨⟨hknown, hplain, ?_⟩, ?_⟩)
    · simp [hput]
    · rw [Metadata.checkAncestry_ancestor_iff hidentity hcurrent hne, Intake.lineage_arrived]
      exact ⟨hunlisted, hlisted⟩

/-- What a plain record passes over: of the writes that it is not, a deletion that its lineage
covers, and a put that its lineage lists and that does not list it in turn. -/
theorem passesOver_iff_of_isPlain {s : Memory α × ω}
    (hread : s.1.records.find? key = some r) (h : r.IsPlain id a)
    (hgone : metadata.identity = some gone) (hne : gone ≠ id)
    (hpayload : metadata.deleted = false → payload ≠ none) :
    PassesOver kind localId i key metadata payload s ↔
      if metadata.deleted then r.metadata.lineage.covers gone = true
      else gone ∈ r.metadata.lineage ∧ id ∉ metadata.lineage.bound i.config.maxHistory := by
  have hidentity : (i.arrived metadata r.metadata).identity = some gone := by
    simpa using hgone
  have hknows : s.1.knows r (i.arrived metadata r.metadata) = true ↔
      metadata.deleted = true ∧ r.metadata.lineage.covers gone = true := by
    rw [knows_of_isPlain h hidentity, Intake.deleted_arrived]
    simp [hne]
  have hancestry : (i.arrived metadata r.metadata).checkAncestry r.metadata = .ok .ancestor ↔
      gone ∈ r.metadata.lineage ∧ id ∉ metadata.lineage.bound i.config.maxHistory := by
    rw [Metadata.checkAncestry_ancestor_iff hidentity h.identity hne, Intake.lineage_arrived]
    exact and_comm
  rw [passesOver_iff hread (by simp [hgone]) hpayload, hknows, hancestry]
  cases hdeleted : metadata.deleted with
  | false =>
    have hcompared : Compared i s.1 metadata r := by
      refine ⟨?_, h.unmarked, by simp [hdeleted]⟩
      rw [Bool.eq_false_iff, Ne, hknows]
      simp [hdeleted]
    simp [hcompared]
  | true =>
    -- a deletion that the lineage lists is one that it covers
    have hcovered : Compared i s.1 metadata r → gone ∉ r.metadata.lineage := by
      intro hcompared hlisted
      have hknown := hknows.2 ⟨hdeleted, Lineage.covers_of_mem hlisted⟩
      rw [hcompared.unknown] at hknown
      cases hknown
    simp only [true_and, if_true]
    constructor
    · rintro (hcovers | ⟨hcompared, hlisted, -⟩)
      · exact hcovers
      · exact absurd hlisted (hcovered hcompared)
    · exact .inl

/-! ## §2 Policies over markers -/

/-- What is left of a conflict that a put of `a` as `id` has ended: a plain record that lists what
the put listed, and no sides. -/
structure Cleared (m : Memory α) (key : String) (marker : Marker) (id : WriteId) (a : α)
    (lineage : Lineage) (r : Record α) : Prop where
  stored : m.records.find? key = some r
  plain : r.IsPlain id a
  /-- Of the sides and of what they listed, nothing is added. -/
  listed : ∀ e, e ∈ r.metadata.lineage ↔ e ∈ lineage
  removed : ∀ shadow ∈ marker.shadows, m.records.find? shadow = none

/-- A built-in policy that decides about a put over a marker lets the put win. -/
theorem written_of_decided {conflict : Record α} {marker : Marker} {outcome : Outcome}
    (hbuiltIn : i.resolver.BuiltIn) (hmarker : conflict.content = .marker marker)
    (hput : metadata.deleted = false)
    (hdecided : outcome = .resolved ∨ outcome = .resolvedAsRemoved)
    (hmet : Met i kind localId key m w metadata (some a) conflict (.ok outcome) m' notes w') :
    m.knows conflict (i.arrived metadata conflict.metadata) = false ∧ outcome = .resolved ∧
      m' = (m.write key (.data a)
        { ((i.arrived metadata conflict.metadata).descendFromBoth conflict.metadata).settled
          i.config.maxHistory with deleted := false }).eraseAll marker.shadows := by
  have hcarried := Metadata.carried_of_put hput (some a)
  cases hmet with
  | settled hoffered hresolver hsettled =>
    rw [← sides_of_content hmarker]
    have hdecision := hbuiltIn.decided_of_ok hresolver
    -- the marker itself cannot win, so the incoming payload is what was kept
    cases hdecision with
    | replaced hpayload =>
      obtain rfl := Option.some.inj (hcarried.symm.trans hpayload)
      cases hsettled with
      | kept => exact ⟨hoffered.unknown, rfl, rfl⟩
    | removed hpayload => simp [hcarried] at hpayload
    | merged _ _ hdata => simp [hmarker] at hdata
    | retained hdata => simp [hmarker] at hdata
    | retainedDeletion htombstone => simp [hmarker] at htombstone
  | replayed => simp at hdecided
  | merged => simp at hdecided
  | overwritten => simp at hdecided
  | deleted => simp at hdecided
  | stale => simp at hdecided
  | declined _ _ hcontended => cases hcontended <;> simp at hdecided
  | disputed _ _ _ hcontended => cases hcontended <;> simp at hdecided

/-- The marker has nothing to add to the lineage, and everything it listed is removed. -/
theorem cleared_of_written {conflict : Record α} {marker : Marker}
    (hmarker : conflict.content = .marker marker) (hblank : Blank conflict)
    (hown : key ∉ marker.shadows) (hid : metadata.identity = some id)
    (hm : m' = (m.write key (.data a)
      { ((i.arrived metadata conflict.metadata).descendFromBoth conflict.metadata).settled
        i.config.maxHistory with deleted := false }).eraseAll marker.shadows) :
    ∃ r, Cleared m' key marker id a (metadata.lineage.bound i.config.maxHistory) r := by
  obtain ⟨hsource, hlineage⟩ := hblank marker hmarker
  have hanonymous : conflict.metadata.identity = none := by
    simp [Metadata.identity, hsource]
  have hbounded : (i.arrived metadata conflict.metadata).lineage.length ≤ i.config.maxHistory := by
    rw [Intake.lineage_arrived]
    exact Lineage.length_bound_le _ _
  have hidentity : (i.arrived metadata conflict.metadata).identity = some id := by
    simpa using hid
  have hread : m'.records.find? key = some ⟨.data a, m.lastEtag.next,
      { ((i.arrived metadata conflict.metadata).descendFromBoth conflict.metadata).settled
        i.config.maxHistory with deleted := false }⟩ := by
    rw [hm, find?_eraseAll, if_neg hown, find?_write, if_pos rfl]
  refine ⟨_, hread, ⟨rfl, hidentity, rfl, rfl⟩, ?_, ?_⟩
  · intro e
    rw [← i.lineage_arrived metadata conflict.metadata]
    exact Metadata.mem_settled_of_blank hanonymous hlineage hbounded
  · intro shadow hshadow
    rw [hm, find?_eraseAll, if_pos hshadow]

/-- The side of a conflict that did not know a write is another write. -/
theorem side_ne_of_unknown {conflict side : Record α} {marker : Marker} {shadow : String}
    (hmarker : conflict.content = .marker marker) (hid : metadata.identity = some id)
    (hunknown : m.knows conflict metadata = false) (hshadow : shadow ∈ marker.shadows)
    (hside : m.records.find? shadow = some side) (hgone : side.metadata.identity = some gone) :
    gone ≠ id := by
  rintro rfl
  have hknown := knows_of_holds hmarker hid ⟨shadow, hshadow, side, hside, hgone⟩
  rw [hunknown] at hknown
  cases hknown

/-- After every history, a put that a built-in policy decides about at a key in conflict is stored
with the lineage that it came with, and the sides are removed. A copy of a side that comes again,
through whatever intake, is then passed over exactly if that lineage covers it, when it is a
deletion, or lists it, when it is a put that does not list the stored write. A marker lists its own
key only if a batch has written it so (`unlisted_runAll`). -/
theorem passes_over_removed_side_iff (kind : ItemKind) (localId : String)
    (history : List (Command α ω)) (w : ω) {i : Intake α ω} (hbuiltIn : i.resolver.BuiltIn)
    {key : String} {conflict : Record α} {marker : Marker}
    (hread : (Command.runAll (backend kind localId) history ({}, w)).2.1.records.find? key =
      some conflict)
    (hmarker : conflict.content = .marker marker) (hown : key ∉ marker.shadows)
    {metadata : Metadata} {a : α} {id : WriteId} (hput : metadata.deleted = false)
    (hid : metadata.identity = some id) :
    let before := (Command.runAll (backend kind localId) history ({}, w)).2
    let decision := (Command.replicate i key metadata (some a)).run (backend kind localId) before
    let lineage := metadata.lineage.bound i.config.maxHistory
    (decision.1 = .outcome (.ok .resolved) ∨ decision.1 = .outcome (.ok .resolvedAsRemoved)) →
    (∃ r, Cleared decision.2.1 key marker id a lineage r) ∧
    ∀ shadow ∈ marker.shadows, ∀ side gone, before.1.records.find? shadow = some side →
      side.metadata.identity = some gone →
      ∀ (later : Intake α ω) (copy : Metadata) (payload : Option α), copy.identity = some gone →
        (copy.deleted = false → payload ≠ none) →
        (PassesOver kind localId later key copy payload decision.2 ↔
          if copy.deleted then lineage.covers gone = true
          else gone ∈ lineage ∧ id ∉ copy.lineage.bound later.config.maxHistory) := by
  intro before decision lineage hdecided
  have hblank : Blank conflict := markersBlank_runAll kind localId history w key conflict hread
  obtain ⟨result, m', notes, w', htaken, hrun⟩ :=
    run_replicate kind localId i key metadata (some a) before
  have hdecision : decision = (.outcome result, committed i before.1 m' notes w' result) := hrun
  obtain ⟨outcome, rfl, houtcome⟩ : ∃ outcome : Outcome, result = .ok outcome ∧
      (outcome = .resolved ∨ outcome = .resolvedAsRemoved) := by
    rw [hdecision] at hdecided
    rcases hdecided with h | h
    · exact ⟨.resolved, Reply.outcome.inj h, .inl rfl⟩
    · exact ⟨.resolvedAsRemoved, Reply.outcome.inj h, .inr rfl⟩
  have hmet := taken_of_read hread (by simp [hid]) (fun _ => by simp) htaken
  -- the put has won over the marker, which has nothing to add to its lineage
  obtain ⟨hunknown, -, hm⟩ := written_of_decided hbuiltIn hmarker hput houtcome hmet
  have hstore : decision.2.1 = m' := by
    rw [hdecision]
    rfl
  obtain ⟨r, hcleared⟩ := cleared_of_written hmarker hblank hown hid hm
  rw [← hstore] at hcleared
  refine ⟨⟨r, hcleared⟩, ?_⟩
  intro shadow hshadow side gone hside hgone later copy payload hcopy hpayload
  -- so the side is a different write that comes to a plain record
  have hne : gone ≠ id :=
    side_ne_of_unknown hmarker (by simpa using hid) hunknown hshadow hside hgone
  rw [passesOver_iff_of_isPlain hcleared.stored hcleared.plain hcopy hne hpayload,
    Lineage.covers_congr hcleared.listed, hcleared.listed gone]

/-- Writes of `a` and `b` that know nothing of each other. -/
def concurrentAB : List (Command String Unit) :=
  [.replicate {} "k" (.ofId "a" 1) (some "a1"), .replicate {} "k" (.ofId "b" 1) (some "b1")]

/-- The marker of the conflict that they end up in, its shadows, and the sides there. -/
structure InConflictAB (m : Memory String) : Prop where
  marker : m.records.find? "k" =
    some ⟨.marker ⟨["k/conflicts/L", "k/conflicts/b"]⟩, ⟨4⟩, { conflict := true }⟩
  ofA : m.records.find? "k/conflicts/L" =
    some ⟨.data "a1", ⟨3⟩, (Metadata.ofId "a" 1).asConflictSide⟩
  ofB : m.records.find? "k/conflicts/b" =
    some ⟨.data "b1", ⟨2⟩, (Metadata.ofId "b" 1).asConflictSide⟩

theorem inConflict_concurrentAB :
    InConflictAB (Command.runAll (backend .document "L") concurrentAB ({}, ())).2.1 :=
  ⟨by decide +kernel, by decide +kernel, by decide +kernel⟩

theorem single_concurrentAB : ∀ command ∈ concurrentAB, command.IsSingle := by
  intro command hcommand
  simp only [concurrentAB, List.mem_cons, List.not_mem_nil, or_false] at hcommand
  rcases hcommand with rfl | rfl <;> trivial

/-- The incoming write always wins. -/
def remote : Intake String Unit := { resolver := .preferRemote }

/-- When `c` has ended the conflict without listing the write of `a`, that write is not passed over
when it comes again. -/
theorem removed_side_not_passed_over :
    ¬ PassesOver .document "L" remote "k" (.ofId "a" 1) (some "a1")
      ((Command.replicate remote "k" (.ofId "c" 1) (some "c1")).run (backend .document "L")
        (Command.runAll (backend .document "L") concurrentAB ({}, ())).2).2 := by
  have hconflict := inConflict_concurrentAB
  have hunlisted := unlisted_runAll .document "L" single_concurrentAB () hconflict.marker rfl
  have hside := (@passes_over_removed_side_iff String Unit .document "L" concurrentAB () remote
    .preferRemote "k" _ _ hconflict.marker rfl hunlisted (.ofId "c" 1) "c1" ⟨"c", 1⟩ rfl rfl
    (.inl rfl)).2 "k/conflicts/L" (by decide) _ ⟨"a", 1⟩ hconflict.ofA rfl
  rw [hside remote (.ofId "a" 1) (some "a1") rfl (by simp)]
  decide

/-- It is not so that what a policy stores in place of a conflict lists the sides and passes over
them, not even with room for all of them in the lineage. -/
theorem removed_sides_unlisted :
    ¬ ∀ (history : List (Command String Unit)) (i : Intake String Unit) (key : String)
        (conflict : Record String) (marker : Marker) (metadata : Metadata) (a : String),
      let before := (Command.runAll (backend .document "L") history ({}, ())).2
      let decision :=
        (Command.replicate i key metadata (some a)).run (backend .document "L") before
      i.resolver.BuiltIn → before.1.records.find? key = some conflict →
      conflict.content = .marker marker →
      (∀ shadow ∈ marker.shadows, ∃ side, before.1.records.find? shadow = some side ∧
        side.metadata.identity ≠ none) →
      marker.size + 1 ≤ i.config.maxHistory →
      (decision.1 = .outcome (.ok .resolved) ∨ decision.1 = .outcome (.ok .resolvedAsRemoved)) →
      ∀ shadow ∈ marker.shadows, ∀ side gone, before.1.records.find? shadow = some side →
        side.metadata.identity = some gone →
        (∃ r, decision.2.1.records.find? key = some r ∧ gone ∈ r.metadata.lineage) ∧
        ∀ (copy : Metadata) (payload : Option String), copy.identity = some gone →
          (copy.deleted = false → payload ≠ none) →
          PassesOver .document "L" i key copy payload decision.2 := by
  intro h
  have hconflict := inConflict_concurrentAB
  have hsides : ∀ shadow ∈ ["k/conflicts/L", "k/conflicts/b"], ∃ side,
      (Command.runAll (backend .document "L") concurrentAB ({}, ())).2.1.records.find? shadow =
        some side ∧ side.metadata.identity ≠ none := by
    intro shadow hshadow
    simp only [List.mem_cons, List.not_mem_nil, or_false] at hshadow
    rcases hshadow with rfl | rfl
    · exact ⟨_, hconflict.ofA, by decide⟩
    · exact ⟨_, hconflict.ofB, by decide⟩
  have hpasses := (h concurrentAB remote "k" _ ⟨["k/conflicts/L", "k/conflicts/b"]⟩ (.ofId "c" 1)
    "c1" .preferRemote hconflict.marker rfl hsides (by decide) (.inl rfl) "k/conflicts/L"
    (by decide) _ ⟨"a", 1⟩ hconflict.ofA rfl).2
  obtain ⟨outcome, hnoop, hrun⟩ := hpasses (.ofId "a" 1) (some "a1") rfl (by simp)
  -- the write of `a` takes the place of the one that ended the conflict
  have hreply : Reply.outcome (.ok .resolved) = Reply.outcome (.ok outcome) :=
    congrArg Prod.fst hrun
  obtain rfl := Except.ok.inj (Reply.outcome.inj hreply)
  cases hnoop

end Memory

end ReplicaIntake
