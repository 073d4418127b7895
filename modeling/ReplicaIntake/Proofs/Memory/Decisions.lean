import Mathlib.Data.Finset.Card
import ReplicaIntake.Proofs.Memory.Repetitions

/-!
# Decisions descend from both writes

A built-in policy that decides between two concurrent writes lets one of them win (`Prefers`), and
its decision is stored as the winner, made on top of both (`SettledOver`). However short the bound
and however full the two lineages, other stores then take it as a descendant of the loser, and the
loser as its ancestor; and nothing of the two lineages is lost as long as all of it fits the bound
(`decision_descends_from_both`).
-/

namespace ReplicaIntake

/-! ## §1 Which write wins -/

/-- The built-in policy decides between an incoming write and the stored record for `winner`,
against `loser`. -/
inductive Resolver.Prefers (key : String) (incoming : Metadata) : {α : Type} → Resolver α →
    Option α → Record α → (winner loser : Metadata) → Prop
  /-- The incoming write wins. -/
  | remote {α : Type} {payload : Option α} {existing : Record α} :
    Prefers key incoming preferRemote payload existing incoming existing.metadata
  /-- The stored write wins, unless it is a marker. -/
  | stored {α : Type} {payload : Option α} {existing : Record α} (hplain : existing.marker? = none) :
    Prefers key incoming preferLocal payload existing existing.metadata incoming
  /-- The incoming write has the later time. -/
  | newer {α : Type} {payload : Option α} {existing : Record α} {field : String} {time stored : Int}
      (htime : timestamp? field incoming = some time)
      (hstored : timestamp? field existing.metadata = some stored) (hlater : stored < time) :
    Prefers key incoming (preferNewest field) payload existing incoming existing.metadata
  /-- The stored write has the later time. -/
  | older {α : Type} {payload : Option α} {existing : Record α} {field : String} {time stored : Int}
      (htime : timestamp? field incoming = some time)
      (hstored : timestamp? field existing.metadata = some stored) (hlater : time < stored)
      (hplain : existing.marker? = none) :
    Prefers key incoming (preferNewest field) payload existing existing.metadata incoming
  /-- Two counters are merged into the incoming one. -/
  | counters {payload : Option Counter} {existing : Record Counter} (hput : payload ≠ none)
      (hdata : existing.data? ≠ none) :
    Prefers key incoming mergeCounters payload existing incoming existing.metadata
  /-- The first policy of a chain decides. -/
  | first {α : Type} {payload : Option α} {existing : Record α} {policy : Resolver α}
      {winner loser : Metadata} (rest : List (Resolver α))
      (hfirst : Prefers key incoming policy payload existing winner loser) :
    Prefers key incoming (chain (policy :: rest)) payload existing winner loser
  /-- The first policy of a chain declines, and a later one decides. -/
  | later {α : Type} {payload : Option α} {existing : Record α} {policy : Resolver α}
      {rest : List (Resolver α)} {winner loser : Metadata}
      (hdeclined : policy key incoming payload existing = .ok none)
      (hlater : Prefers key incoming (chain rest) payload existing winner loser) :
    Prefers key incoming (chain (policy :: rest)) payload existing winner loser

namespace Resolver

variable {α : Type} {key : String} {incoming winner loser : Metadata} {payload : Option α}
  {existing : Record α} {resolution : Resolution α}

/-- One of the two writes wins against the other. -/
theorem Prefers.cases {policy : Resolver α}
    (h : Prefers key incoming policy payload existing winner loser) :
    winner = incoming ∧ loser = existing.metadata ∨
      winner = existing.metadata ∧ loser = incoming := by
  induction h with
  | remote => exact .inl ⟨rfl, rfl⟩
  | stored => exact .inr ⟨rfl, rfl⟩
  | newer => exact .inl ⟨rfl, rfl⟩
  | older => exact .inr ⟨rfl, rfl⟩
  | counters => exact .inl ⟨rfl, rfl⟩
  | first _ _ ih => exact ih
  | later _ _ ih => exact ih

theorem metadata_of_preferRemote
    (h : preferRemote key incoming payload existing = .ok (some resolution)) :
    resolution.metadata = incoming.descendFromBoth existing.metadata := by
  cases payload with
  | some a => cases h; rfl
  | none => cases h; rfl

theorem metadata_of_preferLocal
    (h : preferLocal key incoming payload existing = .ok (some resolution)) :
    existing.marker? = none ∧ resolution.metadata = existing.metadata.descendFromBoth incoming := by
  obtain ⟨content, etag, metadata⟩ := existing
  cases content with
  | data a => cases h; exact ⟨rfl, rfl⟩
  | tombstone => cases h; exact ⟨rfl, rfl⟩
  | marker m => cases h

/-- What a policy asks to store when it decides: the write that wins, on top of both. -/
def DecidesFor (key : String) (incoming : Metadata) (policy : Resolver α) (payload : Option α)
    (existing : Record α) (resolution : Resolution α) : Prop :=
  ∃ winner loser, Prefers key incoming policy payload existing winner loser ∧
    resolution.metadata = winner.descendFromBoth loser

theorem decidesFor_preferNewest {field : String}
    (h : preferNewest field key incoming payload existing = .ok (some resolution)) :
    DecidesFor key incoming (preferNewest field) payload existing resolution := by
  unfold preferNewest at h
  split at h
  · rename_i time stored htime hstored
    -- the question is handed on to the policy that the times speak for
    split at h
    · rename_i hlater
      exact ⟨_, _, .newer htime hstored hlater, metadata_of_preferRemote h⟩
    · split at h
      · rename_i hlater
        obtain ⟨hplain, hmetadata⟩ := metadata_of_preferLocal h
        exact ⟨_, _, .older htime hstored hlater hplain, hmetadata⟩
      · cases h
  · cases h

theorem decidesFor_mergeCounters {payload : Option Counter} {existing : Record Counter}
    {resolution : Resolution Counter}
    (h : mergeCounters key incoming payload existing = .ok (some resolution)) :
    DecidesFor key incoming mergeCounters payload existing resolution := by
  unfold mergeCounters at h
  split at h
  · rename_i remote stored hstored
    refine ⟨incoming, existing.metadata, .counters (by simp) (by simp [hstored]), ?_⟩
    cases h
    rfl
  · cases h

/-- A chain decides as the first of its policies that does not decline. -/
theorem decidesFor_chain {policies : List (Resolver α)}
    (hpolicies : ∀ policy ∈ policies, policy key incoming payload existing =
      .ok (some resolution) → DecidesFor key incoming policy payload existing resolution)
    (h : chain policies key incoming payload existing = .ok (some resolution)) :
    DecidesFor key incoming (chain policies) payload existing resolution := by
  induction policies with
  | nil => cases h
  | cons policy rest ih =>
    obtain ⟨hpolicy, hrest⟩ := List.forall_mem_cons.1 hpolicies
    unfold chain at h
    split at h
    · rename_i hdeclined
      obtain ⟨winner, loser, hprefers, hmetadata⟩ := ih hrest h
      exact ⟨winner, loser, .later hdeclined hprefers, hmetadata⟩
    · obtain ⟨winner, loser, hprefers, hmetadata⟩ := hpolicy h
      exact ⟨winner, loser, .first rest hprefers, hmetadata⟩

theorem BuiltIn.decidesFor {α : Type} {policy : Resolver α} (h : BuiltIn policy) :
    ∀ {payload : Option α} {existing : Record α} {resolution : Resolution α},
      policy key incoming payload existing = .ok (some resolution) →
      DecidesFor key incoming policy payload existing resolution := by
  induction h with
  | preferRemote => exact fun h => ⟨_, _, .remote, metadata_of_preferRemote h⟩
  | preferLocal =>
    intro payload existing resolution h
    obtain ⟨hplain, hmetadata⟩ := metadata_of_preferLocal h
    exact ⟨_, _, .stored hplain, hmetadata⟩
  | preferNewest field => exact decidesFor_preferNewest
  | mergeCounters => exact decidesFor_mergeCounters
  | chain _ ih => exact decidesFor_chain fun policy hpolicy => ih policy hpolicy

end Resolver

/-! ## §2 What is made of the two -/

namespace Metadata

/-- The metadata of a decision between two writes: the winner as it is stored on top of both. -/
structure SettledOver (max : Nat) (winner loser stored : Metadata) : Prop where
  identity : stored.identity = winner.identity
  unflagged : stored.conflict = false ∧ stored.conflictSide = false
  bounded : stored.lineage.length ≤ max
  descendant : stored.checkAncestry loser = .ok .descendant
  ancestor : loser.checkAncestry stored = .ok .ancestor
  /-- If there is room for all entries of both lineages and for the loser, they are all kept. -/
  kept : (winner.lineage ++ loser.lineage ++ loser.identity.toList).toFinset.card ≤ max →
    ∀ e ∈ winner.lineage ++ loser.lineage, e ∈ stored.lineage

variable {winner loser : Metadata} {x y : WriteId} {max : Nat}

/-- What fits the bound is kept. -/
theorem mem_settled_of_fits
    (hfits : (winner.lineage ++ loser.lineage ++ loser.identity.toList).toFinset.card ≤ max)
    {e : WriteId} (he : e ∈ winner.lineage ++ loser.lineage) :
    e ∈ ((winner.descendFromBoth loser).settled max).lineage := by
  have hsame : (winner.descendFromBoth loser).lineage.toFinset =
      (winner.lineage ++ loser.lineage ++ loser.identity.toList).toFinset := by
    ext entry
    simp [mem_lineage_descendFromBoth]
  -- the decision lists nothing twice, so it is as long as there are entries
  have hlength : (winner.descendFromBoth loser).lineage.length ≤ max := by
    rw [← List.toFinset_card_of_nodup (nodup_lineage_descendFromBoth winner loser), hsame]
    exact hfits
  rw [settled, Lineage.bound_of_length_le hlength, mem_lineage_descendFromBoth]
  rcases List.mem_append.1 he with he | he
  · exact .inl he
  · exact .inr (.inl he)

/-- A write that lists another one, and is not listed by it, is found on top of it from either
side. -/
theorem checkAncestry_of_listed {upper lower : Metadata} (hupper : upper.identity = some x)
    (hlower : lower.identity = some y) (hne : x ≠ y) (hlisted : y ∈ upper.lineage)
    (hunlisted : x ∉ lower.lineage) :
    upper.checkAncestry lower = .ok .descendant ∧ lower.checkAncestry upper = .ok .ancestor :=
  ⟨(checkAncestry_descendant_iff hupper hlower hne).2 ⟨hlisted, hunlisted⟩,
    (checkAncestry_ancestor_iff hlower hupper hne.symm).2 ⟨hunlisted, hlisted⟩⟩

/-- A decision is stored on top of both writes, unless the loser lists the winner. -/
theorem settledOver_descendFromBoth (hmax : 0 < max) (hwinner : winner.identity = some x)
    (hloser : loser.identity = some y) (hne : x ≠ y) (hunlisted : x ∉ loser.lineage)
    (isDeleted : Bool) :
    SettledOver max winner loser
      { (winner.descendFromBoth loser).settled max with deleted := isDeleted } := by
  have hlisted : y ∈ ((winner.descendFromBoth loser).settled max).lineage :=
    loser_mem_settled hmax hloser
  have hidentity : ((winner.descendFromBoth loser).settled max).identity = some x := hwinner
  obtain ⟨hdescendant, hancestor⟩ :=
    checkAncestry_of_listed hidentity hloser hne hlisted hunlisted
  exact ⟨rfl, ⟨rfl, rfl⟩, Lineage.length_bound_le _ max, hdescendant, hancestor,
    fun hfits _ he => mem_settled_of_fits hfits he⟩

end Metadata

/-! ## §3 What is stored -/

/-- The policy has decided, for a payload or for none. -/
def Outcome.IsDecision (outcome : Outcome) : Prop :=
  outcome = .resolved ∨ outcome = .resolvedAsRemoved

namespace Memory

open Metadata

variable {α ω : Type} {key : String} {i : Intake α ω} {m m' : Memory α} {w w' : ω}
  {metadata : Metadata} {payload : Option α} {existing : Record α} {id : WriteId}
  {outcome : Outcome} {notes : List Notification} {kind : ItemKind} {localId : String}

/-- A decision about a record that is no marker is stored under its key. -/
theorem stored_of_decision (hread : m.records.find? key = some existing)
    (hplain : existing.marker? = none) (hdecision : outcome.IsDecision)
    (htaken : Taken i kind localId key m w metadata payload (.ok outcome) m' notes w') :
    ∃ resolution isDeleted r,
      i.resolver key (i.arrived metadata existing.metadata) (metadata.carried payload) existing =
        .ok (some resolution) ∧
      m'.records.find? key = some r ∧
      r.metadata =
        { resolution.metadata.settled i.config.maxHistory with deleted := isDeleted } := by
  have hstored : ∀ (content : Content α) (stored : Metadata),
      ((m.write key content stored).eraseAll existing.sides).records.find? key =
        some ⟨content, m.lastEtag.next, stored⟩ := by
    intro content stored
    -- such a record has no sides that would be removed
    have hsides : existing.sides = [] := by
      simp [Record.sides, hplain]
    rw [hsides, find?_eraseAll, if_neg List.not_mem_nil, find?_write, if_pos rfl]
  cases htaken with
  | created => rcases hdecision with h | h <;> cases h
  | ignored => rcases hdecision with h | h <;> cases h
  | met hread' _ hmet =>
    obtain rfl := Option.some.inj (hread.symm.trans hread')
    cases hmet with
    | settled _ hresolver hsettled =>
      cases hsettled with
      | removed => exact ⟨_, true, _, hresolver, hstored _ _, rfl⟩
      | kept => exact ⟨_, false, _, hresolver, hstored _ _, rfl⟩
    -- the other ways out have outcomes of their own
    | declined _ _ hcontended => cases hcontended <;> rcases hdecision with h | h <;> cases h
    | disputed _ _ _ hcontended => cases hcontended <;> rcases hdecision with h | h <;> cases h
    | _ => rcases hdecision with h | h <;> cases h

/-- The winner of two concurrent writes is not listed by the loser. -/
theorem unlisted_of_prefers {incoming winner loser : Metadata} {policy : Resolver α}
    (h : policy.Prefers key incoming payload existing winner loser)
    (hid : incoming.identity = some id)
    (hconcurrent : incoming.checkAncestry existing.metadata = .ok .concurrent) :
    ∃ x y, winner.identity = some x ∧ loser.identity = some y ∧ x ≠ y ∧ x ∉ loser.lineage := by
  obtain ⟨current, hcurrent⟩ := identity_of_concurrent hconcurrent
  have hne : id ≠ current := by
    rintro rfl
    rw [checkAncestry_of_same hid hcurrent] at hconcurrent
    cases hconcurrent
  obtain ⟨hincoming, hexisting⟩ :=
    (checkAncestry_concurrent_iff hid hcurrent hne).1 hconcurrent
  rcases h.cases with ⟨rfl, rfl⟩ | ⟨rfl, rfl⟩
  · exact ⟨id, current, hid, hcurrent, hne, hexisting⟩
  · exact ⟨current, id, hcurrent, hid, hne.symm, hincoming⟩

variable (kind localId)

/-- When a write meets data or a tombstone that is concurrent with it and a built-in policy decides,
what is stored is the winner on top of both: it has the identity of the winner and no flags of
conflicts, its lineage is bounded, the loser is an ancestor of it, and no entry of the two lineages
is lost as long as they fit the bound. The loser is an ancestor also as it was before its lineage was
bounded, unless that listed the winner. -/
theorem decision_descends_from_both (hbuiltIn : i.resolver.BuiltIn) (hmax : 0 < i.config.maxHistory)
    {s : Memory α × ω} (hread : s.1.records.find? key = some existing)
    (hplain : existing.marker? = none) (hid : metadata.identity = some id)
    (hconcurrent : (i.arrived metadata existing.metadata).checkAncestry existing.metadata =
      .ok .concurrent)
    (hreply : ((Command.replicate i key metadata payload).run (backend kind localId) s).1 =
      .outcome (.ok outcome))
    (hdecision : outcome.IsDecision) :
    ∃ winner loser r,
      i.resolver.Prefers key (i.arrived metadata existing.metadata) (metadata.carried payload)
        existing winner loser ∧
      ((Command.replicate i key metadata payload).run (backend kind localId) s).2.1.records.find?
        key = some r ∧
      SettledOver i.config.maxHistory winner loser r.metadata ∧
      ∀ original : Metadata, original.identity = loser.identity →
        original.checkAncestry winner = .ok .concurrent →
        r.metadata.checkAncestry original = .ok .descendant ∧
          original.checkAncestry r.metadata = .ok .ancestor := by
  obtain ⟨result, m', notes, w', htaken, hrun⟩ := run_replicate kind localId i key metadata payload s
  rw [hrun] at hreply ⊢
  obtain rfl : result = .ok outcome := Reply.outcome.inj hreply
  obtain ⟨resolution, isDeleted, r, hresolver, hafter, hstored⟩ :=
    stored_of_decision hread hplain hdecision htaken
  obtain ⟨winner, loser, hprefers, hmetadata⟩ := hbuiltIn.decidesFor hresolver
  obtain ⟨x, y, hwinner, hloser, hne, hunlisted⟩ := unlisted_of_prefers hprefers
    (by simpa using hid) hconcurrent
  -- so the record is the winner on top of both
  rw [hmetadata] at hstored
  refine ⟨winner, loser, r, hprefers, hafter, ?_, ?_⟩
  · rw [hstored]
    exact settledOver_descendFromBoth hmax hwinner hloser hne hunlisted isDeleted
  · -- the loser with its whole lineage, as it comes from elsewhere
    intro original hsame hagain
    rw [hloser] at hsame
    have hlisted : y ∈ r.metadata.lineage := by
      rw [hstored]
      exact loser_mem_settled hmax hloser
    have hidentity : r.metadata.identity = some x := by
      rw [hstored]
      exact hwinner
    exact checkAncestry_of_listed hidentity hsame hne hlisted
      ((checkAncestry_concurrent_iff hsame hwinner hne.symm).1 hagain).1

/-- The ninth write of a node, made on top of three others. -/
def ninth (node : String) : Metadata :=
  { Metadata.ofId node 9 with lineage := [⟨node, 5⟩, ⟨node, 6⟩, ⟨node, 7⟩] }

/-- Lineages have three entries. Without times, what is stored wins. -/
def retaining : Intake String Unit where
  config := { maxHistory := 3 }
  resolver := .chain [.preferNewest "time", .preferLocal]

/-- The store holds the ninth write of `a`. -/
def ninthOfA : Memory String := ({} : Memory String).write "k" (.data "a9") (ninth "a")

/-- Both lineages are full, and of the winner's the two newest entries are kept beside the loser. -/
theorem full_lineages_settled :
    ∃ r, ((Command.replicate retaining "k" (ninth "b") (some "b9")).run (backend .document "L")
        (ninthOfA, ())).2.1.records.find? "k" = some r ∧
      r.metadata.lineage = [⟨"a", 6⟩, ⟨"a", 7⟩, ⟨"b", 9⟩] ∧
      SettledOver 3 (ninth "a") (ninth "b") r.metadata := by
  have hbuiltIn : retaining.resolver.BuiltIn := by
    apply Resolver.BuiltIn.chain
    simp only [List.forall_mem_cons, List.not_mem_nil, false_implies, implies_true, and_true]
    exact ⟨.preferNewest "time", .preferLocal⟩
  have hread : ninthOfA.records.find? "k" = some ⟨.data "a9", ⟨1⟩, ninth "a"⟩ := rfl
  have hreply : ((Command.replicate retaining "k" (ninth "b") (some "b9")).run
      (backend .document "L") (ninthOfA, ())).1 = .outcome (.ok .resolved) := rfl
  obtain ⟨winner, loser, r, hprefers, hafter, hsettled, -⟩ :=
    decision_descends_from_both .document "L" hbuiltIn (by decide) hread rfl rfl (by decide) hreply
      (.inl rfl)
  obtain rfl : r = ⟨.data "a9", ⟨2⟩,
      { ninth "a" with lineage := [⟨"a", 6⟩, ⟨"a", 7⟩, ⟨"b", 9⟩] }⟩ :=
    Option.some.inj (hafter.symm.trans rfl)
  -- what is stored has the identity of the write that was there, so that one has won
  rcases hprefers.cases with ⟨rfl, rfl⟩ | ⟨rfl, rfl⟩
  · exact absurd hsettled.identity (by decide)
  · exact ⟨_, hafter, rfl, hsettled⟩

end Memory

end ReplicaIntake
