import ReplicaIntake.Proofs.Memory.Arrivals
import ReplicaIntake.Proofs.Memory.Repetitions

/-!
# Chains of writes that arrive in any order

Writes that were made one on top of the other are delivered in any order, with gaps and repetitions.
Of two of them the later one lists the earlier one, so they are never concurrent: no policy is
asked, no conflict arises, and the key holds the latest write that has arrived (`latest_held`).

The invariant is `Reached`. Its account of the lineage is one of upper and lower bounds, because two
deletions are merged into a tombstone that lists itself.
-/

namespace ReplicaIntake

variable {α ω : Type} {n : Nat} {writes : Fin n → Incoming α} {j k : Fin n}

/-! ## §1 Chains -/

/-- Each write was made on top of all writes before it, and the versions of each node ascend. -/
structure IsChain (writes : Fin n → Incoming α) : Prop where
  lineages : ∀ k, (writes k).metadata.lineage =
    List.ofFn fun j : Fin k => (writes (j.castLE k.isLt.le)).id
  ascending : ∀ j k, j < k → (writes j).id.source = (writes k).id.source →
    (writes j).id.version < (writes k).id.version

namespace IsChain

theorem id_ne_of_lt (h : IsChain writes) (hjk : j < k) : (writes j).id ≠ (writes k).id := by
  intro heq
  have hlt := h.ascending j k hjk (congrArg WriteId.source heq)
  rw [heq] at hlt
  exact UInt64.lt_irrefl _ hlt

/-- A write lists the writes before it and no others. -/
theorem mem_lineage_iff (h : IsChain writes) {e : WriteId} :
    e ∈ (writes k).metadata.lineage ↔ ∃ j, j < k ∧ e = (writes j).id := by
  rw [h.lineages, List.mem_ofFn]
  constructor
  · rintro ⟨j, rfl⟩
    exact ⟨j.castLE k.isLt.le, j.isLt, rfl⟩
  · rintro ⟨j, hjk, rfl⟩
    exact ⟨⟨j, hjk⟩, rfl⟩

theorem length_lineage (h : IsChain writes) (k : Fin n) :
    (writes k).metadata.lineage.length = k := by
  rw [h.lineages, List.length_ofFn]

/-- There is room for the lineage of every write. -/
theorem bound_lineage (h : IsChain writes) {max : Nat} (hroom : n ≤ max) (k : Fin n) :
    (writes k).metadata.lineage.bound max = (writes k).metadata.lineage := by
  apply Lineage.bound_of_length_le
  rw [h.length_lineage]
  have hk := k.isLt
  omega

end IsChain

theorem Outcome.isConflict_of_isNoop {outcome : Outcome} (h : outcome.isNoop = true) :
    outcome.isConflict = false := by
  cases outcome with
  | conflict => cases h
  | _ => rfl

namespace Memory

variable {kind : ItemKind} {localId key : String} {i : Intake α ω} {m m' : Memory α} {w w' : ω}
  {r : Record α}

/-! ## §2 What is stored -/

/-- The record is the write `j` of the chain. It lists all writes before that one and no later
ones. -/
structure Reached (writes : Fin n → Incoming α) (j : Fin n) (r : Record α) : Prop where
  content : r.content = (writes j).content
  identity : r.metadata.identity = some (writes j).id
  plain : r.isMarker = false
  deleted : r.metadata.deleted = (writes j).metadata.deleted
  listed : ∀ k, k < j → (writes k).id ∈ r.metadata.lineage
  /-- It may list itself, too. -/
  only : ∀ e ∈ r.metadata.lineage, ∃ k, k ≤ j ∧ e = (writes k).id

/-- A record does not know a later write: neither is it that write, nor does it list a version of
its node as late as that one. -/
theorem unknown_of_reached (hchain : IsChain writes) (h : Reached writes j r) (hjk : j < k)
    {arrived : Metadata} (hid : arrived.identity = some (writes k).id) :
    m.knows r arrived = false := by
  refine unknown_of_uncovered h.plain h.identity (hchain.id_ne_of_lt hjk) hid ?_
  apply Lineage.uncovered_of_earlier
  intro e he hsource
  obtain ⟨l, hlj, rfl⟩ := h.only e he
  exact hchain.ascending l k (Fin.lt_of_le_of_lt hlj hjk) hsource

section Delivery

variable (hchain : IsChain writes) (hroom : n ≤ i.config.maxHistory)

include hchain hroom

/-- A write that is stored as it came. -/
theorem reached_arrived (k : Fin n) (existing : Metadata) (etag : Etag) :
    Reached writes k ⟨(writes k).content, etag, i.arrived (writes k).metadata existing⟩ where
  content := rfl
  identity := (Intake.identity_arrived ..).trans (writes k).identified
  plain := isMarker_of_unflagged _ etag
    ((Intake.conflict_arrived ..).trans (writes k).unflagged.1)
  deleted := Intake.deleted_arrived ..
  listed := by
    intro j hjk
    rw [Intake.lineage_arrived, hchain.bound_lineage hroom]
    exact hchain.mem_lineage_iff.2 ⟨j, hjk, rfl⟩
  only := by
    intro e he
    rw [Intake.lineage_arrived, hchain.bound_lineage hroom] at he
    obtain ⟨j, hjk, rfl⟩ := hchain.mem_lineage_iff.1 he
    exact ⟨j, Fin.le_of_lt hjk, rfl⟩

/-- What two deletions are merged into lists the later one and all writes before it: what the
earlier one listed is among them. -/
theorem mem_mergedTombstone (h : Reached writes j r) (hjk : j < k) {e : WriteId} :
    e ∈ (i.mergedTombstone (i.arrived (writes k).metadata r.metadata) r.metadata).lineage ↔
      ∃ l, l ≤ k ∧ e = (writes l).id := by
  have hnewer : ∀ e, e ∈ (writes k).metadata.lineage ++ [(writes k).id] ↔
      ∃ l, l ≤ k ∧ e = (writes l).id := by
    intro e
    rw [List.mem_append, hchain.mem_lineage_iff, List.mem_singleton]
    constructor
    · rintro (⟨l, hlk, rfl⟩ | rfl)
      · exact ⟨l, Fin.le_of_lt hlk, rfl⟩
      · exact ⟨k, Fin.le_refl k, rfl⟩
    · rintro ⟨l, hlk, rfl⟩
      rcases Nat.lt_or_eq_of_le hlk with hlt | heq
      · exact .inl ⟨l, hlt, rfl⟩
      · exact .inr (by rw [Fin.ext heq])
  -- the chain fits the bound, so nothing of the later lineage is evicted
  have hlength : ((writes k).metadata.lineage ++ [(writes k).id]).length ≤ i.config.maxHistory := by
    have hk := k.isLt
    simp only [List.length_append, hchain.length_lineage, List.length_singleton]
    omega
  have hsubset : ∀ e ∈ r.metadata.lineage ++ [(writes j).id],
      e ∈ (writes k).metadata.lineage ++ [(writes k).id] := by
    intro e he
    rw [hnewer]
    rcases List.mem_append.1 he with hlisted | hitself
    · obtain ⟨l, hlj, rfl⟩ := h.only e hlisted
      exact ⟨l, Fin.le_of_lt (Fin.lt_of_le_of_lt hlj hjk), rfl⟩
    · exact ⟨j, Fin.le_of_lt hjk, List.mem_singleton.1 hitself⟩
  have harrived : (i.arrived (writes k).metadata r.metadata).identity = some (writes k).id :=
    (Intake.identity_arrived ..).trans (writes k).identified
  simp only [Intake.mergedTombstone, harrived, h.identity, Option.toList_some,
    Intake.lineage_arrived, hchain.bound_lineage hroom]
  rw [Lineage.mem_merge_of_subset hlength hsubset, hnewer]

/-- A deletion that is merged with an earlier one. -/
theorem reached_merged (h : Reached writes j r) (hjk : j < k)
    (hdelete : (writes k).metadata.deleted = true) (etag : Etag) :
    Reached writes k ⟨.tombstone, etag,
      i.mergedTombstone (i.arrived (writes k).metadata r.metadata) r.metadata⟩ := by
  have hstored := reached_arrived hchain hroom k r.metadata etag
  refine ⟨?_, hstored.identity, ?_, hstored.deleted, ?_, ?_⟩
  · simp [Incoming.content, Metadata.carried, hdelete, Content.ofPayload]
  · exact isMarker_of_unflagged none etag
      ((Intake.conflict_arrived ..).trans (writes k).unflagged.1)
  · intro l hlk
    exact (mem_mergedTombstone hchain hroom h hjk).2 ⟨l, Fin.le_of_lt hlk, rfl⟩
  · intro e he
    exact (mem_mergedTombstone hchain hroom h hjk).1 he

/-! ## §3 One delivery -/

/-- A later write replaces the record, or is merged into it. -/
theorem reached_of_later (h : Reached writes j r) (hjk : j < k)
    {result : Except (IntakeError StoreError) Outcome} {notes : List Notification}
    (hmet : Met i kind localId key m w (writes k).metadata (writes k).payload r result m' notes
      w') :
    ∃ outcome, result = .ok outcome ∧ outcome.isConflict = false ∧ notes = [] ∧ w' = w ∧
      ∃ content metadata, m' = m.write key content metadata ∧
        Reached writes k ⟨content, m.lastEtag.next, metadata⟩ := by
  have hid : (i.arrived (writes k).metadata r.metadata).identity = some (writes k).id :=
    (Intake.identity_arrived ..).trans (writes k).identified
  have hunknown : m.knows r (i.arrived (writes k).metadata r.metadata) = false :=
    unknown_of_reached hchain h hjk hid
  by_cases hboth : (writes k).metadata.deleted = true ∧ r.isTombstone = true
  · -- two deletions are merged before anything is compared
    obtain ⟨rfl, rfl, hnotes, hworld⟩ := met_of_tombstone hboth.1 hunknown h.plain hboth.2 hmet
    exact ⟨_, rfl, rfl, hnotes, hworld, _, _, rfl, reached_merged hchain hroom h hjk hboth.1 _⟩
  · have hcompared : Compared i m (writes k).metadata r := by
      refine ⟨hunknown, h.plain, fun hdelete => ?_⟩
      simpa [hdelete] using hboth
    have hunlisted : (writes k).id ∉ r.metadata.lineage := by
      intro hlisted
      obtain ⟨l, hlj, heq⟩ := h.only _ hlisted
      exact hchain.id_ne_of_lt (Fin.lt_of_le_of_lt hlj hjk) heq.symm
    have hdescendant : (i.arrived (writes k).metadata r.metadata).checkAncestry r.metadata =
        .ok .descendant := by
      rw [Metadata.checkAncestry_descendant_iff hid h.identity (hchain.id_ne_of_lt hjk).symm,
        Intake.lineage_arrived, hchain.bound_lineage hroom]
      exact ⟨hchain.mem_lineage_iff.2 ⟨j, hjk, rfl⟩, hunlisted⟩
    obtain ⟨rfl, rfl, hnotes, hworld⟩ := met_of_descendant hcompared hdescendant hmet
    refine ⟨_, rfl, ?_, hnotes, hworld, _, _, rfl, reached_arrived hchain hroom k _ _⟩
    cases (writes k).metadata.deleted <;> rfl

/-- A write that is not later than the record is passed over. -/
theorem passesOver_of_reached (h : Reached writes j r) (hkj : k ≤ j) {s : Memory α × ω}
    (hread : s.1.records.find? key = some r) :
    PassesOver kind localId i key (writes k).metadata (writes k).payload s := by
  apply passesOver_of_remembers _ (writes k).identified (writes k).carries
  rcases Nat.lt_or_eq_of_le hkj with hlt | heq
  · -- the record lists the write, which lists only what came before it
    refine .listed hread h.plain h.identity (hchain.id_ne_of_lt hlt) (h.listed k hlt) ?_
    rw [hchain.bound_lineage hroom, hchain.mem_lineage_iff]
    rintro ⟨l, hlk, heq⟩
    exact hchain.id_ne_of_lt (Nat.lt_trans hlk hlt) heq.symm
  · obtain rfl := Fin.ext heq
    exact .same hread h.identity

end Delivery

/-! ## §4 Runs -/

/-- Nothing has failed or ended in a conflict, the key holds the write `latest` of the chain, and
nothing else has changed. -/
structure Converged (writes : Fin n → Incoming α) (key : String) (latest : Fin n)
    (s : Memory α × ω) (run : List (Reply α) × (Memory α × ω)) : Prop where
  calm : ∀ reply ∈ run.1, ∃ outcome, reply = .outcome (.ok outcome) ∧ outcome.isConflict = false
  held : ∃ r, run.2.1.records.find? key = some r ∧ Reached writes latest r
  others : ∀ q, q ≠ key → run.2.1.records.find? q = s.1.records.find? q
  world : run.2.2 = s.2

/-- A calm delivery that changes the key alone may come before a run that converges. -/
theorem converged_cons {latest : Fin n} {s : Memory α × ω} {outcome : Outcome}
    {run : List (Reply α) × (Memory α × ω)} (hcalm : outcome.isConflict = false)
    (hothers : ∀ q, q ≠ key → m'.records.find? q = s.1.records.find? q)
    (h : Converged writes key latest (m', s.2) run) :
    Converged writes key latest s (.outcome (.ok outcome) :: run.1, run.2) where
  calm := by
    intro reply hreply
    rcases List.mem_cons.1 hreply with rfl | hreply
    · exact ⟨outcome, rfl, hcalm⟩
    · exact h.calm reply hreply
  held := h.held
  others q hq := (h.others q hq).trans (hothers q hq)
  world := h.world

section Runs

variable (kind localId) (hchain : IsChain writes) (hroom : n ≤ i.config.maxHistory)

include hchain hroom

/-- A first put is stored. -/
theorem run_first {s : Memory α × ω} (habsent : s.1.records.find? key = none)
    (hput : (writes j).metadata.deleted = false) :
    ∃ content metadata,
      ((writes j).command i key).run (backend kind localId) s =
        (.outcome (.ok .created), (s.1.write key content metadata, s.2)) ∧
      Reached writes j ⟨content, s.1.lastEtag.next, metadata⟩ := by
  obtain ⟨a, ha⟩ := Option.ne_none_iff_exists'.1 ((writes j).carries hput)
  have hrun := run_of_absent kind localId i a habsent hput (identity_ne_none (writes j))
  have hstored := reached_arrived hchain hroom j {} s.1.lastEtag.next
  rw [arrived_of_put i {} hput, Incoming.content, Metadata.carried_of_put hput, ha] at hstored
  rw [← ha] at hrun
  exact ⟨_, _, hrun, hstored⟩

/-- One more delivery leaves the later one of the two writes. -/
theorem run_reached (h : Reached writes j r) (k : Fin n) {s : Memory α × ω}
    (hread : s.1.records.find? key = some r) :
    ∃ outcome m' l r',
      ((writes k).command i key).run (backend kind localId) s =
        (.outcome (.ok outcome), (m', s.2)) ∧ outcome.isConflict = false ∧
      (l = j ∨ l = k) ∧ j ≤ l ∧ k ≤ l ∧ m'.records.find? key = some r' ∧ Reached writes l r' ∧
      ∀ q, q ≠ key → m'.records.find? q = s.1.records.find? q := by
  rcases Nat.lt_or_ge j k with hjk | hkj
  · obtain ⟨result, m', notes, w', htaken, hrun⟩ :=
      run_replicate kind localId i key (writes k).metadata (writes k).payload s
    have hmet := taken_of_read hread (identity_ne_none (writes k)) (writes k).carries htaken
    obtain ⟨outcome, rfl, hcalm, rfl, rfl, content, metadata, rfl, hreached⟩ :=
      reached_of_later hchain hroom h hjk hmet
    refine ⟨outcome, _, k, _, hrun, hcalm, .inr rfl, Nat.le_of_lt hjk, Fin.le_refl k,
      find?_write .. |>.trans (if_pos rfl), hreached, ?_⟩
    intro q hq
    rw [find?_write, if_neg hq]
  · have hpasses : PassesOver kind localId i key (writes k).metadata (writes k).payload s :=
      passesOver_of_reached hchain hroom h hkj hread
    obtain ⟨outcome, hnoop, hrun⟩ := hpasses
    exact ⟨outcome, s.1, j, r, hrun, Outcome.isConflict_of_isNoop hnoop, .inl rfl, Fin.le_refl j,
      hkj, hread, h, fun _ _ => rfl⟩

theorem converged_of_reached (h : Reached writes j r) (deliveries : List (Fin n))
    {s : Memory α × ω} (hread : s.1.records.find? key = some r) :
    ∃ latest ∈ j :: deliveries, (∀ k ∈ j :: deliveries, k ≤ latest) ∧
      Converged writes key latest s (Command.runAll (backend kind localId)
        (deliveries.map fun k => (writes k).command i key) s) := by
  -- on the deliveries to come: the write that is stored stands for all that have arrived
  induction deliveries generalizing j r s with
  | nil =>
    refine ⟨j, List.mem_cons_self, ?_, ?_, ⟨r, hread, h⟩, fun _ _ => rfl, rfl⟩
    · intro k hk
      obtain rfl := List.mem_singleton.1 hk
      exact Fin.le_refl k
    · intro reply hreply
      cases hreply
  | cons k rest ih =>
    obtain ⟨outcome, m', l, r', hrun, hcalm, hl, hjl, hkl, hread', hreached, hothers⟩ :=
      run_reached kind localId hchain hroom h k hread
    have hs' : ((m', s.2) : Memory α × ω).1.records.find? key = some r' := hread'
    obtain ⟨latest, hlatest, hmax, hconverged⟩ := ih hreached hs'
    refine ⟨latest, ?_, ?_, ?_⟩
    · -- the latest of all is the stored write, this one or one of the rest
      rcases List.mem_cons.1 hlatest with rfl | hrest
      · rcases hl with rfl | rfl
        · exact List.mem_cons_self
        · exact List.mem_cons_of_mem _ List.mem_cons_self
      · exact List.mem_cons_of_mem _ (List.mem_cons_of_mem _ hrest)
    · have hle := hmax l List.mem_cons_self
      simp only [List.forall_mem_cons]
      exact ⟨Fin.le_trans hjl hle, Fin.le_trans hkl hle,
        fun x hx => hmax x (List.mem_cons_of_mem _ hx)⟩
    · simp only [List.map_cons, Command.runAll, hrun]
      exact converged_cons hcalm hothers hconverged

end Runs

/-- Writes of a chain that are no more than a lineage has room for, the first one delivered a put,
are delivered in any order, with gaps and repetitions, to a store that is without the key. After
each delivery the key holds the latest write of the chain that has arrived by then, and no delivery
has failed, ended in a conflict, or changed another key. -/
theorem latest_held (kind : ItemKind) (localId : String) {i : Intake α ω}
    {writes : Fin n → Incoming α} (hchain : IsChain writes) (hroom : n ≤ i.config.maxHistory)
    {key : String} {s : Memory α × ω} (habsent : s.1.records.find? key = none) {first : Fin n}
    (hput : (writes first).metadata.deleted = false) (others : List (Fin n)) :
    ∃ latest ∈ first :: others, (∀ k ∈ first :: others, k ≤ latest) ∧
      Converged writes key latest s (Command.runAll (backend kind localId)
        ((first :: others).map fun k => (writes k).command i key) s) := by
  obtain ⟨content, metadata, hrun, hreached⟩ := run_first kind localId hchain hroom habsent hput
  obtain ⟨latest, hlatest, hmax, hconverged⟩ := converged_of_reached kind localId hchain hroom
    hreached others (s := (s.1.write key content metadata, s.2))
    (find?_write .. |>.trans (if_pos rfl))
  refine ⟨latest, hlatest, hmax, ?_⟩
  simp only [List.map_cons, Command.runAll, hrun]
  refine converged_cons rfl ?_ hconverged
  intro q hq
  rw [find?_write, if_neg hq]

/-- A put of `a`, a deletion of `b` on top of it, and a deletion of `a` on top of both. -/
def putAndDeletions : Fin 3 → Incoming String
  | 0 => { id := ⟨"a", 1⟩
           metadata := .ofId "a" 1
           payload := some "a1"
           identified := rfl
           unflagged := ⟨rfl, rfl⟩
           carries := by decide }
  | 1 => { id := ⟨"b", 1⟩
           metadata := { Metadata.ofId "b" 1 with deleted := true, lineage := [⟨"a", 1⟩] }
           payload := none
           identified := rfl
           unflagged := ⟨rfl, rfl⟩
           carries := by decide }
  | 2 => { id := ⟨"a", 2⟩
           metadata :=
             { Metadata.ofId "a" 2 with deleted := true, lineage := [⟨"a", 1⟩, ⟨"b", 1⟩] }
           payload := none
           identified := rfl
           unflagged := ⟨rfl, rfl⟩
           carries := by decide }

/-- When the deletions arrive in the wrong order and the put comes again, the key holds the later
deletion. -/
theorem later_deletion_held :
    Converged putAndDeletions "k" 2 ({}, ()) (Command.runAll (backend .document "L")
      ([0, 2, 1, 0].map fun k => (putAndDeletions k).command {} "k") ({}, ())) := by
  have hchain : IsChain putAndDeletions := ⟨by decide, by decide⟩
  have hroom : 3 ≤ ({} : Intake String Unit).config.maxHistory := by decide
  have habsent : (({}, ()) : Memory String × Unit).1.records.find? "k" = none := rfl
  have hput : (putAndDeletions 0).metadata.deleted = false := rfl
  obtain ⟨latest, -, hmax, hconverged⟩ :=
    latest_held .document "L" hchain hroom habsent hput [2, 1, 0]
  have hle : 2 ≤ latest := hmax 2 (by decide)
  obtain rfl : latest = 2 := by omega
  exact hconverged

end Memory

end ReplicaIntake
