import ReplicaIntake.Proofs.CounterTotals
import ReplicaIntake.Proofs.Memory.ConcurrentPuts
import ReplicaIntake.Proofs.Policies

/-!
# Concurrent puts of counters are joined

A policy that merges counters makes the deliveries of concurrent puts a join: whatever the order and
however often each has been delivered, the key holds the largest total of every node
(`totals_joined`). A put that the lineage lists has been merged before, and one that it has lost is
merged again without effect.
-/

namespace ReplicaIntake.Memory

variable {ω : Type} {key : String} {writes seen : List (Update Counter)}
  {winner x : Update Counter} {counter : Counter}

/-- The counter is the join of the payloads. -/
def Joins (seen : List (Update Counter)) (_ : Update Counter) (counter : Counter) : Prop :=
  counter.IsJoin (seen.map (·.payload))

theorem joins_repeated (hx : x ∈ seen) (h : Joins seen winner counter) :
    Joins (seen ++ [x]) winner counter := by
  refine Counter.isJoin_congr ?_ h
  intro part
  rw [List.map_append, List.mem_append]
  constructor
  · rintro (hpart | hpart)
    · exact hpart
    · exact List.mem_singleton.1 hpart ▸ List.mem_map_of_mem hx
  · exact .inl

theorem steady_joins : Steady .mergeCounters key writes Joins where
  first x _ := Counter.isJoin_singleton x.payload
  repeated x hx h := joins_repeated hx h
  decided := by
    intro seen winner counter r max x _ _ _ hprevails hjoins
    -- the incoming write always wins, with a payload made of both
    refine ⟨x, _, _, .incoming _ (Resolver.mergeCounters_data hprevails.plain.content), ?_⟩
    rw [Joins, List.map_append]
    exact Counter.isJoin_merge hjoins (Counter.isJoin_singleton x.payload)

/-- What is found known or older has been delivered. -/
theorem delivered_of_noop (n : Receiver Counter ω .mergeCounters key)
    (hconcurrent : writes.Pairwise Update.Concurrent) {deliveries : List (Update Counter)}
    (hdelivered : ∀ x ∈ deliveries, x ∈ writes) (hx : x ∈ writes) {outcome : Outcome}
    (hreply : ((x.command n.intake key).run (backend n.kind n.localId)
      (n.received deliveries).2).1 = .outcome (.ok outcome)) (hnoop : outcome.isNoop = true) :
    x ∈ deliveries := by
  obtain ⟨-, hprogress⟩ := progress_received n hconcurrent steady_joins hdelivered
  obtain ⟨outcome', hreply', haccepted⟩ :=
    accepted_run n hconcurrent steady_joins hdelivered hx hprogress
  -- the reply in question is the one that was accepted
  rw [hreply] at hreply'
  obtain rfl := Except.ok.inj (Reply.outcome.inj hreply')
  exact haccepted.known hnoop

/-- The same deliveries have only one join. -/
theorem joins_unique {deliveries deliveries' : List (Update Counter)} {y : Update Counter}
    {counter' : Counter} (hsame : ∀ x, x ∈ deliveries' ↔ x ∈ deliveries)
    (h : Joins deliveries x counter) (h' : Joins deliveries' y counter') : counter' = counter := by
  have hparts : ∀ part, part ∈ deliveries.map (·.payload) ↔
      part ∈ deliveries'.map (·.payload) := by
    intro part
    simp only [List.mem_map, hsame]
  exact Counter.isJoin_unique (Counter.isJoin_congr hparts h') h

/-- Puts of counters that know nothing of each other are delivered, in any order and with any
repetitions, to stores that are without the key and merge counters. At any point no delivery has
failed or led to a conflict, no other key has changed, and the key holds the largest totals of what
has been delivered, node by node. A put that is answered as changing nothing has been delivered
before, and stores that have received the same puts, once or repeatedly, hold the same counter. -/
theorem totals_joined {key : String} {writes : List (Update Counter)}
    (hconcurrent : writes.Pairwise Update.Concurrent) (n : Receiver Counter ω .mergeCounters key)
    {deliveries : List (Update Counter)} (hdelivered : ∀ x ∈ deliveries, x ∈ writes) :
    n.Calm deliveries ∧
    (deliveries ≠ [] → ∃ counter : Counter, counter.IsJoin (deliveries.map (·.payload)) ∧
      (n.held deliveries).map Prod.fst = some (.data counter)) ∧
    (∀ x ∈ writes, ∀ outcome : Outcome, ((x.command n.intake key).run
        (backend n.kind n.localId) (n.received deliveries).2).1 = .outcome (.ok outcome) →
      outcome.isNoop = true → x ∈ deliveries) ∧
    ∀ (other : Receiver Counter ω .mergeCounters key) (deliveries' : List (Update Counter)),
      (∀ x, x ∈ deliveries' ↔ x ∈ deliveries) →
      (other.held deliveries').map Prod.fst = (n.held deliveries).map Prod.fst := by
  refine ⟨(progress_received n hconcurrent steady_joins hdelivered).1, ?_, ?_, ?_⟩
  · intro hsome
    rcases held_cases n hconcurrent steady_joins hdelivered with
      ⟨hnone, -⟩ | ⟨x, -, counter, hcounter, hheld⟩
    · exact absurd hnone hsome
    · exact ⟨counter, hcounter, by rw [hheld]; rfl⟩
  · intro x hx outcome hreply hnoop
    exact delivered_of_noop n hconcurrent hdelivered hx hreply hnoop
  · intro other deliveries' hsame
    -- the identities may differ: each receiver keeps that of its last decision
    refine view_held_congr Prod.fst hconcurrent steady_joins n other hdelivered hsame ?_
    intro x a y b _ hjoins _ hjoins'
    exact congrArg Content.data (joins_unique hsame hjoins hjoins')

/-- A first put of `node`, which has added `n` and taken nothing away. -/
def added (node : String) (n : UInt64) : Update Counter where
  id := ⟨node, 1⟩
  metadata := .ofId node 1
  payload := { increments := .ofList [(node, n)] }
  identified := rfl
  isPut := rfl
  unflagged := rfl

/-- A store whose lineages have `max` entries and which merges counters. -/
def merger (max : Nat) : Receiver Counter Unit .mergeCounters "k" where
  kind := .counter
  localId := "L"
  intake := { config := { maxHistory := max }, resolver := .mergeCounters }
  start := {}
  world := ()
  decides := rfl
  assents _ trigger htrigger := by cases htrigger
  absent := rfl

/-- With one entry to a lineage, the put of `a` is lost from it and merged twice. The store ends up
with the same counter as one that has merged each put once, in another order. -/
theorem totals_joined_after_eviction :
    (merger 1).Calm [added "a" 5, added "b" 3, added "c" 2, added "a" 5] ∧
    ((merger 50).held [added "c" 2, added "b" 3, added "a" 5]).map Prod.fst =
      ((merger 1).held [added "a" 5, added "b" 3, added "c" 2, added "a" 5]).map Prod.fst := by
  have hjoined := @totals_joined Unit "k" [added "a" 5, added "b" 3, added "c" 2]
    (by decide +kernel) (merger 1) [added "a" 5, added "b" 3, added "c" 2, added "a" 5] (by simp)
  refine ⟨hjoined.1, hjoined.2.2.2 (merger 50) _ ?_⟩
  intro x
  simp only [List.mem_cons, List.not_mem_nil, or_false]
  tauto

end ReplicaIntake.Memory
