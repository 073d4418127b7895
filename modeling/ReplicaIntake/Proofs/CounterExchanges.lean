import Mathlib.Algebra.BigOperators.Group.Finset.Basic
import Mathlib.Algebra.Ring.Nat
import ReplicaIntake.Proofs.CounterTotals

/-!
# Counters that are counted on and exchanged

Every node has a counter of its own, on which it counts under its own name, and takes in the
counters of other nodes at any time. A node's own totals are then its own amounts, added up until
they stop at the largest word (`toNat_ownTotal`), and no other counter is ever ahead of it
(`trailing_replicasAfter`). Merging the counters of all nodes, in whatever order and grouping and however
often each, therefore gives the same counter, with exactly these totals (`exchanged_exactly`).
-/

namespace ReplicaIntake

namespace Counter

/-! ## §1 Runs -/

/-- Whether a counter is counted up or down. -/
inductive Direction where
  | up
  | down
  deriving DecidableEq

/-- The totals for what was added, or for what was taken away. -/
def totals (c : Counter) : Direction → KeyMap UInt64
  | .up => c.increments
  | .down => c.decrements

/-- Counts `n` on behalf of `node`. -/
def count (c : Counter) : Direction → String → UInt64 → Counter
  | .up, node, n => c.increment node n
  | .down, node, n => c.decrement node n

/-- The counter of each node. -/
abbrev Replicas := String → Counter

/-- What can happen to the counters of the nodes. -/
inductive Action where
  /-- A node counts on its own counter, under its own name. -/
  | count (direction : Direction) (node : String) (n : UInt64)
  /-- The counter of one node, as it is now, is merged into that of another. -/
  | merge (source target : String)

namespace Action

/-- The counters after an action. -/
def apply (replicas : Replicas) : Action → Replicas
  | .count direction node n => Function.update replicas node ((replicas node).count direction node n)
  | .merge source target =>
    Function.update replicas target ((replicas target).merge (replicas source))

/-- What the action counts for a node. -/
def amount? (direction : Direction) (node : String) : Action → Option UInt64
  | .count direction' node' n => if direction' = direction ∧ node' = node then some n else none
  | .merge _ _ => none

/-- The action is one of the given nodes. -/
def Within (nodes : Finset String) : Action → Prop
  | .count _ node _ => node ∈ nodes
  | .merge source target => source ∈ nodes ∧ target ∈ nodes

instance (nodes : Finset String) : (action : Action) → Decidable (action.Within nodes)
  | .count _ node _ => inferInstanceAs (Decidable (node ∈ nodes))
  | .merge source target => inferInstanceAs (Decidable (source ∈ nodes ∧ target ∈ nodes))

end Action

/-- The counters after a run from counters without totals. -/
def replicasAfter (run : List Action) : Replicas := run.foldl Action.apply fun _ => zero

/-- The amounts that a node counts in a run, in their order. -/
def counted (run : List Action) (direction : Direction) (node : String) : List UInt64 :=
  run.filterMap (Action.amount? direction node)

/-- The sum of the amounts, which stops at the largest word. -/
def saturatingSum (amounts : List UInt64) : Nat :=
  min (amounts.map UInt64.toNat).sum (UInt64.size - 1)

/-! ## §2 Own totals -/

theorem toNat_saturatingAdd (a b : UInt64) :
    (saturatingAdd a b).toNat = min (a.toNat + b.toNat) (UInt64.size - 1) := by
  unfold saturatingAdd
  split
  · rename_i hfits
    rw [UInt64.toNat_add, Nat.mod_eq_of_lt hfits]
    omega
  · rename_i hfull
    rw [UInt64.toNat_ofNat_of_lt' (by decide)]
    omega

theorem total_raise (totals : KeyMap UInt64) (node : String) (n : UInt64) (q : String) :
    total (raise totals node n) q =
      if node = q then saturatingAdd (total totals q) n else total totals q := by
  unfold total raise
  rw [KeyMap.find?_insert]
  by_cases hq : q = node
  · subst hq
    rw [if_pos rfl, if_pos rfl]
    rfl
  · rw [if_neg hq, if_neg (Ne.symm hq)]

/-- Counting changes the total of the one node in the one direction. -/
theorem total_count (c : Counter) (direction direction' : Direction) (node q : String) (n : UInt64) :
    total ((c.count direction node n).totals direction') q =
      if direction = direction' ∧ node = q then saturatingAdd (total (c.totals direction') q) n
      else total (c.totals direction') q := by
  cases direction <;> cases direction' <;>
    simp [count, increment, decrement, totals, total_raise]

theorem totals_merge (c d : Counter) (direction : Direction) :
    (c.merge d).totals direction = (c.totals direction).mergeWith larger (d.totals direction) := by
  cases direction <;> rfl

/-- The total that a node's counter has for the node itself. -/
def ownTotal (replicas : Replicas) (direction : Direction) (node : String) : UInt64 :=
  total ((replicas node).totals direction) node

/-- No counter has a larger total for a node than the node's own counter. -/
def Trailing (replicas : Replicas) : Prop :=
  ∀ replica direction node, total ((replicas replica).totals direction) node ≤
    ownTotal replicas direction node

variable {replicas : Replicas}

/-- What a step makes of a node's own total: it changes only by what the node counts. -/
theorem ownTotal_apply (h : Trailing replicas) (action : Action) (direction : Direction)
    (node : String) :
    ownTotal (action.apply replicas) direction node =
      match action.amount? direction node with
      | none => ownTotal replicas direction node
      | some n => saturatingAdd (ownTotal replicas direction node) n := by
  unfold ownTotal
  cases action with
  | count direction' node' n =>
    rw [Action.apply, Action.amount?]
    by_cases hnode : node = node'
    · subst hnode
      rw [Function.update_self, total_count]
      by_cases hdirection : direction' = direction
      · rw [if_pos ⟨hdirection, rfl⟩, if_pos ⟨hdirection, rfl⟩]
      · rw [if_neg fun hown => hdirection hown.1, if_neg fun hown => hdirection hown.1]
    · rw [Function.update_of_ne hnode, if_neg fun hown => hnode hown.2.symm]
  | merge source target =>
    rw [Action.apply, Action.amount?]
    by_cases hnode : node = target
    · subst hnode
      rw [Function.update_self, totals_merge]
      -- the source is not ahead of the node, so the larger total is the node's own
      apply UInt64.le_antisymm
      · exact total_mergeWith_le_iff.2 ⟨UInt64.le_refl _, h source direction node⟩
      · exact (total_mergeWith_le_iff.1 (UInt64.le_refl _)).1
    · rw [Function.update_of_ne hnode]

theorem le_saturatingAdd (a b : UInt64) : a ≤ saturatingAdd a b := by
  rw [UInt64.le_iff_toNat_le, toNat_saturatingAdd]
  have hword : a.toNat < UInt64.size := a.toNat_lt
  omega

theorem ownTotal_le_apply (h : Trailing replicas) (action : Action) (direction : Direction)
    (node : String) :
    ownTotal replicas direction node ≤ ownTotal (action.apply replicas) direction node := by
  rw [ownTotal_apply h]
  cases action.amount? direction node with
  | none => exact UInt64.le_refl _
  | some n => exact le_saturatingAdd _ n

/-- A step leaves no counter ahead of a node. -/
theorem trailing_apply (h : Trailing replicas) (action : Action) :
    Trailing (action.apply replicas) := by
  intro replica direction node
  by_cases hown : replica = node
  · rw [hown]
    exact UInt64.le_refl _
  · -- own totals only grow, so it is enough to be at most what they were before
    refine UInt64.le_trans ?_ (ownTotal_le_apply h action direction node)
    cases action with
    | count direction' node' n =>
      rw [Action.apply]
      by_cases hreplica : replica = node'
      · subst hreplica
        rw [Function.update_self, total_count, if_neg fun hsame => hown hsame.2]
        exact h replica direction node
      · rw [Function.update_of_ne hreplica]
        exact h replica direction node
    | merge source target =>
      rw [Action.apply]
      by_cases hreplica : replica = target
      · subst hreplica
        rw [Function.update_self, totals_merge]
        exact total_mergeWith_le_iff.2 ⟨h replica direction node, h source direction node⟩
      · rw [Function.update_of_ne hreplica]
        exact h replica direction node

/-! ## §3 Whole runs -/

theorem replicasAfter_concat (run : List Action) (action : Action) :
    replicasAfter (run ++ [action]) = action.apply (replicasAfter run) := by
  rw [replicasAfter, List.foldl_append]
  rfl

theorem trailing_replicasAfter (run : List Action) : Trailing (replicasAfter run) := by
  induction run using List.reverseRecOn with
  | nil =>
    intro replica direction node
    exact UInt64.le_refl _
  | append_singleton run action ih =>
    rw [replicasAfter_concat]
    exact trailing_apply ih action

theorem saturatingSum_concat (amounts : List UInt64) (n : UInt64) :
    saturatingSum (amounts ++ [n]) = min (saturatingSum amounts + n.toNat) (UInt64.size - 1) := by
  have hsum : ((amounts ++ [n]).map UInt64.toNat).sum =
      (amounts.map UInt64.toNat).sum + n.toNat := by
    simp
  rw [saturatingSum, saturatingSum, hsum]
  omega

/-- A node's own total is the sum of what it has counted, unless that exceeds the largest word. -/
theorem toNat_ownTotal (run : List Action) (direction : Direction) (node : String) :
    (ownTotal (replicasAfter run) direction node).toNat =
      saturatingSum (counted run direction node) := by
  induction run using List.reverseRecOn with
  | nil => cases direction <;> rfl
  | append_singleton run action ih =>
    rw [replicasAfter_concat, ownTotal_apply (trailing_replicasAfter run), counted,
      List.filterMap_append]
    cases hamount : action.amount? direction node with
    | none =>
      rw [List.filterMap_cons_none hamount, List.filterMap_nil, List.append_nil]
      exact ih
    | some n =>
      rw [List.filterMap_cons_some hamount, List.filterMap_nil, saturatingSum_concat]
      show (saturatingAdd _ n).toNat = _
      rw [toNat_saturatingAdd, ih]
      rfl

/-- Nothing is counted for a node that takes no part. -/
theorem counted_eq_nil {nodes : Finset String} {run : List Action}
    (hwithin : ∀ action ∈ run, action.Within nodes) {node : String} (hnode : node ∉ nodes)
    (direction : Direction) : counted run direction node = [] := by
  refine List.filterMap_eq_nil_iff.2 ?_
  intro action haction
  cases action with
  | count direction' node' n =>
    have hne : ¬ (direction' = direction ∧ node' = node) := by
      rintro ⟨-, rfl⟩
      exact hnode (hwithin _ haction)
    exact if_neg hne
  | merge source target => rfl

/-! ## §4 Merging the final counters -/

/-- A way to merge counters of nodes. -/
inductive Grouping where
  /-- A counter without totals to start from. -/
  | fresh
  /-- The counter of a node. -/
  | replica (node : String)
  /-- One merged counter with another merged into it. -/
  | merged (mine theirs : Grouping)

namespace Grouping

/-- The counter that is the result. -/
def counter (replicas : Replicas) : Grouping → Counter
  | fresh => zero
  | replica node => replicas node
  | merged mine theirs => (mine.counter replicas).merge (theirs.counter replicas)

/-- The nodes whose counters are merged, each as often as that is done. -/
def nodes : Grouping → List String
  | fresh => []
  | replica node => [node]
  | merged mine theirs => mine.nodes ++ theirs.nodes

end Grouping

theorem isJoin_zero : zero.IsJoin [] := by
  constructor
  all_goals
    constructor
    · intro node v hfind
      cases hfind
    · intro part hpart
      cases hpart

theorem isJoin_counter (replicas : Replicas) (grouping : Grouping) :
    (grouping.counter replicas).IsJoin (grouping.nodes.map replicas) := by
  induction grouping with
  | fresh => exact isJoin_zero
  | replica node => exact isJoin_singleton _
  | merged mine theirs ihMine ihTheirs =>
    rw [Grouping.nodes, List.map_append]
    exact isJoin_merge ihMine ihTheirs

theorem isLargest_totals {c : Counter} {parts : List Counter} (h : c.IsJoin parts)
    (direction : Direction) : IsLargest (c.totals direction) (parts.map (·.totals direction)) := by
  cases direction with
  | up => exact h.increments
  | down => exact h.decrements

theorem zero_le (n : UInt64) : 0 ≤ n := UInt64.le_iff_toNat_le.2 (Nat.zero_le _)

theorem total_le_of_isLargest {totals : KeyMap UInt64} {parts : List (KeyMap UInt64)}
    {node : String} {bound : UInt64} (h : IsLargest totals parts)
    (hbound : ∀ part ∈ parts, total part node ≤ bound) : total totals node ≤ bound := by
  unfold total
  cases hfind : totals.find? node with
  | none => exact zero_le bound
  | some v =>
    obtain ⟨part, hpart, hv⟩ := h.attained node v hfind
    have hle := hbound part hpart
    rw [total, hv] at hle
    exact hle

theorem le_total_of_isLargest {totals part : KeyMap UInt64} {parts : List (KeyMap UInt64)}
    (h : IsLargest totals parts) (hpart : part ∈ parts) (node : String) :
    total part node ≤ total totals node := by
  unfold total
  cases hfind : part.find? node with
  | none => exact zero_le _
  | some u =>
    obtain ⟨v, hv, hle⟩ := h.atLeast part hpart node u hfind
    rw [hv]
    exact hle

theorem total_counter_le (h : Trailing replicas) (grouping : Grouping) (direction : Direction)
    (node : String) :
    total ((grouping.counter replicas).totals direction) node ≤ ownTotal replicas direction node := by
  refine total_le_of_isLargest (isLargest_totals (isJoin_counter replicas grouping) direction) ?_
  intro part hpart
  obtain ⟨c, hc, rfl⟩ := List.mem_map.1 hpart
  obtain ⟨replica, -, rfl⟩ := List.mem_map.1 hc
  exact h replica direction node

/-- A node whose own counter has been merged has its own total in the result. -/
theorem total_counter (h : Trailing replicas) {grouping : Grouping} (direction : Direction)
    {node : String} (hnode : node ∈ grouping.nodes) :
    total ((grouping.counter replicas).totals direction) node = ownTotal replicas direction node := by
  apply UInt64.le_antisymm
  · exact total_counter_le h grouping direction node
  · refine le_total_of_isLargest
      (isLargest_totals (isJoin_counter replicas grouping) direction) ?_ node
    exact List.mem_map_of_mem (List.mem_map_of_mem hnode)

/-- Counters that are merged from the same nodes are equal. -/
theorem counter_eq_of_same_nodes {grouping other : Grouping}
    (hsame : other.nodes.toFinset = grouping.nodes.toFinset) :
    other.counter replicas = grouping.counter replicas := by
  refine isJoin_unique (isJoin_counter replicas other) (isJoin_congr ?_
    (isJoin_counter replicas grouping))
  intro part
  have hmem : ∀ node, node ∈ other.nodes ↔ node ∈ grouping.nodes := by
    intro node
    rw [← List.mem_toFinset, hsame, List.mem_toFinset]
  simp only [List.mem_map, hmem]

/-! ## §5 Values -/

theorem sum_eq_sum_keys (totals : KeyMap UInt64) :
    sum totals = ∑ node ∈ totals.keys.toFinset, (total totals node).toNat := by
  rw [List.sum_toFinset _ totals.nodup_keys, KeyMap.keys, List.map_map]
  have htotals : totals.entries.map ((fun node => (total totals node).toNat) ∘ Prod.fst) =
      totals.entries.map fun e => e.2.toNat := by
    refine List.map_congr_left ?_
    intro e he
    show (total totals e.1).toNat = e.2.toNat
    rw [total, KeyMap.find?_of_mem he]
    rfl
  rw [htotals, sum, KeyMap.values, List.foldr_map, List.sum_eq_foldr, List.foldr_map]

/-- The sum of all totals is that over any nodes outside which there are none. -/
theorem sum_eq_sum_nodes {totals : KeyMap UInt64} {nodes : Finset String}
    (houtside : ∀ node, node ∉ nodes → total totals node = 0) :
    sum totals = ∑ node ∈ nodes, (total totals node).toNat := by
  have hmissing : ∀ node, node ∉ totals.keys.toFinset → total totals node = 0 := by
    intro node hnode
    rw [total]
    cases hfind : totals.find? node with
    | none => rfl
    | some v =>
      have hkey : node ∈ totals.keys := List.mem_map_of_mem (KeyMap.mem_of_find? hfind)
      exact absurd (List.mem_toFinset.2 hkey) hnode
  -- both sums are the one over all nodes that are in either set
  calc sum totals
      = ∑ node ∈ totals.keys.toFinset, (total totals node).toNat := sum_eq_sum_keys totals
    _ = ∑ node ∈ totals.keys.toFinset ∪ nodes, (total totals node).toNat :=
      Finset.sum_subset Finset.subset_union_left fun node _ hnode => by rw [hmissing node hnode]; rfl
    _ = ∑ node ∈ nodes, (total totals node).toNat :=
      (Finset.sum_subset Finset.subset_union_right fun node _ hnode => by
        rw [houtside node hnode]; rfl).symm

theorem clamp_eq (n : Int) : clamp n = max (-2 ^ 63) (min n (2 ^ 63 - 1)) := by
  unfold clamp Decimal.signedLimit
  omega

/-- Nodes that each count on their own counter, and merge the counters of others into it at any
time, have no counter at any point that is ahead of a node's own. Merged at the end, in any order
and grouping and with any repetitions, the counters always make the same counter: its totals are
what each node has counted, up to the largest word, and its value is the difference of their
sums, moved to the nearest signed 64-bit number. -/
theorem exchanged_exactly {nodes : Finset String} {run : List Action}
    (hwithin : ∀ action ∈ run, action.Within nodes) {grouping : Grouping}
    (hcovers : grouping.nodes.toFinset = nodes) :
    (∀ replica node direction, total ((replicasAfter run replica).totals direction) node ≤
      total ((replicasAfter run node).totals direction) node) ∧
    (∀ node direction, (total ((grouping.counter (replicasAfter run)).totals direction) node).toNat =
      saturatingSum (counted run direction node)) ∧
    (grouping.counter (replicasAfter run)).value =
      max (-2 ^ 63) (min
        ((∑ node ∈ nodes, saturatingSum (counted run .up node) : Nat) -
          (∑ node ∈ nodes, saturatingSum (counted run .down node) : Nat) : Int)
        (2 ^ 63 - 1)) ∧
    ∀ other : Grouping, other.nodes.toFinset = nodes →
      other.counter (replicasAfter run) = grouping.counter (replicasAfter run) := by
  have htrailing := trailing_replicasAfter run
  have htotal : ∀ node direction,
      (total ((grouping.counter (replicasAfter run)).totals direction) node).toNat =
        saturatingSum (counted run direction node) := by
    intro node direction
    by_cases hnode : node ∈ nodes
    · rw [← hcovers, List.mem_toFinset] at hnode
      rw [total_counter htrailing direction hnode, toNat_ownTotal]
    · -- such a node has counted nothing, so no counter can have a total for it
      have hle := UInt64.le_iff_toNat_le.1 (total_counter_le htrailing grouping direction node)
      rw [toNat_ownTotal, counted_eq_nil hwithin hnode] at hle
      rw [counted_eq_nil hwithin hnode]
      exact Nat.le_zero.1 hle
  have hsum : ∀ direction, sum ((grouping.counter (replicasAfter run)).totals direction) =
      ∑ node ∈ nodes, saturatingSum (counted run direction node) := by
    intro direction
    rw [sum_eq_sum_nodes]
    · exact Finset.sum_congr rfl fun node _ => htotal node direction
    · intro node hnode
      apply UInt64.toNat_inj.1
      rw [htotal, counted_eq_nil hwithin hnode]
      rfl
  refine ⟨fun replica node direction => htrailing replica direction node, htotal, ?_, ?_⟩
  · rw [value, clamp_eq]
    show max _ (min ((sum (Counter.totals _ .up) : Int) - sum (Counter.totals _ .down)) _) = _
    rw [hsum .up, hsum .down]
  · intro other hother
    exact counter_eq_of_same_nodes (hother.trans hcovers.symm)

/-- Two nodes count, one of them past the largest word, and exchange their counters meanwhile. -/
def countsOfAB : List Action :=
  [.count .up "a" 18446744073709551615, .merge "a" "b", .count .down "b" 7, .count .up "a" 1,
    .merge "b" "a", .count .down "a" 5, .merge "a" "b", .merge "a" "b"]

/-- The total of the first node has stopped at the largest word, and the value at the largest
signed number. -/
theorem counts_of_a_and_b_exchanged :
    let merged := Grouping.merged (.merged (.replica "b") (.replica "a")) (.replica "b")
    (∀ action ∈ countsOfAB, action.Within {"a", "b"}) ∧ merged.nodes.toFinset = {"a", "b"} ∧
    (total ((merged.counter (replicasAfter countsOfAB)).totals .up) "a").toNat = UInt64.size - 1 ∧
    (total ((merged.counter (replicasAfter countsOfAB)).totals .down) "b").toNat = 7 ∧
    (merged.counter (replicasAfter countsOfAB)).value = 2 ^ 63 - 1 := by
  intro merged
  have hwithin : ∀ action ∈ countsOfAB, action.Within {"a", "b"} := by decide
  have hcovers : merged.nodes.toFinset = {"a", "b"} := by decide
  obtain ⟨-, htotals, hvalue, -⟩ := exchanged_exactly hwithin hcovers
  refine ⟨hwithin, hcovers, ?_, ?_, ?_⟩
  · exact (htotals "a" .up).trans (by decide)
  · exact (htotals "b" .down).trans (by decide)
  · exact hvalue.trans (by decide)

end Counter

end ReplicaIntake
