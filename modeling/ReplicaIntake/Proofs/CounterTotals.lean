import ReplicaIntake.Counter

/-!
# The order of counters

A counter is at most another one when no node's total is larger in it (`Counter.AtMost`), where a
node without a total counts as zero. Merging is the least upper bound in that order
(`merge_le_iff`), so a merged counter is at most a bound exactly if both counters are.

The order does not tell a total of zero from one that is missing. `Counter.IsJoin` does: a counter
is the join of some counters if the total of every node is the largest of theirs, and that
determines it (`isJoin_unique`).
-/

namespace ReplicaIntake

/-! ## §1 Look-ups after a fold -/

namespace KeyMap

variable {α : Type}

theorem find?_foldl_insert (f : Option α → α → α) (q : String) :
    ∀ (l : List (String × α)) (m : KeyMap α), Ascending l →
      (l.foldl (fun m e => m.insert e.1 (f (m.find? e.1) e.2)) m).find? q =
        match l.lookup q with
        | none => m.find? q
        | some v => some (f (m.find? q) v)
  | [], m, _ => rfl
  | (k, v) :: rest, m, hascending => by
    obtain ⟨hhead, hrest⟩ := List.pairwise_cons.1 hascending
    -- the induction is over the entries, with the map that they are folded into left free
    rw [List.foldl_cons, find?_foldl_insert f q rest _ hrest, lookup_cons_ite]
    by_cases hq : q = k
    · -- the rest does not know the key of the head
      rw [if_pos hq, hq, lookup_eq_none_of_lt hhead]
      exact find?_insert_self m k _
    · rw [if_neg hq, find?_insert_of_ne m _ hq]

/-- Each key of the second map has been folded into the first. -/
theorem find?_mergeWith (f : Option α → α → α) (a b : KeyMap α) (q : String) :
    (a.mergeWith f b).find? q =
      match b.find? q with
      | none => a.find? q
      | some v => some (f (a.find? q) v) :=
  find?_foldl_insert f q b.entries a b.ascending

/-- A map is made of its entries again. -/
theorem ofList_entries (m : KeyMap α) : ofList m.entries = m := by
  refine ext_find? fun q => ?_
  have hfold := find?_foldl_insert (fun _ v => v) q m.entries empty m.ascending
  rw [ofList, hfold]
  show (match m.find? q with | none => none | some v => some v) = m.find? q
  cases m.find? q <;> rfl

theorem find?_of_mem {m : KeyMap α} {e : String × α} (h : e ∈ m.entries) :
    m.find? e.1 = some e.2 := by
  obtain ⟨entries, hascending⟩ := m
  show entries.lookup e.1 = some e.2
  induction entries with
  | nil => cases h
  | cons entry rest ih =>
    obtain ⟨hhead, hrest⟩ := List.pairwise_cons.1 hascending
    obtain ⟨k, v⟩ := entry
    rw [lookup_cons_ite]
    rcases List.mem_cons.1 h with rfl | hmem
    · rw [if_pos rfl]
    · -- the keys ascend, so the key of the head does not come again
      have hne : e.1 ≠ k := by
        intro hk
        exact String.lt_irrefl _ (hk ▸ hhead e hmem)
      rw [if_neg hne]
      exact ih hrest hmem

theorem mem_of_find? {m : KeyMap α} {k : String} {v : α} (h : m.find? k = some v) :
    (k, v) ∈ m.entries := by
  obtain ⟨entries, hascending⟩ := m
  have hlookup : entries.lookup k = some v := h
  clear h
  show (k, v) ∈ entries
  induction entries with
  | nil => cases hlookup
  | cons entry rest ih =>
    obtain ⟨k', v'⟩ := entry
    rw [lookup_cons_ite] at hlookup
    split at hlookup
    · rename_i hk
      obtain rfl := Option.some.inj hlookup
      rw [hk]
      exact List.mem_cons_self
    · exact List.mem_cons_of_mem _ (ih (List.pairwise_cons.1 hascending).2 hlookup)

/-- The keys ascend, so no key comes twice. -/
theorem nodup_keys (m : KeyMap α) : m.keys.Nodup := by
  refine List.pairwise_map.2 (m.ascending.imp ?_)
  intro e e' hlt heq
  rw [heq] at hlt
  exact String.lt_irrefl _ hlt

end KeyMap

namespace Counter

/-! ## §2 Totals -/

/-- The total of a node, which is zero when none is kept. -/
def total (totals : KeyMap UInt64) (node : String) : UInt64 := (totals.find? node).getD 0

/-- Every total is at most the other one of the same node. -/
def TotalsAtMost (a b : KeyMap UInt64) : Prop := ∀ node, total a node ≤ total b node

theorem larger_le_iff {mine : Option UInt64} {theirs bound : UInt64} :
    larger mine theirs ≤ bound ↔ mine.getD 0 ≤ bound ∧ theirs ≤ bound := by
  cases mine with
  | none =>
    have hzero : (0 : UInt64) ≤ bound := UInt64.le_iff_toNat_le.2 (Nat.zero_le _)
    simp [larger, hzero]
  | some n =>
    simp only [larger, Option.getD_some, UInt64.le_iff_toNat_le]
    split <;> omega

/-- The merged total of a node is at most a bound exactly if both totals are. -/
theorem total_mergeWith_le_iff {a b : KeyMap UInt64} {node : String} {bound : UInt64} :
    total (a.mergeWith larger b) node ≤ bound ↔ total a node ≤ bound ∧ total b node ≤ bound := by
  have hzero : (0 : UInt64) ≤ bound := UInt64.le_iff_toNat_le.2 (Nat.zero_le _)
  unfold total
  rw [KeyMap.find?_mergeWith]
  cases b.find? node with
  | none =>
    -- a node without a total counts as zero, which any bound is above
    simp [hzero]
  | some v => exact larger_le_iff

theorem totalsAtMost_mergeWith_iff {a b c : KeyMap UInt64} :
    TotalsAtMost (a.mergeWith larger b) c ↔ TotalsAtMost a c ∧ TotalsAtMost b c := by
  constructor
  · intro h
    exact ⟨fun node => (total_mergeWith_le_iff.1 (h node)).1,
      fun node => (total_mergeWith_le_iff.1 (h node)).2⟩
  · rintro ⟨ha, hb⟩ node
    exact total_mergeWith_le_iff.2 ⟨ha node, hb node⟩

/-- Only the totals that are kept have to be compared. -/
theorem totalsAtMost_iff_entries {a b : KeyMap UInt64} :
    TotalsAtMost a b ↔ ∀ e ∈ a.entries, e.2 ≤ total b e.1 := by
  constructor
  · intro h e he
    have htotal := h e.1
    rw [total, KeyMap.find?_of_mem he] at htotal
    exact htotal
  · intro h node
    rw [total]
    cases hfind : a.find? node with
    -- a total that is not kept is zero
    | none => exact UInt64.le_iff_toNat_le.2 (Nat.zero_le _)
    | some v => exact h (node, v) (KeyMap.mem_of_find? hfind)

instance (a b : KeyMap UInt64) : Decidable (TotalsAtMost a b) :=
  decidable_of_iff _ totalsAtMost_iff_entries.symm

/-! ## §3 Counters -/

/-- No total of the first counter is larger than in the second. -/
structure AtMost (a b : Counter) : Prop where
  increments : TotalsAtMost a.increments b.increments
  decrements : TotalsAtMost a.decrements b.decrements

instance : LE Counter := ⟨AtMost⟩

instance (a b : Counter) : Decidable (a ≤ b) :=
  decidable_of_iff (TotalsAtMost a.increments b.increments ∧ TotalsAtMost a.decrements b.decrements)
    ⟨fun h => ⟨h.1, h.2⟩, fun h => ⟨h.increments, h.decrements⟩⟩

theorem le_refl (c : Counter) : c ≤ c :=
  ⟨fun _ => UInt64.le_refl _, fun _ => UInt64.le_refl _⟩

/-- The merged counter is the least one that both are at most. -/
theorem merge_le_iff {a b c : Counter} : a.merge b ≤ c ↔ a ≤ c ∧ b ≤ c := by
  constructor
  · intro h
    have hincrements := totalsAtMost_mergeWith_iff.1 h.increments
    have hdecrements := totalsAtMost_mergeWith_iff.1 h.decrements
    exact ⟨⟨hincrements.1, hdecrements.1⟩, ⟨hincrements.2, hdecrements.2⟩⟩
  · rintro ⟨ha, hb⟩
    exact ⟨totalsAtMost_mergeWith_iff.2 ⟨ha.increments, hb.increments⟩,
      totalsAtMost_mergeWith_iff.2 ⟨ha.decrements, hb.decrements⟩⟩

theorem le_merge_left (a b : Counter) : a ≤ a.merge b :=
  (merge_le_iff.1 (le_refl (a.merge b))).1

/-! ## §4 Joins -/

/-- Every node that has a total in one of the parts has the largest of those, and no other node has
one. -/
structure IsLargest (totals : KeyMap UInt64) (parts : List (KeyMap UInt64)) : Prop where
  attained : ∀ node v, totals.find? node = some v → ∃ part ∈ parts, part.find? node = some v
  atLeast : ∀ part ∈ parts, ∀ node u, part.find? node = some u →
    ∃ v, totals.find? node = some v ∧ u ≤ v

theorem isLargest_singleton (totals : KeyMap UInt64) : IsLargest totals [totals] where
  attained _ _ hfind := ⟨totals, List.mem_singleton_self totals, hfind⟩
  atLeast _ hpart _ u hfind :=
    ⟨u, List.mem_singleton.1 hpart ▸ hfind, UInt64.le_refl u⟩

theorem le_larger (mine : Option UInt64) (theirs : UInt64) : theirs ≤ larger mine theirs := by
  cases mine with
  | none => exact UInt64.le_refl theirs
  | some n =>
    simp only [larger, UInt64.le_iff_toNat_le]
    split <;> omega

theorem mine_le_larger (n theirs : UInt64) : n ≤ larger (some n) theirs := by
  simp only [larger, UInt64.le_iff_toNat_le]
  split <;> omega

/-- A merged total is one of the two that were merged. -/
theorem larger_cases (mine : Option UInt64) (theirs : UInt64) :
    larger mine theirs = theirs ∨ mine = some (larger mine theirs) := by
  cases mine with
  | none => exact .inl rfl
  | some n =>
    simp only [larger]
    split
    · exact .inl rfl
    · exact .inr rfl

/-- Merging keeps the larger total of every node, so the parts of either side are parts. -/
theorem isLargest_mergeWith {a b : KeyMap UInt64} {parts parts' : List (KeyMap UInt64)}
    (ha : IsLargest a parts) (hb : IsLargest b parts') :
    IsLargest (a.mergeWith larger b) (parts ++ parts') where
  attained node v hfind := by
    rw [KeyMap.find?_mergeWith] at hfind
    cases hfind' : b.find? node with
    | none =>
      -- the second side has nothing to add for this node
      rw [hfind'] at hfind
      obtain ⟨p, hp, hv⟩ := ha.attained node v hfind
      exact ⟨p, List.mem_append_left _ hp, hv⟩
    | some u =>
      rw [hfind'] at hfind
      obtain rfl := Option.some.inj hfind
      rcases larger_cases (a.find? node) u with hnew | hold
      · obtain ⟨p, hp, hv⟩ := hb.attained node u hfind'
        rw [hnew]
        exact ⟨p, List.mem_append_right _ hp, hv⟩
      · obtain ⟨p, hp, hv⟩ := ha.attained node _ hold
        exact ⟨p, List.mem_append_left _ hp, hv⟩
  atLeast p hp node u hu := by
    rw [KeyMap.find?_mergeWith]
    rcases List.mem_append.1 hp with hp | hp
    · obtain ⟨v, hv, hle⟩ := ha.atLeast p hp node u hu
      rw [hv]
      cases b.find? node with
      | none => exact ⟨v, rfl, hle⟩
      | some w => exact ⟨_, rfl, UInt64.le_trans hle (mine_le_larger v w)⟩
    · obtain ⟨w, hw, hle⟩ := hb.atLeast p hp node u hu
      rw [hw]
      exact ⟨_, rfl, UInt64.le_trans hle (le_larger _ w)⟩

/-- Neither the order nor the number of the parts matters. -/
theorem isLargest_congr {totals : KeyMap UInt64} {parts parts' : List (KeyMap UInt64)}
    (hsame : ∀ part, part ∈ parts' ↔ part ∈ parts) (h : IsLargest totals parts) :
    IsLargest totals parts' where
  attained node v hfind := by
    obtain ⟨part, hpart, hv⟩ := h.attained node v hfind
    exact ⟨part, (hsame part).2 hpart, hv⟩
  atLeast part hpart := h.atLeast part ((hsame part).1 hpart)

theorem find?_le_of_isLargest {totals totals' : KeyMap UInt64} {parts : List (KeyMap UInt64)}
    (h : IsLargest totals parts) (h' : IsLargest totals' parts) {node : String} {v : UInt64}
    (hfind : totals.find? node = some v) : ∃ v', totals'.find? node = some v' ∧ v ≤ v' := by
  obtain ⟨part, hpart, hv⟩ := h.attained node v hfind
  exact h'.atLeast part hpart node v hv

/-- The parts determine the totals. -/
theorem isLargest_unique {totals totals' : KeyMap UInt64} {parts : List (KeyMap UInt64)}
    (h : IsLargest totals parts) (h' : IsLargest totals' parts) : totals = totals' := by
  apply KeyMap.ext_find?
  intro node
  cases hfind : totals.find? node with
  | none =>
    cases hfind' : totals'.find? node with
    | none => rfl
    | some v =>
      obtain ⟨v', hv', -⟩ := find?_le_of_isLargest h' h hfind'
      rw [hfind] at hv'
      cases hv'
  | some v =>
    -- each of the two totals is at most the other
    obtain ⟨v', hv', hle⟩ := find?_le_of_isLargest h h' hfind
    obtain ⟨v'', hv'', hge⟩ := find?_le_of_isLargest h' h hv'
    obtain rfl := Option.some.inj (hfind.symm.trans hv'')
    rw [hv', UInt64.le_antisymm hle hge]

/-- The counter keeps the largest totals of the parts, node by node. -/
structure IsJoin (c : Counter) (parts : List Counter) : Prop where
  increments : IsLargest c.increments (parts.map (·.increments))
  decrements : IsLargest c.decrements (parts.map (·.decrements))

theorem isJoin_singleton (c : Counter) : c.IsJoin [c] :=
  ⟨isLargest_singleton _, isLargest_singleton _⟩

theorem isJoin_merge {c d : Counter} {parts parts' : List Counter} (hc : c.IsJoin parts)
    (hd : d.IsJoin parts') : (c.merge d).IsJoin (parts ++ parts') where
  increments := by
    rw [List.map_append]
    exact isLargest_mergeWith hc.increments hd.increments
  decrements := by
    rw [List.map_append]
    exact isLargest_mergeWith hc.decrements hd.decrements

theorem isJoin_congr {c : Counter} {parts parts' : List Counter}
    (hsame : ∀ part, part ∈ parts' ↔ part ∈ parts) (h : c.IsJoin parts) : c.IsJoin parts' where
  increments := isLargest_congr (by simp [hsame]) h.increments
  decrements := isLargest_congr (by simp [hsame]) h.decrements

theorem isJoin_unique {c c' : Counter} {parts : List Counter} (h : c.IsJoin parts)
    (h' : c'.IsJoin parts) : c = c' := by
  obtain ⟨increments, decrements⟩ := c
  obtain ⟨increments', decrements'⟩ := c'
  obtain rfl : increments = increments' := isLargest_unique h.increments h'.increments
  obtain rfl : decrements = decrements' := isLargest_unique h.decrements h'.decrements
  rfl

end Counter

end ReplicaIntake
