import Mathlib.Data.List.Nodup
import ReplicaIntake.Proofs.Lineages

/-!
# Lineages as sliding windows

A node that writes under one key again and again makes each write on top of the one before it: the
identity of that write is appended to its lineage, and the oldest entry goes when the lineage is
full. So the lineage of a write lists exactly the last writes before it (`Chain.stamped`), and the
relation of two writes is a matter of how many others lie between them: within the bound the later one
descends from the earlier one, and beyond it they are concurrent (`Chain.slides`).
-/

namespace ReplicaIntake

/-! ## §1 Appending to a window -/

namespace Lineage

/-- Entries that have gone are not missed when the next one is appended. -/
theorem append_bound (l : Lineage) (id : WriteId) (max : Nat) :
    (l.bound max).append id max = (l ++ [id]).bound max := by
  by_cases hmax : max = 0
  · subst hmax
    simp [append, bound]
  · have hroom : [id].length ≤ max := by
      rw [List.length_singleton]
      omega
    rw [append_eq _ _ (by omega), bound_bound _ (Nat.sub_le max 1), bound_append l hroom,
      List.length_singleton]

end Lineage

/-- Of entries that are all different, the ones in a window are those between its ends. -/
theorem mem_drop_take_iff {l : List WriteId} (hl : l.Nodup) {i j d : Nat} (hi : i < l.length)
    (hj : j ≤ l.length) : l[i] ∈ (l.take j).drop d ↔ d ≤ i ∧ i < j := by
  rw [List.mem_iff_getElem]
  constructor
  · rintro ⟨k, hk, hget⟩
    rw [List.length_drop, List.length_take] at hk
    rw [List.getElem_drop, List.getElem_take, hl.getElem_inj_iff] at hget
    omega
  · rintro ⟨hdi, hij⟩
    refine ⟨i - d, ?_, ?_⟩
    · rw [List.length_drop, List.length_take]
      omega
    · rw [List.getElem_drop, List.getElem_take]
      congr 1
      omega

/-! ## §2 Chains of writes -/

/-- Writes of one node in the order in which they were made, with lineages of at most `max` entries
that slide along them. -/
structure Slides (localId : String) (max : Nat) (writes : List Metadata) : Prop where
  identified : ∀ w ∈ writes, ∃ version, w.identity = some ⟨localId, version⟩
  /-- The versions grow from each write to all later ones. -/
  ascending : writes.Pairwise fun w w' =>
    ∃ version version', w.version = some version ∧ w'.version = some version' ∧ version < version'
  /-- The lineage of a write is the identities of the last `max` writes before it, oldest first, or
  of all of them if there are no more. -/
  window : ∀ (j : Nat) (hj : j < writes.length),
    writes[j].lineage.map some = ((writes.take j).drop (j - max)).map Metadata.identity
  /-- Two writes with fewer than `max` others between them are related, and any other two are
  concurrent. -/
  related : ∀ (i j : Nat) (hij : i < j) (hj : j < writes.length),
    if j - i ≤ max then
      writes[j].checkAncestry writes[i] = .ok .descendant ∧
        writes[i].checkAncestry writes[j] = .ok .ancestor
    else
      writes[j].checkAncestry writes[i] = .ok .concurrent ∧
        writes[i].checkAncestry writes[j] = .ok .concurrent

/-- The writes have the given identities, and each lists those before its own as far as the bound
allows. -/
structure Chain (localId : String) (max : Nat) (ids : List WriteId) (writes : List Metadata) :
    Prop where
  identities : writes.map Metadata.identity = ids.map some
  sources : ∀ id ∈ ids, id.source = localId
  ascending : ids.Pairwise fun id id' => id.version < id'.version
  lineages : ∀ (j : Nat) (hj : j < writes.length),
    writes[j].lineage = Lineage.bound (ids.take j) max

namespace Chain

variable {localId : String} {max : Nat} {ids : List WriteId} {writes : List Metadata}

theorem nil (localId : String) (max : Nat) : Chain localId max [] [] where
  identities := rfl
  sources _ hid := absurd hid List.not_mem_nil
  ascending := .nil
  lineages j hj := absurd hj (Nat.not_lt_zero j)

theorem length_eq (h : Chain localId max ids writes) : ids.length = writes.length := by
  have hlength := congrArg List.length h.identities
  rw [List.length_map, List.length_map] at hlength
  exact hlength.symm

theorem identity_getElem (h : Chain localId max ids writes) {j : Nat} (hj : j < writes.length)
    (hids : j < ids.length) : writes[j].identity = some ids[j] := by
  have hget : (writes.map Metadata.identity)[j]? = (ids.map some)[j]? := by rw [h.identities]
  rw [List.getElem?_map, List.getElem?_map, List.getElem?_eq_getElem hj,
    List.getElem?_eq_getElem hids] at hget
  exact Option.some.inj hget

theorem nodup (h : Chain localId max ids writes) : ids.Nodup :=
  h.ascending.imp fun {id id'} hlt heq => by
    subst heq
    exact UInt64.lt_irrefl _ hlt

/-! ## §3 One more write -/

/-- What the next write lists: all identities so far, as far as the bound allows. -/
theorem lineage_stamp (h : Chain localId max ids writes) (version : UInt64) :
    (Metadata.stamp writes.getLast? localId version max).lineage = Lineage.bound ids max := by
  cases hlast : writes.getLast? with
  | none =>
    -- the first write
    have hempty : ids = [] := by
      rw [← List.length_eq_zero_iff, h.length_eq, List.length_eq_zero_iff]
      exact List.getLast?_eq_none_iff.1 hlast
    simp [Metadata.stamp, Metadata.ofId, hempty, Lineage.bound]
  | some last =>
    -- the last write lists what was before it, and is appended
    obtain ⟨earlier, rfl⟩ := List.getLast?_eq_some_iff.1 hlast
    have hlength := h.length_eq
    rw [List.length_append, List.length_singleton] at hlength
    have hids : earlier.length < ids.length := by omega
    have hj : earlier.length < (earlier ++ [last]).length := by simp
    have hid := h.identity_getElem hj hids
    have hlineage := h.lineages earlier.length hj
    rw [List.getElem_concat_length rfl] at hid hlineage
    have hwhole : ids.take earlier.length ++ [ids[earlier.length]] = ids := by
      rw [← List.take_succ_eq_append_getElem hids]
      exact List.take_of_length_le (by omega)
    simp only [Metadata.stamp, hid, hlineage, Lineage.append_bound, hwhole]

/-- A write that is stamped on top of the last one continues the chain. -/
theorem stamped (h : Chain localId max ids writes) {version : UInt64} {metadata : Metadata}
    (hmetadata : ∃ deleted, metadata = { Metadata.stamp writes.getLast? localId version max with
      deleted := deleted })
    (hlater : ∀ id ∈ ids, id.version < version) :
    Chain localId max (ids ++ [⟨localId, version⟩]) (writes ++ [metadata]) := by
  obtain ⟨deleted, rfl⟩ := hmetadata
  have hlineage := h.lineage_stamp version
  have hid : ({ Metadata.stamp writes.getLast? localId version max with
      deleted := deleted } : Metadata).identity = some ⟨localId, version⟩ := by
    cases writes.getLast? <;> rfl
  refine ⟨?_, ?_, ?_, ?_⟩
  · rw [List.map_append, List.map_append, h.identities, List.map_singleton, List.map_singleton, hid]
  · intro id hmem
    rcases List.mem_append.1 hmem with hold | hnew
    · exact h.sources id hold
    · rw [List.mem_singleton.1 hnew]
  · rw [List.pairwise_append]
    refine ⟨h.ascending, List.pairwise_singleton _ _, fun id hmem id' hnew => ?_⟩
    rw [List.mem_singleton.1 hnew]
    exact hlater id hmem
  · intro j hj
    rw [List.length_append, List.length_singleton] at hj
    rcases Nat.lt_succ_iff_lt_or_eq.1 hj with hold | rfl
    · have hids : j ≤ ids.length := by
        rw [h.length_eq]
        exact Nat.le_of_lt hold
      rw [List.getElem_append_left hold, List.take_append_of_le_length hids]
      exact h.lineages j hold
    · -- the new write lists all of the old ones
      rw [List.getElem_concat_length rfl, List.take_left' h.length_eq]
      exact hlineage

/-! ## §4 What follows from being a chain -/

theorem lineage_getElem (h : Chain localId max ids writes) {j : Nat} (hj : j < writes.length) :
    writes[j].lineage = (ids.take j).drop (j - max) := by
  have hids : j ≤ ids.length := by
    rw [h.length_eq]
    omega
  rw [h.lineages j hj, Lineage.bound, List.length_take, Nat.min_eq_left hids]

/-- A write lists an earlier one exactly if fewer than `max` others lie between them. -/
theorem listed_iff (h : Chain localId max ids writes) {i j : Nat} (hij : i < j)
    (hi : i < ids.length) (hj : j < writes.length) :
    ids[i] ∈ writes[j].lineage ↔ j - i ≤ max := by
  have hids : j ≤ ids.length := by
    rw [h.length_eq]
    omega
  rw [h.lineage_getElem hj, mem_drop_take_iff h.nodup hi hids]
  omega

/-- No write lists a later one. -/
theorem not_listed (h : Chain localId max ids writes) {i j : Nat} (hij : i < j)
    (hi : i < writes.length) (hj : j < ids.length) : ids[j] ∉ writes[i].lineage := by
  rw [h.lineage_getElem hi, mem_drop_take_iff h.nodup hj (by omega)]
  omega

theorem slides (h : Chain localId max ids writes) : Slides localId max writes where
  identified := by
    intro w hw
    have hid : w.identity ∈ ids.map some := h.identities ▸ List.mem_map_of_mem hw
    obtain ⟨id, hmem, hid⟩ := List.mem_map.1 hid
    refine ⟨id.version, ?_⟩
    rw [← hid, ← h.sources id hmem]
  ascending := by
    have hpairs : (writes.map Metadata.identity).Pairwise fun o o' =>
        ∃ id id', o = some id ∧ o' = some id' ∧ id.version < id'.version := by
      rw [h.identities, List.pairwise_map]
      exact h.ascending.imp fun {id id'} hlt => ⟨id, id', rfl, rfl, hlt⟩
    refine (List.pairwise_map.1 hpairs).imp ?_
    rintro w w' ⟨id, id', hid, hid', hlt⟩
    exact ⟨id.version, id'.version, Metadata.version_of_identity hid,
      Metadata.version_of_identity hid', hlt⟩
  window := by
    intro j hj
    rw [h.lineage_getElem hj, List.map_drop, List.map_take, ← h.identities, ← List.map_take,
      ← List.map_drop]
  related := by
    intro i j hij hj
    have hi : i < writes.length := by omega
    have hidi : i < ids.length := h.length_eq ▸ hi
    have hidj : j < ids.length := h.length_eq ▸ hj
    have hlater := h.identity_getElem hj hidj
    have hearlier := h.identity_getElem hi hidi
    have hne : ids[j] ≠ ids[i] := by
      rw [Ne, h.nodup.getElem_inj_iff]
      omega
    have hunlisted := h.not_listed hij hi hidj
    -- the later write lists the earlier one as long as its window reaches back to it
    split
    · rename_i hnear
      have hlisted := (h.listed_iff hij hidi hj).2 hnear
      exact ⟨(Metadata.checkAncestry_descendant_iff hlater hearlier hne).2 ⟨hlisted, hunlisted⟩,
        (Metadata.checkAncestry_ancestor_iff hearlier hlater hne.symm).2 ⟨hunlisted, hlisted⟩⟩
    · rename_i hfar
      have hgone : ids[i] ∉ writes[j].lineage :=
        fun hlisted => hfar ((h.listed_iff hij hidi hj).1 hlisted)
      exact ⟨Metadata.checkAncestry_of_unlisted hlater hearlier hne hgone hunlisted,
        Metadata.checkAncestry_of_unlisted hearlier hlater hne.symm hunlisted hgone⟩

end Chain

end ReplicaIntake
