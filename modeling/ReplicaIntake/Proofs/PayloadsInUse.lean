import Mathlib.Data.List.Perm.Subperm
import ReplicaIntake.Proofs.Format.Binaries
import ReplicaIntake.Proofs.Lockstep

/-!
# Policies keep to payloads in use

A policy that lets one of the two writes win keeps to whatever payloads are in use. One that merges
counters does so if the counters in use can be merged, such as those that only some nodes count on
(`Counter.Among`); and these can be stored if the nodes are not too many for a machine.
-/

namespace ReplicaIntake

/-! ## §1 Policies -/

namespace Resolver

variable {α : Type} {P : α → Prop}

theorem keeps_preferRemote : (preferRemote : Resolver α).Keeps P := by
  intro key incoming payload existing resolution hpayload _ hdecided
  cases payload with
  | some a => cases hdecided; exact hpayload a rfl
  | none => cases hdecided; trivial

theorem keeps_preferLocal : (preferLocal : Resolver α).Keeps P := by
  rintro key incoming payload ⟨content, etag, metadata⟩ resolution - hexisting hdecided
  cases content with
  | data a => cases hdecided; exact hexisting
  | tombstone => cases hdecided; trivial
  | marker m => cases hdecided

theorem keeps_preferNewest (field : String) : (preferNewest field : Resolver α).Keeps P := by
  intro key incoming payload existing resolution hpayload hexisting hdecided
  -- with two different times the question is handed on
  unfold preferNewest at hdecided
  split at hdecided
  · split at hdecided
    · exact keeps_preferRemote key incoming payload existing resolution hpayload hexisting hdecided
    · split at hdecided
      · exact keeps_preferLocal key incoming payload existing resolution hpayload hexisting hdecided
      · cases hdecided
  · cases hdecided

theorem keeps_mergeCounters {P : Counter → Prop} (hmerge : ∀ c d, P c → P d → P (c.merge d)) :
    mergeCounters.Keeps P := by
  rintro key incoming payload ⟨content, etag, metadata⟩ resolution hpayload hexisting hdecided
  unfold mergeCounters at hdecided
  split at hdecided
  · rename_i remote stored hstored
    cases content with
    | data counter =>
      obtain rfl : counter = stored := Option.some.inj hstored
      cases hdecided
      exact hmerge counter remote hexisting (hpayload remote rfl)
    | marker m => cases hstored
    | tombstone => cases hstored
  · cases hdecided

/-- A chain keeps to the payloads that all of its policies keep to. -/
theorem keeps_chain {policies : List (Resolver α)} (h : ∀ policy ∈ policies, policy.Keeps P) :
    (chain policies).Keeps P := by
  intro key incoming payload existing resolution hpayload hexisting hdecided
  induction policies with
  | nil => cases hdecided
  | cons policy rest ih =>
    obtain ⟨hpolicy, hrest⟩ := List.forall_mem_cons.1 h
    -- the first policy declines, or the decision is its own
    unfold chain at hdecided
    split at hdecided
    · exact ih hrest hdecided
    · exact hpolicy key incoming payload existing resolution hpayload hexisting hdecided

end Resolver

/-! ## §2 Counters of some nodes -/

namespace Counter

variable {nodes : List String}

/-- Only the given nodes have totals. -/
def TotalsAmong (nodes : List String) (totals : KeyMap UInt64) : Prop :=
  ∀ node, (totals.find? node).isSome → node ∈ nodes

/-- Only the given nodes have counted. -/
structure Among (nodes : List String) (c : Counter) : Prop where
  increments : TotalsAmong nodes c.increments
  decrements : TotalsAmong nodes c.decrements

theorem totalsAmong_mergeWith {a b : KeyMap UInt64} (ha : TotalsAmong nodes a)
    (hb : TotalsAmong nodes b) : TotalsAmong nodes (a.mergeWith larger b) := by
  intro node hfound
  rw [KeyMap.find?_mergeWith] at hfound
  -- a node with a merged total has one on either side
  cases htotal : b.find? node with
  | none => rw [htotal] at hfound; exact ha node hfound
  | some n => exact hb node (by rw [htotal]; rfl)

/-- Merging brings no other nodes in. -/
theorem among_merge {c d : Counter} (hc : c.Among nodes) (hd : d.Among nodes) :
    (c.merge d).Among nodes :=
  ⟨totalsAmong_mergeWith hc.increments hd.increments,
    totalsAmong_mergeWith hc.decrements hd.decrements⟩

theorem totalsStorable_of_among {totals : KeyMap UInt64} (h : TotalsAmong nodes totals)
    (hmany : nodes.length < UInt64.size) (hnames : ∀ node ∈ nodes, (utf8 node).length < UInt64.size) :
    TotalsStorable totals := by
  have hmem : ∀ e ∈ totals.entries, e.1 ∈ nodes := fun e he =>
    h e.1 (by rw [KeyMap.find?_of_mem he]; rfl)
  refine ⟨?_, fun e he => hnames e.1 (hmem e he)⟩
  -- the keys are different, so there are no more of them than nodes
  have hkeys : totals.keys.Nodup := totals.nodup_keys
  have hsubset : totals.keys ⊆ nodes := by
    intro node hnode
    obtain ⟨e, he, rfl⟩ := List.mem_map.1 hnode
    exact hmem e he
  have hle : totals.keys.length ≤ nodes.length := (hkeys.subperm hsubset).length_le
  rw [KeyMap.keys, List.length_map] at hle
  exact Nat.lt_of_le_of_lt hle hmany

/-- Counters that only some nodes count on can be stored. -/
theorem storable_of_among {c : Counter} (h : c.Among nodes) (hmany : nodes.length < UInt64.size)
    (hnames : ∀ node ∈ nodes, (utf8 node).length < UInt64.size) : c.Storable :=
  ⟨totalsStorable_of_among h.increments hmany hnames,
    totalsStorable_of_among h.decrements hmany hnames⟩

end Counter

end ReplicaIntake
