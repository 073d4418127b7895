import ReplicaIntake.Proofs.Lineages

/-!
# What the built-in policies decide

A built-in policy never fails. When it does not decline, it lets one of the two writes win and
stores it under metadata that descends from both: the incoming write over whatever is stored, or a
stored write over the incoming one (`Decided`). A conflict marker never wins, because the policies
that keep what is stored decline it.
-/

namespace ReplicaIntake.Resolver

variable {α : Type}

/-- The policies that come with the library, and chains of them. -/
inductive BuiltIn : {α : Type} → Resolver α → Prop
  | preferRemote {α : Type} : BuiltIn (preferRemote (α := α))
  | preferLocal {α : Type} : BuiltIn (preferLocal (α := α))
  | preferNewest {α : Type} (field : String) : BuiltIn (preferNewest (α := α) field)
  | mergeCounters : BuiltIn mergeCounters
  | chain {α : Type} {policies : List (Resolver α)}
      (hpolicies : ∀ policy ∈ policies, BuiltIn policy) : BuiltIn (chain policies)

/-- What a built-in policy can answer about an incoming write and the stored record. -/
inductive Decided (incoming : Metadata) (payload : Option α) (existing : Record α) :
    Option (Resolution α) → Prop
  | declined : Decided incoming payload existing none
  /-- The incoming put wins. -/
  | replaced {a : α} (hpayload : payload = some a) :
    Decided incoming payload existing
      (some (.keep (incoming.descendFromBoth existing.metadata) a))
  /-- The incoming deletion wins. -/
  | removed (hpayload : payload = none) :
    Decided incoming payload existing
      (some (.remove (incoming.descendFromBoth existing.metadata)))
  /-- The incoming put is stored with a payload made of both. -/
  | merged {stored : α} (a : α) (hpayload : payload ≠ none)
      (hdata : existing.content = .data stored) :
    Decided incoming payload existing
      (some (.keep (incoming.descendFromBoth existing.metadata) a))
  /-- The stored data wins. -/
  | retained {a : α} (hdata : existing.content = .data a) :
    Decided incoming payload existing
      (some (.keep (existing.metadata.descendFromBoth incoming) a))
  /-- The stored deletion wins. -/
  | retainedDeletion (htombstone : existing.content = .tombstone) :
    Decided incoming payload existing
      (some (.remove (existing.metadata.descendFromBoth incoming)))

variable {key : String} {incoming : Metadata} {payload : Option α} {existing : Record α}

theorem decided_preferRemote :
    ∃ decision, preferRemote key incoming payload existing = .ok decision ∧
      Decided incoming payload existing decision := by
  cases payload with
  | some a => exact ⟨_, rfl, .replaced rfl⟩
  | none => exact ⟨_, rfl, .removed rfl⟩

theorem decided_preferLocal :
    ∃ decision, preferLocal key incoming payload existing = .ok decision ∧
      Decided incoming payload existing decision := by
  unfold preferLocal
  cases hcontent : existing.content with
  | data a => exact ⟨_, rfl, .retained hcontent⟩
  | tombstone => exact ⟨_, rfl, .retainedDeletion hcontent⟩
  | marker m => exact ⟨_, rfl, .declined⟩

theorem decided_preferNewest (field : String) :
    ∃ decision, preferNewest field key incoming payload existing = .ok decision ∧
      Decided incoming payload existing decision := by
  unfold preferNewest
  -- with two different times the question is handed on
  split
  · split
    · exact decided_preferRemote
    · split
      · exact decided_preferLocal
      · exact ⟨_, rfl, .declined⟩
  · exact ⟨_, rfl, .declined⟩

/-- The policy merges a put with any counter that is stored. -/
theorem mergeCounters_data {totals counter : Counter} {existing : Record Counter}
    (hdata : existing.content = .data counter) :
    mergeCounters key incoming (some totals) existing =
      .ok (some (.keep (incoming.descendFromBoth existing.metadata) (counter.merge totals))) := by
  simp [mergeCounters, Record.data?, hdata]

theorem decided_mergeCounters {payload : Option Counter} {existing : Record Counter} :
    ∃ decision, mergeCounters key incoming payload existing = .ok decision ∧
      Decided incoming payload existing decision := by
  unfold mergeCounters
  split
  · rename_i remote stored hstored
    have hdata : existing.content = .data stored := by
      cases hcontent : existing.content <;> simp_all [Record.data?]
    exact ⟨_, rfl, .merged _ (by simp) hdata⟩
  · exact ⟨_, rfl, .declined⟩

/-- A chain answers what one of its policies answers, or declines. -/
theorem decided_chain {policies : List (Resolver α)}
    (h : ∀ policy ∈ policies, ∃ decision, policy key incoming payload existing = .ok decision ∧
      Decided incoming payload existing decision) :
    ∃ decision, chain policies key incoming payload existing = .ok decision ∧
      Decided incoming payload existing decision := by
  induction policies with
  | nil => exact ⟨none, rfl, .declined⟩
  | cons policy rest ih =>
    obtain ⟨decision, hpolicy, hdecided⟩ := h policy List.mem_cons_self
    cases decision with
    | none =>
      -- the first policy declined, so the rest is asked
      have hrest := ih fun p hp => h p (List.mem_cons_of_mem _ hp)
      simpa only [chain, hpolicy] using hrest
    | some resolution =>
      exact ⟨some resolution, by simp only [chain, hpolicy], hdecided⟩

/-- No built-in policy fails, and what it answers is one of the cases of `Decided`. -/
theorem BuiltIn.decided {α : Type} {policy : Resolver α} (h : BuiltIn policy) (key : String)
    (incoming : Metadata) (payload : Option α) (existing : Record α) :
    ∃ decision, policy key incoming payload existing = .ok decision ∧
      Decided incoming payload existing decision := by
  induction h with
  | preferRemote => exact decided_preferRemote
  | preferLocal => exact decided_preferLocal
  | preferNewest field => exact decided_preferNewest field
  | mergeCounters => exact decided_mergeCounters
  | chain _ ih => exact decided_chain fun policy hpolicy => ih policy hpolicy payload existing

/-- A decision that is known is one of the cases of `Decided`. -/
theorem BuiltIn.decided_of_ok {policy : Resolver α} (h : BuiltIn policy)
    {decision : Option (Resolution α)} (hpolicy : policy key incoming payload existing =
      .ok decision) : Decided incoming payload existing decision := by
  obtain ⟨decision', hpolicy', hdecided⟩ := h.decided key incoming payload existing
  rw [hpolicy, Except.ok.injEq] at hpolicy'
  exact hpolicy' ▸ hdecided

end ReplicaIntake.Resolver
