import ReplicaIntake.Ancestry

/-!
# The relation of two writes

What the comparison of an incoming write with a stored one says about their identities and lineages.
Two different writes are compared by looking each one up in the lineage of the other
(`checkAncestry_of_ne`). A write counts as a descendant only if it lists the stored identity
(`listed_of_descendant`).
-/

namespace ReplicaIntake

namespace Metadata

variable {incoming existing : Metadata} {id current : WriteId}

/-! ## §1 Identities -/

theorem sameIdentity_of_some (h : incoming.identity = some id) :
    existing.sameIdentity incoming = (existing.identity == some id) := by
  simp only [sameIdentity, h]
  cases existing.identity <;> rfl

theorem sameIdentity_of_none (h : incoming.identity = none) :
    existing.sameIdentity incoming = false := by
  simp only [sameIdentity, h]
  cases existing.identity <;> rfl

theorem sameIdentity_comm (a b : Metadata) : a.sameIdentity b = b.sameIdentity a := by
  simp only [sameIdentity]
  cases a.identity with
  | none => cases b.identity <;> rfl
  | some x =>
    cases b.identity with
    | none => rfl
    | some y => exact Bool.beq_comm

theorem source_of_identity (h : incoming.identity = some id) :
    incoming.source = some id.source := by
  cases hs : incoming.source <;> cases hv : incoming.version <;>
    simp [identity, hs, hv] at h
  rw [← h]

theorem version_of_identity (h : incoming.identity = some id) :
    incoming.version = some id.version := by
  cases hs : incoming.source <;> cases hv : incoming.version <;>
    simp [identity, hs, hv] at h
  rw [← h]

/-! ## §2 Lineages -/

theorem mem_of_mem_bound {l : Lineage} {max : Nat} (h : id ∈ l.bound max) : id ∈ l :=
  List.mem_of_mem_drop h

/-- Two different writes are compared by looking each one up in the lineage of the other. -/
theorem checkAncestry_of_ne (hid : incoming.identity = some id)
    (hcurrent : existing.identity = some current) (hne : id ≠ current) :
    incoming.checkAncestry existing =
      if current ∈ incoming.lineage then
        if id ∈ existing.lineage then .error ⟨id, current⟩ else .ok .descendant
      else if id ∈ existing.lineage then .ok .ancestor else .ok .concurrent := by
  have hsame : incoming.sameIdentity existing = false := by
    simp [sameIdentity, hid, hcurrent, hne]
  -- four cases, according to which of the two lineages lists the other write
  by_cases hincoming : current ∈ incoming.lineage <;>
    by_cases hexisting : id ∈ existing.lineage <;>
      simp [checkAncestry, violation?, ancestry, descendsFrom, precededBy, hid, hcurrent, hne,
        hsame, hincoming, hexisting]

section Different

variable (hid : incoming.identity = some id) (hcurrent : existing.identity = some current)
  (hne : id ≠ current)

include hid hcurrent hne

/-- A contradiction names the two writes, each of which lists the other. -/
theorem checkAncestry_error_iff {violation : CausalityViolation} :
    incoming.checkAncestry existing = .error violation ↔
      violation = ⟨id, current⟩ ∧ current ∈ incoming.lineage ∧ id ∈ existing.lineage := by
  rw [checkAncestry_of_ne hid hcurrent hne]
  split <;> split <;> simp_all [eq_comm]

theorem checkAncestry_descendant_iff :
    incoming.checkAncestry existing = .ok .descendant ↔
      current ∈ incoming.lineage ∧ id ∉ existing.lineage := by
  rw [checkAncestry_of_ne hid hcurrent hne]
  split <;> split <;> simp_all

theorem checkAncestry_ancestor_iff :
    incoming.checkAncestry existing = .ok .ancestor ↔
      current ∉ incoming.lineage ∧ id ∈ existing.lineage := by
  rw [checkAncestry_of_ne hid hcurrent hne]
  split <;> split <;> simp_all

theorem checkAncestry_concurrent_iff :
    incoming.checkAncestry existing = .ok .concurrent ↔
      current ∉ incoming.lineage ∧ id ∉ existing.lineage := by
  rw [checkAncestry_of_ne hid hcurrent hne]
  split <;> split <;> simp_all

end Different

theorem checkAncestry_of_same (hid : incoming.identity = some id)
    (hcurrent : existing.identity = some id) : incoming.checkAncestry existing = .ok .same := by
  simp [checkAncestry, violation?, ancestry, sameIdentity, hid, hcurrent]

theorem eq_of_checkAncestry_same (hid : incoming.identity = some id)
    (hcurrent : existing.identity = some current)
    (h : incoming.checkAncestry existing = .ok .same) : id = current := by
  by_cases hsame : id = current
  · exact hsame
  · rw [checkAncestry_of_ne hid hcurrent hsame] at h
    split at h <;> split at h <;> cases h

/-- Two different writes that do not list each other are concurrent. -/
theorem checkAncestry_of_unlisted (hid : incoming.identity = some id)
    (hcurrent : existing.identity = some current) (hne : id ≠ current)
    (hincoming : current ∉ incoming.lineage) (hexisting : id ∉ existing.lineage) :
    incoming.checkAncestry existing = .ok .concurrent := by
  exact (checkAncestry_concurrent_iff hid hcurrent hne).2 ⟨hincoming, hexisting⟩

/-- A write that counts as a descendant lists the identity of what is stored. -/
theorem listed_of_descendant (h : incoming.checkAncestry existing = .ok .descendant)
    (hcurrent : existing.identity = some current) : current ∈ incoming.lineage := by
  simp only [checkAncestry] at h
  split at h
  · -- both lineages list the other write
    cases h
  · simp only [ancestry, hcurrent, Option.isNone_some, Bool.false_eq_true, if_false,
      descendsFrom, Except.ok.injEq] at h
    split at h
    · cases h
    · split at h
      · -- the one branch that answers so has looked the stored identity up
        rename_i hdescends
        simpa using (Bool.and_eq_true_iff.1 hdescends).2
      · split at h <;> cases h

theorem checkAncestry_ne_same (h : existing.sameIdentity incoming = false) :
    incoming.checkAncestry existing ≠ .ok .same := by
  have hsame : incoming.sameIdentity existing = false := by
    rw [sameIdentity_comm, h]
  intro hcheck
  simp only [checkAncestry] at hcheck
  split at hcheck
  · cases hcheck
  · simp only [ancestry, hsame, Bool.false_eq_true, if_false] at hcheck
    split at hcheck
    · split at hcheck <;> simp at hcheck
    · split at hcheck
      · simp at hcheck
      · split at hcheck <;> simp at hcheck

/-- A write is concurrent only with a write that has an identity. -/
theorem identity_of_concurrent (h : incoming.checkAncestry existing = .ok .concurrent) :
    ∃ current, existing.identity = some current := by
  cases hcurrent : existing.identity with
  | some current => exact ⟨current, rfl⟩
  | none =>
    have hsame : incoming.sameIdentity existing = false := by
      rw [sameIdentity_comm, sameIdentity]
      simp [hcurrent]
    have hviolation : violation? incoming existing = none := by
      simp only [violation?, hcurrent]
      cases incoming.identity <;> rfl
    -- a stored write without identity either yields or lists the incoming one
    simp only [checkAncestry, hviolation, ancestry, hsame, hcurrent, Option.isNone_none] at h
    cases hpreceded : existing.precededBy incoming <;> simp [hpreceded] at h

end Metadata

end ReplicaIntake
