import ReplicaIntake.Proofs.Memory.Redeliveries

/-!
# Writes that a lineage covers

The versions of a node ascend, so a lineage that lists a later version of the node of a write covers
that write. A deletion is known as soon as it is covered. A put is compared by ancestry, which looks
for its very identity, so of the puts that are covered only those that are listed are older than the
record.

- `covered_passed_over_iff`: every covered deletion is passed over, and which of the covered puts
  are.
- `covered_put_not_passed_over`: a put whose node has a later version in the lineage becomes a
  conflict.
-/

namespace ReplicaIntake

variable {α ω : Type}

/-- A stored write without identity is a descendant of what it lists, and of nothing else. -/
theorem Metadata.checkAncestry_ancestor_of_none {incoming existing : Metadata} {id : WriteId}
    (hid : incoming.identity = some id) (hnone : existing.identity = none) :
    incoming.checkAncestry existing = .ok .ancestor ↔ id ∈ existing.lineage := by
  have hsame : incoming.sameIdentity existing = false := sameIdentity_of_none hnone
  by_cases hlisted : id ∈ existing.lineage <;>
    simp [checkAncestry, violation?, ancestry, precededBy, hid, hnone, hsame, hlisted]

namespace Memory

variable {kind : ItemKind} {localId key : String} {i : Intake α ω} {metadata : Metadata}
  {payload : Option α} {r : Record α} {id : WriteId}

/-- A record that is no marker knows of the puts only the one that it is. -/
theorem knows_put_iff {m : Memory α} {arrived : Metadata} (hplain : r.isMarker = false)
    (hput : arrived.deleted = false) (hid : arrived.identity = some id) :
    m.knows r arrived = true ↔ r.metadata.identity = some id := by
  have hsides : m.holdsSide r arrived = false := by
    simp [holdsSide, sides_of_plain hplain]
  simp [knows, hput, hsides, Metadata.sameIdentity_of_some hid]

/-- A record that is no marker passes over a put if it is that write, or if it lists the write and
the write does not list it in turn. -/
theorem put_passed_over_iff {s : Memory α × ω} (hread : s.1.records.find? key = some r)
    (hplain : r.isMarker = false) (hput : metadata.deleted = false)
    (hid : metadata.identity = some id) (hpayload : payload ≠ none) :
    PassesOver kind localId i key metadata payload s ↔
      r.metadata.identity = some id ∨ id ∈ r.metadata.lineage ∧
        ∀ current, r.metadata.identity = some current →
          current ∉ metadata.lineage.bound i.config.maxHistory := by
  have hidentity : (i.arrived metadata r.metadata).identity = some id := by
    simpa using hid
  have hknows : s.1.knows r (i.arrived metadata r.metadata) = true ↔
      r.metadata.identity = some id :=
    knows_put_iff hplain (by simpa using hput) hidentity
  rw [passesOver_iff hread (by simp [hid]) fun _ => hpayload, hknows]
  by_cases hsame : r.metadata.identity = some id
  · simp [hsame]
  · -- a put that is not the stored write is compared
    have hcompared : Compared i s.1 metadata r := by
      refine ⟨?_, hplain, by simp [hput]⟩
      rw [Bool.eq_false_iff, Ne, hknows]
      exact hsame
    simp only [hsame, hcompared, true_and, false_or]
    cases hcurrent : r.metadata.identity with
    | none =>
      rw [Metadata.checkAncestry_ancestor_of_none hidentity hcurrent]
      simp
    | some current =>
      have hne : id ≠ current := by
        rintro rfl
        exact hsame hcurrent
      rw [Metadata.checkAncestry_ancestor_iff hidentity hcurrent hne, Intake.lineage_arrived]
      simp [and_comm]

/-- A record that is no marker passes over every deletion that its lineage covers, through whatever
intake. Of the puts that its lineage covers it passes over those that it is, and those that it lists
and that do not list it in turn; the others are not older than the record to the intake. -/
theorem covered_passed_over_iff {s : Memory α × ω} (hread : s.1.records.find? key = some r)
    (hplain : r.isMarker = false) (hid : metadata.identity = some id)
    (hcovered : r.metadata.lineage.covers id = true)
    (hpayload : metadata.deleted = false → payload ≠ none) :
    PassesOver kind localId i key metadata payload s ↔
      metadata.deleted = true ∨ r.metadata.identity = some id ∨ id ∈ r.metadata.lineage ∧
        ∀ current, r.metadata.identity = some current →
          current ∉ metadata.lineage.bound i.config.maxHistory := by
  cases hdeleted : metadata.deleted with
  | false =>
    rw [put_passed_over_iff hread hplain hdeleted hid (hpayload hdeleted)]
    simp
  | true =>
    have hknown : s.1.knows r (i.arrived metadata r.metadata) = true := by
      simp [knows, hdeleted, hid, hcovered]
    simp [passesOver_of_known hread hid hpayload hknown]

/-- `a` has written on top of a write of `b`, of which the store has not seen the first. -/
def onTopOfB : List (Command String Unit) :=
  [.replicate {} "k" { Metadata.ofId "a" 1 with lineage := [⟨"b", 2⟩] } (some "a1")]

/-- What the store holds then. -/
theorem held_onTopOfB :
    (Command.runAll (backend .document "L") onTopOfB ({}, ())).2.1.records.find? "k" =
      some ⟨.data "a1", ⟨1⟩, { Metadata.ofId "a" 1 with lineage := [⟨"b", 2⟩] }⟩ := by
  decide +kernel

/-- As a deletion, the first write of `b` is passed over. As a put it is not. -/
theorem first_of_b_passed_over_as_deletion :
    let s := (Command.runAll (backend .document "L") onTopOfB ({}, ())).2
    PassesOver .document "L" ({} : Intake String Unit) "k"
        { Metadata.ofId "b" 1 with deleted := true } none s ∧
      ¬ PassesOver .document "L" ({} : Intake String Unit) "k" (.ofId "b" 1) (some "b1") s := by
  have hdeletion : { Metadata.ofId "b" 1 with deleted := true }.identity = some ⟨"b", 1⟩ := rfl
  have hput : (Metadata.ofId "b" 1).identity = some ⟨"b", 1⟩ := rfl
  refine ⟨?_, ?_⟩
  · rw [covered_passed_over_iff held_onTopOfB rfl hdeletion (by decide) (by simp)]
    exact .inl rfl
  · rw [covered_passed_over_iff held_onTopOfB rfl hput (by decide) (by simp)]
    simp [Metadata.ofId, Metadata.identity]

/-- It is not so that every covered write is passed over: without a policy, a put that is covered
and not listed becomes a conflict. -/
theorem covered_put_not_passed_over :
    ¬ ∀ (history : List (Command String Unit)) (i : Intake String Unit) (key : String)
        (r : Record String) (metadata : Metadata) (payload : Option String) (id : WriteId),
      let before := (Command.runAll (backend .document "L") history ({}, ())).2
      i.resolver.BuiltIn → before.1.records.find? key = some r → r.isMarker = false →
      metadata.identity = some id → r.metadata.lineage.covers id = true →
      (metadata.deleted = false → payload ≠ none) →
      PassesOver .document "L" i key metadata payload before := by
  intro h
  have hpassed := h onTopOfB {} "k" _ (.ofId "b" 1) (some "b1") ⟨"b", 1⟩
    (.chain (by simp)) held_onTopOfB rfl rfl (by decide) (by simp)
  obtain ⟨outcome, hnoop, hrun⟩ := hpassed
  have hreply : Reply.outcome (.ok (.conflict ⟨⟨4⟩, ["k/conflicts/L", "k/conflicts/b"]⟩ true)) =
      Reply.outcome (.ok outcome) :=
    congrArg Prod.fst hrun
  obtain rfl := Except.ok.inj (Reply.outcome.inj hreply)
  cases hnoop

end Memory

end ReplicaIntake
