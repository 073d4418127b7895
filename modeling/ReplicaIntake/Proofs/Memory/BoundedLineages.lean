import ReplicaIntake.Proofs.Memory.StoredMetadata

/-!
# Stored lineages are bounded

A store never holds a lineage that is longer than the bounds of its uses, whatever lineages are
brought to it and whatever metadata its policies decide on (`length_lineage_le`). A write is bounded
when it arrives, before it becomes a record or one side of a conflict, and a marker has no lineage
at all. The lineages that are made longer, by a merge of tombstones, a decision or a local write, are
bounded once more before they are stored.
-/

namespace ReplicaIntake

variable {α ω : Type} {H : Nat}

/-- The call takes in a write with lineages of at most `H` entries, or reads. -/
def Call.BoundedBy (H : Nat) : Call α ω → Prop
  | .replicate i _ _ _ | .replicatePut i _ _ _ | .replicateDelete i _ _ => i.config.maxHistory ≤ H
  | .get _ => True
  | _ => False

/-- The use takes in or makes writes with lineages of at most `H` entries, or reads. -/
def Command.BoundedBy (H : Nat) : Command α ω → Prop
  | .replicate i _ _ _ => i.config.maxHistory ≤ H
  | .putLocal _ _ max | .deleteLocal _ max | .resolveLocal _ _ max => max ≤ H
  | .get _ => True
  | .batch calls _ => ∀ call ∈ calls, call.BoundedBy H

namespace Memory

variable {kind : ItemKind} {localId key : String} {i : Intake α ω} {m m' : Memory α} {w w' : ω}
  {metadata : Metadata} {payload : Option α}
  {result : Except (IntakeError StoreError) Outcome} {notes : List Notification}

/-- No lineage in the store has more than `H` entries. -/
def BoundedLineages (H : Nat) (m : Memory α) : Prop :=
  EveryMetadata (fun _ metadata => metadata.lineage.length ≤ H) m

/-! ## §1 Single writes -/

theorem boundedLineages_taken (hmax : i.config.maxHistory ≤ H) (h : BoundedLineages H m)
    (htaken : Taken i kind localId key m w metadata payload result m' notes w') :
    BoundedLineages H m' := by
  have hbound : ∀ l : Lineage, (l.bound i.config.maxHistory).length ≤ H :=
    fun l => Nat.le_trans (l.length_bound_le _) hmax
  refine everyMetadata_taken h (fun _ => hbound _) ?_ htaken
  intro existing hread
  have harrived : (i.arrived metadata existing.metadata).lineage.length ≤ H := by
    rw [Intake.lineage_arrived]
    exact hbound _
  exact {
    arrived := harrived
    merged := fun _ => hbound _
    decided := fun _ _ _ => hbound _
    side := fun _ _ => harrived
    moved := h key existing hread
    marked := Nat.zero_le H }

theorem length_lineage_stamp_le (previous : Option Metadata) (version : UInt64) (max : Nat) :
    (Metadata.stamp previous localId version max).lineage.length ≤ max := by
  cases previous with
  | none => exact Nat.zero_le max
  | some p =>
    simp only [Metadata.stamp]
    -- with or without a new entry, the lineage is bounded last
    cases p.identity with
    | none => exact Lineage.length_bound_le _ _
    | some id => exact Lineage.length_bound_le _ _

theorem boundedLineages_written {max : Nat} (hmax : max ≤ H) (h : BoundedLineages H m)
    (hwritten : Written localId key payload max m metadata m') : BoundedLineages H m' := by
  refine everyMetadata_written h (Nat.le_trans ?_ hmax) hwritten
  cases hwritten with
  | stamped _ hmetadata =>
    rw [hmetadata]
    exact length_lineage_stamp_le _ _ max
  | resolved _ _ hmetadata =>
    rw [hmetadata]
    exact Lineage.length_bound_le _ _

/-! ## §2 Calls and uses -/

theorem boundedLineages_intake (hmax : i.config.maxHistory ≤ H) {t : Transaction α ω}
    (h : BoundedLineages H t.contents) :
    BoundedLineages H
      ((i.replicate (storage kind localId) key metadata payload).answer (t, w)).2.1.contents := by
  obtain ⟨result, m', notes, w', htaken, hanswer⟩ :=
    replicate_taken i kind localId key metadata payload t w
  rw [hanswer]
  exact boundedLineages_taken hmax h htaken

theorem boundedLineages_call {call : Call α ω} (hcall : call.BoundedBy H) {t : Transaction α ω}
    (h : BoundedLineages H t.contents) :
    BoundedLineages H ((call.run (backend kind localId)).answer (t, w)).2.1.contents := by
  cases call with
  | replicate i key metadata payload =>
    rw [Call.run, Call.intakeCall, Op.state_bind_pure, Op.state_wrapError]
    exact boundedLineages_intake hcall h
  | replicatePut i key metadata payload =>
    rw [Call.run, Call.intakeCall, Op.state_bind_pure, Op.state_wrapError]
    exact contents_put kind localId key payload h (boundedLineages_intake hcall h)
  | replicateDelete i key metadata =>
    rw [Call.run, Call.intakeCall, Op.state_bind_pure, Op.state_wrapError, delete_eq_replicate]
    exact boundedLineages_intake hcall h
  | get key =>
    rw [Call.run, Op.state_bind_pure, Op.state_within]
    exact h
  | _ => exact hcall.elim

theorem boundedLineages_calls {calls : List (Call α ω)} (hcalls : ∀ call ∈ calls, call.BoundedBy H)
    {t : Transaction α ω} (h : BoundedLineages H t.contents) (w : ω) :
    BoundedLineages H (Call.runAll (backend kind localId) calls (t, w)).2.1.contents := by
  induction calls generalizing t w with
  | nil => exact h
  | cons call rest ih =>
    obtain ⟨hcall, hrest⟩ := List.forall_mem_cons.1 hcalls
    exact ih hrest (boundedLineages_call hcall h) _

theorem boundedLineages_advanced {command : Command α ω} (hsingle : command.IsSingle)
    (hcommand : command.BoundedBy H) (h : BoundedLineages H m)
    (hadvanced : Advanced kind localId m command m') : BoundedLineages H m' := by
  cases hadvanced with
  | unchanged => exact h
  | replicated htaken => exact boundedLineages_taken hcommand h htaken
  | stored hwritten => exact boundedLineages_written hcommand h hwritten
  | deleted hwritten => exact boundedLineages_written hcommand h hwritten
  | resolved hwritten => exact boundedLineages_written hcommand h hwritten
  | batched => exact hsingle.elim

theorem boundedLineages_run {command : Command α ω} (hcommand : command.BoundedBy H)
    (h : BoundedLineages H m) (w : ω) :
    BoundedLineages H (command.run (backend kind localId) (m, w)).2.1 := by
  cases command with
  | batch calls isCommitted =>
    cases isCommitted with
    -- a batch that is not committed is dropped whole
    | false => exact h
    | true => exact boundedLineages_calls hcommand (t := { contents := m }) h w
  | replicate | putLocal | deleteLocal | resolveLocal | get =>
    refine boundedLineages_advanced ?_ hcommand h (run_advanced kind localId _ m w)
    exact True.intro

/-! ## §3 Histories -/

theorem boundedLineages_runAll {history : List (Command α ω)}
    (hbounded : ∀ command ∈ history, command.BoundedBy H) (h : BoundedLineages H m) (w : ω) :
    BoundedLineages H (Command.runAll (backend kind localId) history (m, w)).2.1 := by
  induction history generalizing m w with
  | nil => exact h
  | cons command rest ih =>
    obtain ⟨hcommand, hrest⟩ := List.forall_mem_cons.1 hbounded
    exact ih hrest (boundedLineages_run hcommand h w) _

/-- After every history of uses with lineages of at most `H` entries, no record has a longer one:
whether it was stored as it arrived, is one side of a conflict or a marker, was merged with a
tombstone or decided by a policy, or is a local write. -/
theorem length_lineage_le (kind : ItemKind) (localId : String) {history : List (Command α ω)}
    (hbounded : ∀ command ∈ history, command.BoundedBy H) (w : ω) {r : Record α}
    (hread : (Command.runAll (backend kind localId) history ({}, w)).2.1.records.find? key =
      some r) : r.metadata.lineage.length ≤ H := by
  refine boundedLineages_runAll hbounded ?_ w key r hread
  intro q r' hempty
  cases hempty

/-- Three writes that a node has seen before. -/
def threeOfX : Lineage := [⟨"x", 1⟩, ⟨"x", 2⟩, ⟨"x", 3⟩]

/-- Lineages of three entries are brought for `k`, and decided on for `l`, and the writes of `k` come
into conflict. The conflict is resolved with a deletion, which another one is merged with. -/
def longLineages : List (Command String Unit) :=
  let i : Intake String Unit := { config := { maxHistory := 2 } }
  let decide : Resolver String := .fixed (.keep { Metadata.ofId "d" 1 with lineage := threeOfX } "d1")
  [.replicate i "k" { Metadata.ofId "a" 1 with lineage := threeOfX } (some "a1"),
    .replicate i "k" { Metadata.ofId "b" 1 with lineage := threeOfX } (some "b1"),
    .resolveLocal "k" none 2,
    .batch [.replicateDelete i "k" { Metadata.ofId "c" 1 with lineage := threeOfX }] true,
    .putLocal "l" "here" 2,
    .replicate { i with resolver := decide } "l" (.ofId "a" 2) (some "a2")]

/-- Both records have the two newest entries of what was made for them. -/
theorem long_lineages_cut :
    ∃ r r', (Command.runAll (backend .document "L") longLineages ({}, ())).2.1.records.find? "k" =
        some r ∧ r.metadata.lineage = [⟨"x", 3⟩, ⟨"c", 1⟩] ∧ r.metadata.lineage.length ≤ 2 ∧
      (Command.runAll (backend .document "L") longLineages ({}, ())).2.1.records.find? "l" =
        some r' ∧ r'.metadata.lineage = [⟨"x", 2⟩, ⟨"x", 3⟩] ∧ r'.metadata.lineage.length ≤ 2 := by
  have hbounded : ∀ command ∈ longLineages, command.BoundedBy 2 := by
    simp [longLineages, Command.BoundedBy, Call.BoundedBy]
  have hk : (Command.runAll (backend .document "L") longLineages ({}, ())).2.1.records.find? "k" =
      some ⟨.tombstone, ⟨6⟩, { Metadata.ofId "c" 1 with
        deleted := true, lineage := [⟨"x", 3⟩, ⟨"c", 1⟩], mergedLineage := true }⟩ := by
    decide +kernel
  have hl : (Command.runAll (backend .document "L") longLineages ({}, ())).2.1.records.find? "l" =
      some ⟨.data "d1", ⟨8⟩, { Metadata.ofId "d" 1 with lineage := [⟨"x", 2⟩, ⟨"x", 3⟩] }⟩ := by
    decide +kernel
  exact ⟨_, _, hk, rfl, length_lineage_le .document "L" hbounded () hk, hl, rfl,
    length_lineage_le .document "L" hbounded () hl⟩

end Memory

end ReplicaIntake
