import ReplicaIntake.Proofs.Memory.Contention

/-!
# The ways out of an intake in memory

`Taken` lists what taking in a write can lead to in an open transaction of a store in memory: for
each way out of the decision procedure the condition under which it is taken, the answer, the
contents it leaves, the conflicts it announces and the world after the triggers. The ways out over a
record that is there are those of `Met`.

Three groups of ways leave the contents alone: refusals, writes that are known, and writes that are
older than what is stored. Apart from a record that is flagged as a conflict without holding a
marker, no way out fails after its first write.
-/

namespace ReplicaIntake

variable {α ω : Type}

/-! ## §1 What is compared -/

/-- The shadow keys of the sides, if the record holds a marker. -/
def Record.sides (r : Record α) : List String := (r.marker?.map (·.shadows)).getD []

/-- The metadata under which a write is compared and stored: its lineage is bounded, and a deletion
takes the collection of the record it meets. -/
def Intake.arrived (i : Intake α ω) (metadata existing : Metadata) : Metadata :=
  if metadata.deleted then
    { metadata.bounded i.config.maxHistory with
      collection := existing.collection.or metadata.collection }
  else metadata.bounded i.config.maxHistory

/-- The payload of a write, of which a deletion has none. -/
def Metadata.carried (metadata : Metadata) (payload : Option α) : Option α :=
  if metadata.deleted then none else payload

/-- The operation that a write is. -/
def Metadata.operation (metadata : Metadata) : Operation :=
  if metadata.deleted then .delete else .put

theorem Metadata.carried_of_put {metadata : Metadata} (hput : metadata.deleted = false)
    (payload : Option α) : metadata.carried payload = payload := by
  simp [carried, hput]

theorem Metadata.operation_of_put {metadata : Metadata} (hput : metadata.deleted = false) :
    metadata.operation = .put := by
  simp [operation, hput]

section Arrived

variable (i : Intake α ω) (metadata existing : Metadata)

@[simp] theorem Intake.source_arrived : (i.arrived metadata existing).source = metadata.source := by
  unfold Intake.arrived
  split <;> rfl

@[simp] theorem Intake.version_arrived :
    (i.arrived metadata existing).version = metadata.version := by
  unfold Intake.arrived
  split <;> rfl

@[simp] theorem Intake.identity_arrived :
    (i.arrived metadata existing).identity = metadata.identity := by
  simp only [Metadata.identity, Intake.source_arrived, Intake.version_arrived]

@[simp] theorem Intake.deleted_arrived :
    (i.arrived metadata existing).deleted = metadata.deleted := by
  unfold Intake.arrived
  split <;> rfl

@[simp] theorem Intake.lineage_arrived :
    (i.arrived metadata existing).lineage = metadata.lineage.bound i.config.maxHistory := by
  unfold Intake.arrived
  split <;> rfl

@[simp] theorem Intake.conflict_arrived :
    (i.arrived metadata existing).conflict = metadata.conflict := by
  unfold Intake.arrived
  split <;> rfl

@[simp] theorem Intake.conflictSide_arrived :
    (i.arrived metadata existing).conflictSide = metadata.conflictSide := by
  unfold Intake.arrived
  split <;> rfl

end Arrived

namespace Memory

variable {kind : ItemKind} {localId key : String}

theorem sides_of_content {existing : Record α} {marker : Marker}
    (h : existing.content = .marker marker) : existing.sides = marker.shadows := by
  simp [Record.sides, marker?_of_content h]

theorem sides_of_plain {existing : Record α} (h : existing.isMarker = false) :
    existing.sides = [] := by
  simp [Record.sides, marker?_of_plain h]

/-- Whether a side of the conflict that `existing` stands for has the identity of `incoming`. -/
def holdsSide (m : Memory α) (existing : Record α) (incoming : Metadata) : Bool :=
  existing.sides.any fun shadow =>
    (m.records.find? shadow).any fun side => side.metadata.sameIdentity incoming

/-- Whether a write that met `existing` has been applied before: it is the stored write or a side,
or it is a deletion that the stored lineage covers. -/
def knows (m : Memory α) (existing : Record α) (arrived : Metadata) : Bool :=
  existing.metadata.sameIdentity arrived ||
    (arrived.deleted && arrived.identity.any existing.metadata.lineage.covers) ||
    m.holdsSide existing arrived

/-- The write met a plain record that does not know it, and is compared with it by ancestry. -/
structure Compared (i : Intake α ω) (m : Memory α) (metadata : Metadata) (existing : Record α) :
    Prop where
  unknown : m.knows existing (i.arrived metadata existing.metadata) = false
  plain : existing.isMarker = false
  /-- Not both are deletions. -/
  live : metadata.deleted = true → existing.isTombstone = false

/-- The write is one for the policy: it is concurrent with a plain record, or it is a put that met
a marker. -/
inductive Offered (i : Intake α ω) (m : Memory α) (metadata : Metadata) (existing : Record α) : Prop
  /-- The write is concurrent with a plain record. -/
  | concurrent (hcompared : Compared i m metadata existing)
      (hancestry : (i.arrived metadata existing.metadata).checkAncestry existing.metadata =
        .ok .concurrent)
  /-- The write is a put that no side of the conflict knows. -/
  | conflicted (hput : metadata.deleted = false)
      (hunknown : m.knows existing (i.arrived metadata existing.metadata) = false)
      (hmarker : existing.isMarker = true)

/-- The policy is not asked about a write that is known. -/
theorem Offered.unknown {i : Intake α ω} {m : Memory α} {metadata : Metadata}
    {existing : Record α} (h : Offered i m metadata existing) :
    m.knows existing (i.arrived metadata existing.metadata) = false := by
  cases h with
  | concurrent hcompared _ => exact hcompared.unknown
  | conflicted _ hunknown _ => exact hunknown

/-! ## §2 What a policy leads to -/

/-- What the triggers do, one after the other; the first refusal is the last. -/
def fire (key : String) (payload : α) (incoming : Metadata) :
    List (Trigger α ω) → ω → Except String Unit × ω
  | [], w => (.ok (), w)
  | trigger :: rest, w =>
    match trigger key payload incoming w with
    | (.error reason, w) => (.error reason, w)
    | (.ok (), w) => fire key payload incoming rest w

/-- What storing a decision can lead to. -/
inductive Settled (i : Intake α ω) (kind : ItemKind) (key : String) (incoming : Metadata)
    (existing : Record α) (m : Memory α) (w : ω) :
    Resolution α → Except (IntakeError StoreError) Outcome → Memory α → ω → Prop
  /-- The item is removed, and with it the sides of the conflict. -/
  | removed (metadata : Metadata) :
    Settled i kind key incoming existing m w (.remove metadata) (.ok .resolvedAsRemoved)
      ((m.write key .tombstone
        { metadata.settled i.config.maxHistory with deleted := true }).eraseAll existing.sides) w
  /-- A payload is stored, and the sides of the conflict are removed. -/
  | kept (metadata : Metadata) (payload : α) {w' : ω}
      (hfire : fire key payload incoming (if kind.runsTriggers then i.triggers else []) w =
        (.ok (), w')) :
    Settled i kind key incoming existing m w (.keep metadata payload) (.ok .resolved)
      ((m.write key (.data payload)
        { metadata.settled i.config.maxHistory with deleted := false }).eraseAll existing.sides) w'
  | refused (metadata : Metadata) (payload : α) {reason : String} {w' : ω}
      (hfire : fire key payload incoming (if kind.runsTriggers then i.triggers else []) w =
        (.error reason, w')) :
    Settled i kind key incoming existing m w (.keep metadata payload)
      (.error (.trigger reason)) m w'

/-! ## §3 The ways out -/

/-- What taking in a write can lead to when it meets the record `existing`: the answer, the
contents, the announcements and the world. -/
inductive Met (i : Intake α ω) (kind : ItemKind) (localId key : String) (m : Memory α) (w : ω)
    (metadata : Metadata) (payload : Option α) (existing : Record α) :
    Except (IntakeError StoreError) Outcome → Memory α → List Notification → ω → Prop
  /-- The write is known. -/
  | replayed (hknown : m.knows existing (i.arrived metadata existing.metadata) = true) :
    Met i kind localId key m w metadata payload existing (.ok .replayed) m [] w
  /-- Two deletions are merged. -/
  | merged (hdelete : metadata.deleted = true)
      (hunknown : m.knows existing (i.arrived metadata existing.metadata) = false)
      (hplain : existing.isMarker = false) (htombstone : existing.isTombstone = true) :
    Met i kind localId key m w metadata payload existing (.ok .historiesMerged)
      (m.write key .tombstone
        (i.mergedTombstone (i.arrived metadata existing.metadata) existing.metadata)) [] w
  /-- Both lineages list the other write. -/
  | contradicted {violation : CausalityViolation} (hcompared : Compared i m metadata existing)
      (hviolation : (i.arrived metadata existing.metadata).checkAncestry existing.metadata =
        .error violation) :
    Met i kind localId key m w metadata payload existing (.error (.causality violation)) m [] w
  /-- A put replaces a record that it descends from. -/
  | overwritten {a : α} (hput : metadata.deleted = false) (hpayload : payload = some a)
      (hcompared : Compared i m metadata existing)
      (hancestry : (i.arrived metadata existing.metadata).checkAncestry existing.metadata =
        .ok .descendant) :
    Met i kind localId key m w metadata payload existing (.ok .overwritten)
      (m.write key (.data a) (i.arrived metadata existing.metadata)) [] w
  /-- A deletion replaces a record that it descends from. -/
  | deleted (hdelete : metadata.deleted = true) (hcompared : Compared i m metadata existing)
      (hancestry : (i.arrived metadata existing.metadata).checkAncestry existing.metadata =
        .ok .descendant) :
    Met i kind localId key m w metadata payload existing (.ok .deleted)
      (m.write key .tombstone (i.arrived metadata existing.metadata)) [] w
  /-- The record descends from the write. -/
  | stale (hcompared : Compared i m metadata existing)
      (hancestry : (i.arrived metadata existing.metadata).checkAncestry existing.metadata =
        .ok .ancestor) :
    Met i kind localId key m w metadata payload existing (.ok .stale) m [] w
  | undecided {reason : String} (hoffered : Offered i m metadata existing)
      (hresolver : i.resolver key (i.arrived metadata existing.metadata)
        (metadata.carried payload) existing = .error reason) :
    Met i kind localId key m w metadata payload existing (.error (.resolver reason)) m [] w
  | settled {resolution : Resolution α} {result : Except (IntakeError StoreError) Outcome}
      {m' : Memory α} {w' : ω} (hoffered : Offered i m metadata existing)
      (hresolver : i.resolver key (i.arrived metadata existing.metadata)
        (metadata.carried payload) existing = .ok (some resolution))
      (hsettled : Settled i kind key (i.arrived metadata existing.metadata) existing m w
        resolution result m' w') :
    Met i kind localId key m w metadata payload existing result m' [] w'
  /-- The policy declined, and the write is one side of a conflict. -/
  | declined {result : Except (IntakeError StoreError) Outcome} {m' : Memory α}
      {notes : List Notification} (hoffered : Offered i m metadata existing)
      (hresolver : i.resolver key (i.arrived metadata existing.metadata)
        (metadata.carried payload) existing = .ok none)
      (hcontended : Contended kind localId key (i.arrived metadata existing.metadata)
        (metadata.carried payload) existing metadata.operation m result m' notes) :
    Met i kind localId key m w metadata payload existing result m' notes w
  /-- A deletion that met a marker is one side of the conflict. -/
  | disputed {result : Except (IntakeError StoreError) Outcome} {m' : Memory α}
      {notes : List Notification} (hdelete : metadata.deleted = true)
      (hunknown : m.knows existing (i.arrived metadata existing.metadata) = false)
      (hmarker : existing.isMarker = true)
      (hcontended : Contended kind localId key (i.arrived metadata existing.metadata)
        (metadata.carried payload) existing metadata.operation m result m' notes) :
    Met i kind localId key m w metadata payload existing result m' notes w

/-- What taking in a write under `key` can lead to, from contents `m` and a world `w`. -/
inductive Taken (i : Intake α ω) (kind : ItemKind) (localId key : String) (m : Memory α) (w : ω)
    (metadata : Metadata) (payload : Option α) :
    Except (IntakeError StoreError) Outcome → Memory α → List Notification → ω → Prop
  /-- A put without payload is refused. -/
  | missingPayload (hput : metadata.deleted = false) (hpayload : payload = none) :
    Taken i kind localId key m w metadata payload (.error .missingPayload) m [] w
  /-- A put without identity is refused. -/
  | missingIdentity (hput : metadata.deleted = false) (hid : metadata.identity = none) :
    Taken i kind localId key m w metadata payload (.error .missingIdentity) m [] w
  /-- A put of an absent key is stored. -/
  | created {a : α} (hput : metadata.deleted = false) (hpayload : payload = some a)
      (hid : metadata.identity ≠ none) (habsent : m.records.find? key = none) :
    Taken i kind localId key m w metadata payload (.ok .created)
      (m.write key (.data a) (metadata.bounded i.config.maxHistory)) [] w
  /-- A deletion of an absent key is ignored. -/
  | ignored (hdelete : metadata.deleted = true) (habsent : m.records.find? key = none) :
    Taken i kind localId key m w metadata payload (.ok .ignored) m [] w
  /-- The write met a record. -/
  | met {existing : Record α} {result : Except (IntakeError StoreError) Outcome} {m' : Memory α}
      {notes : List Notification} {w' : ω} (hread : m.records.find? key = some existing)
      (hid : metadata.deleted = false → metadata.identity ≠ none)
      (hmet : Met i kind localId key m w metadata payload existing result m' notes w') :
    Taken i kind localId key m w metadata payload result m' notes w'

/-! ## §4 Which way is taken -/

section Ways

variable {i : Intake α ω} {metadata : Metadata} {payload : Option α} {m m' : Memory α} {w w' : ω}
  {existing : Record α} {result : Except (IntakeError StoreError) Outcome}
  {notes : List Notification}

/-- A put with an identity is stored under an absent key. -/
theorem taken_of_absent {a : α} (habsent : m.records.find? key = none)
    (hput : metadata.deleted = false) (hid : metadata.identity ≠ none)
    (htaken : Taken i kind localId key m w metadata (some a) result m' notes w') :
    result = .ok .created ∧
      m' = m.write key (.data a) (metadata.bounded i.config.maxHistory) ∧ notes = [] ∧ w' = w := by
  cases htaken with
  | missingPayload _ hnone => cases hnone
  | missingIdentity _ hnone => exact absurd hnone hid
  | created _ hpayload _ _ =>
    obtain rfl := Option.some.inj hpayload
    exact ⟨rfl, rfl, rfl, rfl⟩
  | ignored hdelete _ => simp [hput] at hdelete
  | met hread _ _ => simp [habsent] at hread

/-- A write that is complete meets the record that is there. -/
theorem taken_of_read (hread : m.records.find? key = some existing)
    (hid : metadata.identity ≠ none) (hpayload : metadata.deleted = false → payload ≠ none)
    (htaken : Taken i kind localId key m w metadata payload result m' notes w') :
    Met i kind localId key m w metadata payload existing result m' notes w' := by
  cases htaken with
  | missingPayload hput hnone => exact absurd hnone (hpayload hput)
  | missingIdentity _ hnone => exact absurd hnone hid
  | created _ _ _ habsent => simp [hread] at habsent
  | ignored _ habsent => simp [hread] at habsent
  | met hread' _ hmet =>
    obtain rfl := Option.some.inj (hread.symm.trans hread')
    exact hmet

/-- A write that is known changes nothing. -/
theorem met_of_known (hknown : m.knows existing (i.arrived metadata existing.metadata) = true)
    (hmet : Met i kind localId key m w metadata payload existing result m' notes w') :
    result = .ok .replayed ∧ m' = m ∧ notes = [] ∧ w' = w := by
  -- every other way out is for writes that are not known
  have hother : m.knows existing (i.arrived metadata existing.metadata) ≠ false := by
    rw [hknown]
    decide
  cases hmet with
  | replayed _ => exact ⟨rfl, rfl, rfl, rfl⟩
  | merged _ hunknown _ _ => exact absurd hunknown hother
  | contradicted hcompared _ => exact absurd hcompared.unknown hother
  | overwritten _ _ hcompared _ => exact absurd hcompared.unknown hother
  | deleted _ hcompared _ => exact absurd hcompared.unknown hother
  | stale hcompared _ => exact absurd hcompared.unknown hother
  | undecided hoffered _ => exact absurd hoffered.unknown hother
  | settled hoffered _ _ => exact absurd hoffered.unknown hother
  | declined hoffered _ _ => exact absurd hoffered.unknown hother
  | disputed _ hunknown _ _ => exact absurd hunknown hother

/-- The policy is asked about concurrent writes and about markers. -/
theorem not_offered (hcompared : Compared i m metadata existing)
    (hancestry : (i.arrived metadata existing.metadata).checkAncestry existing.metadata ≠
      .ok .concurrent) : ¬ Offered i m metadata existing := by
  rintro (⟨-, hconcurrent⟩ | ⟨-, -, hmarker⟩)
  · exact hancestry hconcurrent
  · simp [hcompared.plain] at hmarker

/-- A write that the record descends from changes nothing. -/
theorem met_of_ancestor (hcompared : Compared i m metadata existing)
    (hancestry : (i.arrived metadata existing.metadata).checkAncestry existing.metadata =
      .ok .ancestor)
    (hmet : Met i kind localId key m w metadata payload existing result m' notes w') :
    result = .ok .stale ∧ m' = m ∧ notes = [] ∧ w' = w := by
  have hnot := not_offered hcompared (by simp [hancestry])
  cases hmet with
  | replayed hknown => simp [hcompared.unknown] at hknown
  | merged hdelete _ _ htombstone => simp [hcompared.live hdelete] at htombstone
  | contradicted _ hviolation => simp [hancestry] at hviolation
  | overwritten _ _ _ hdescendant => simp [hancestry] at hdescendant
  | deleted _ _ hdescendant => simp [hancestry] at hdescendant
  | stale _ _ => exact ⟨rfl, rfl, rfl, rfl⟩
  | undecided hoffered _ => exact absurd hoffered hnot
  | settled hoffered _ _ => exact absurd hoffered hnot
  | declined hoffered _ _ => exact absurd hoffered hnot
  | disputed _ _ hmarker _ => simp [hcompared.plain] at hmarker

/-- A write that the record lists, and that lists the record, is refused. -/
theorem met_of_contradiction {violation : CausalityViolation}
    (hcompared : Compared i m metadata existing)
    (hviolation : (i.arrived metadata existing.metadata).checkAncestry existing.metadata =
      .error violation)
    (hmet : Met i kind localId key m w metadata payload existing result m' notes w') :
    result = .error (.causality violation) ∧ m' = m ∧ notes = [] ∧ w' = w := by
  have hnot := not_offered hcompared (by simp [hviolation])
  cases hmet with
  | replayed hknown => simp [hcompared.unknown] at hknown
  | merged hdelete _ _ htombstone => simp [hcompared.live hdelete] at htombstone
  | contradicted _ hviolation' =>
    obtain rfl := Except.error.inj (hviolation.symm.trans hviolation')
    exact ⟨rfl, rfl, rfl, rfl⟩
  | overwritten _ _ _ hdescendant => simp [hviolation] at hdescendant
  | deleted _ _ hdescendant => simp [hviolation] at hdescendant
  | stale _ hancestor => simp [hviolation] at hancestor
  | undecided hoffered _ => exact absurd hoffered hnot
  | settled hoffered _ _ => exact absurd hoffered hnot
  | declined hoffered _ _ => exact absurd hoffered hnot
  | disputed _ _ hmarker _ => simp [hcompared.plain] at hmarker

/-- A write that descends from the record replaces it. -/
theorem met_of_descendant (hcompared : Compared i m metadata existing)
    (hancestry : (i.arrived metadata existing.metadata).checkAncestry existing.metadata =
      .ok .descendant)
    (hmet : Met i kind localId key m w metadata payload existing result m' notes w') :
    result = .ok (if metadata.deleted then .deleted else .overwritten) ∧
      m' = m.write key (.ofPayload (metadata.carried payload))
        (i.arrived metadata existing.metadata) ∧ notes = [] ∧ w' = w := by
  have hnot := not_offered hcompared (by simp [hancestry])
  cases hmet with
  | replayed hknown => simp [hcompared.unknown] at hknown
  | merged hdelete _ _ htombstone => simp [hcompared.live hdelete] at htombstone
  | contradicted _ hviolation => simp [hancestry] at hviolation
  | overwritten hput hpayload _ _ =>
    simp [hput, hpayload, Metadata.carried, Content.ofPayload]
  | deleted hdelete _ _ => simp [hdelete, Metadata.carried, Content.ofPayload]
  | stale _ hancestor => simp [hancestry] at hancestor
  | undecided hoffered _ => exact absurd hoffered hnot
  | settled hoffered _ _ => exact absurd hoffered hnot
  | declined hoffered _ _ => exact absurd hoffered hnot
  | disputed _ _ hmarker _ => simp [hcompared.plain] at hmarker

/-- A deletion that is not known to a tombstone is merged with it. -/
theorem met_of_tombstone (hdelete : metadata.deleted = true)
    (hunknown : m.knows existing (i.arrived metadata existing.metadata) = false)
    (hplain : existing.isMarker = false) (htombstone : existing.isTombstone = true)
    (hmet : Met i kind localId key m w metadata payload existing result m' notes w') :
    result = .ok .historiesMerged ∧
      m' = m.write key .tombstone
        (i.mergedTombstone (i.arrived metadata existing.metadata) existing.metadata) ∧
      notes = [] ∧ w' = w := by
  have hnot : ¬ Compared i m metadata existing := by
    intro hcompared
    simp [hcompared.live hdelete] at htombstone
  -- the policy is asked about what is compared, and about puts
  have hnot' : ¬ Offered i m metadata existing := by
    rintro (⟨hcompared, -⟩ | ⟨hput, -, -⟩)
    · exact hnot hcompared
    · simp [hdelete] at hput
  cases hmet with
  | replayed hknown => simp [hunknown] at hknown
  | merged _ _ _ _ => exact ⟨rfl, rfl, rfl, rfl⟩
  | contradicted hcompared _ => exact absurd hcompared hnot
  | overwritten _ _ hcompared _ => exact absurd hcompared hnot
  | deleted _ hcompared _ => exact absurd hcompared hnot
  | stale hcompared _ => exact absurd hcompared hnot
  | undecided hoffered _ => exact absurd hoffered hnot'
  | settled hoffered _ _ => exact absurd hoffered hnot'
  | declined hoffered _ _ => exact absurd hoffered hnot'
  | disputed _ _ hmarker _ => simp [hplain] at hmarker

/-- Without a policy, a write that is concurrent with a plain record contends with it. -/
theorem met_of_concurrent (hresolver : i.resolver = Resolver.chain [])
    (hcompared : Compared i m metadata existing)
    (hancestry : (i.arrived metadata existing.metadata).checkAncestry existing.metadata =
      .ok .concurrent)
    (hmet : Met i kind localId key m w metadata payload existing result m' notes w') :
    w' = w ∧ Contended kind localId key (i.arrived metadata existing.metadata)
      (metadata.carried payload) existing metadata.operation m result m' notes := by
  cases hmet with
  | replayed hknown => simp [hcompared.unknown] at hknown
  | merged hdelete _ _ htombstone => simp [hcompared.live hdelete] at htombstone
  | contradicted _ hviolation => simp [hancestry] at hviolation
  | overwritten _ _ _ hdescendant => simp [hancestry] at hdescendant
  | deleted _ _ hdescendant => simp [hancestry] at hdescendant
  | stale _ hancestor => simp [hancestry] at hancestor
  | undecided _ hdecision => simp [hresolver, Resolver.chain] at hdecision
  | settled _ hdecision _ => simp [hresolver, Resolver.chain] at hdecision
  | declined _ _ hcontended => exact ⟨rfl, hcontended⟩
  | disputed _ _ hmarker _ => simp [hcompared.plain] at hmarker

/-- Without a policy, a write that met a marker is known to it, or contends for a place among its
sides. -/
theorem met_of_marker (hresolver : i.resolver = Resolver.chain [])
    (hmarker : existing.isMarker = true)
    (hmet : Met i kind localId key m w metadata payload existing result m' notes w') :
    (m.knows existing (i.arrived metadata existing.metadata) = true ∧
      result = .ok .replayed ∧ m' = m ∧ notes = [] ∧ w' = w) ∨
    m.knows existing (i.arrived metadata existing.metadata) = false ∧ w' = w ∧
      Contended kind localId key (i.arrived metadata existing.metadata)
        (metadata.carried payload) existing metadata.operation m result m' notes := by
  -- a marker is not compared by ancestry
  have hplain : existing.isMarker ≠ false := by
    rw [hmarker]
    decide
  cases hmet with
  | replayed hknown => exact .inl ⟨hknown, rfl, rfl, rfl, rfl⟩
  | merged _ _ hcalm _ => exact absurd hcalm hplain
  | contradicted hcompared _ => exact absurd hcompared.plain hplain
  | overwritten _ _ hcompared _ => exact absurd hcompared.plain hplain
  | deleted _ hcompared _ => exact absurd hcompared.plain hplain
  | stale hcompared _ => exact absurd hcompared.plain hplain
  | undecided _ hdecision => simp [hresolver, Resolver.chain] at hdecision
  | settled _ hdecision _ => simp [hresolver, Resolver.chain] at hdecision
  | declined hoffered _ hcontended => exact .inr ⟨hoffered.unknown, rfl, hcontended⟩
  | disputed _ hunknown _ hcontended => exact .inr ⟨hunknown, rfl, hcontended⟩

end Ways

end Memory

end ReplicaIntake
