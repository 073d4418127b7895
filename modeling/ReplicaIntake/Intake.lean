import ReplicaIntake.Ancestry
import ReplicaIntake.Config
import ReplicaIntake.Notification
import ReplicaIntake.Policy
import ReplicaIntake.Storage

/-!
# The intake of replicated writes

What to do with an incoming write is decided per key, inside a transaction that the caller owns:

- the key is absent: a put is stored, a deletion is ignored;
- the write is the stored one, or one of the sides of the stored conflict: nothing happens;
- both are deletions: their lineages are merged;
- the write descends from the stored one: it replaces it;
- the stored write descends from the incoming one: nothing happens;
- a policy decides: its decision is stored;
- otherwise the write becomes one side of a conflict, and observers are told after the commit.

Every check comes before the first write, so that a refusal other than the storage's own leaves the
transaction as it was.
-/

namespace ReplicaIntake

/-! ## §1 Outcomes and failures -/

/-- What an intake did with a write. -/
inductive Outcome where
  /-- The key was absent; the write was stored. -/
  | created
  /-- The write descended from the stored one and replaced it. -/
  | overwritten
  /-- The write had been applied before. -/
  | replayed
  /-- The stored write descends from the incoming one. -/
  | stale
  /-- A deletion of an absent key. -/
  | ignored
  /-- A deletion met a tombstone. -/
  | historiesMerged
  /-- The deletion descended from the stored write and removed the item. -/
  | deleted
  /-- A policy's payload replaced what was stored. -/
  | resolved
  /-- A policy removed the item. -/
  | resolvedAsRemoved
  /-- The write is now one side of a conflict, which it may have created. -/
  | conflict (summary : ConflictSummary) (created : Bool)
  deriving DecidableEq

namespace Outcome

/-- The name of an outcome. -/
def name : Outcome → String
  | .created => "Created"
  | .overwritten => "Overwritten"
  | .replayed => "Replayed"
  | .stale => "Stale"
  | .ignored => "Ignored"
  | .historiesMerged => "HistoriesMerged"
  | .deleted => "Deleted"
  | .resolved => "Resolved"
  | .resolvedAsRemoved => "ResolvedAsRemoved"
  | .conflict _ _ => "Conflict"

/-- The write ended up in a conflict. -/
def isConflict : Outcome → Bool
  | .conflict _ _ => true
  | _ => false

/-- The write changed nothing. -/
def isNoop : Outcome → Bool
  | .replayed | .stale | .ignored => true
  | _ => false

end Outcome

/-- Why an intake failed. A failure of the storage is of type `ε`. -/
inductive IntakeError (ε : Type) where
  /-- Reading failed; the write may be sent again as it is. -/
  | fetch (source : ε)
  /-- Writing failed, or an etag was not the expected one. -/
  | storage (source : ε)
  | resolver (reason : String)
  /-- A trigger refused the decision of the policy. -/
  | trigger (reason : String)
  /-- The incoming and the stored lineage contradict each other. -/
  | causality (violation : CausalityViolation)
  /-- The write has no node or version where one is needed. -/
  | missingIdentity
  | missingPayload
  /-- Both sides of the conflict would have the same shadow key. -/
  | shadowCollision (shadow : String)
  /-- A put whose metadata says that it is a deletion. -/
  | deleteMarkerOnPut
  deriving DecidableEq

namespace IntakeError

variable {ε : Type}

/-- The name of a failure. -/
def name : IntakeError ε → String
  | .fetch _ => "Fetch"
  | .storage _ => "Storage"
  | .resolver _ => "Resolver"
  | .trigger _ => "Trigger"
  | .causality _ => "CausalityViolation"
  | .missingIdentity => "MissingIdentity"
  | .missingPayload => "MissingPayload"
  | .shadowCollision _ => "ShadowCollision"
  | .deleteMarkerOnPut => "DeleteMarkerOnPut"

/-- The failure for `key` in words, given the words of the storage. -/
def message (words : ε → String) (key : String) : IntakeError ε → String
  | .fetch _ => "replication read failed for key " ++ key
  | .storage e => "replication write failed for key " ++ key ++ ": " ++ words e
  | .resolver reason => "conflict resolution failed for key " ++ key ++ ": " ++ reason
  | .trigger reason => "resolution trigger failed for key " ++ key ++ ": " ++ reason
  | .causality v => "causality violation for key " ++ key ++ ": " ++ v.message
  | .missingIdentity => "replicated write for key " ++ key ++ " has no replication source/version"
  | .missingPayload => "replicated put for key " ++ key ++ " has no payload"
  | .shadowCollision shadow =>
    "conflict shadow " ++ shadow ++ " for key " ++ key ++
      " is claimed by both the local and the remote side"
  | .deleteMarkerOnPut => "replicated put for key " ++ key ++ " carries a delete marker"

/-- The failure of the storage behind it. -/
def source? : IntakeError ε → Option ε
  | .fetch e | .storage e => some e
  | _ => none

/-- Whether the write may be sent again as it is. -/
def isRetryable : IntakeError ε → Bool
  | .fetch _ => true
  | _ => false

end IntakeError

/-! ## §2 Intakes -/

/-- How a node takes in replicated writes. -/
structure Intake (α ω : Type) where
  config : Config := {}
  /-- The policy for concurrent writes. -/
  resolver : Resolver α := Resolver.chain []
  /-- What runs when a policy replaces data. -/
  triggers : List (Trigger α ω) := []
  /-- Who is told of conflicts. -/
  notifier : Notifier ω := {}

namespace Intake

variable {σ α ω ε : Type}

/-- The intake, if its configuration is valid. -/
def validate (i : Intake α ω) : Except ConfigError (Intake α ω) := i.config.validate.map fun _ => i

/-- An intake in words. -/
def describe (i : Intake α ω) : String :=
  "ReplicationIntake \x7b config: ReplicationConfig \x7b max_history: " ++
    Decimal.ofNat i.config.maxHistory ++ " \x7d, triggers: " ++ Decimal.ofNat i.triggers.length ++
    ", notifier: " ++ i.notifier.describe ++ ", .. \x7d"

/-! ## §3 Reading and judging -/

/-- The record under `key`, as an intake reads it. -/
def fetch (s : Storage σ α ω ε) (key : String) : Op (σ × ω) (IntakeError ε) (Option (Record α)) :=
  (s.get key).within .fetch

/-- Whether a record under one of the `shadows` has the identity of `incoming`. -/
def holdsIdentity (s : Storage σ α ω ε) (incoming : Metadata) :
    (shadows : List String) → Op (σ × ω) (IntakeError ε) Bool
  | [] => pure false
  | shadow :: rest => do
    let side ← fetch s shadow
    if side.any fun r => r.metadata.sameIdentity incoming then pure true
    else holdsIdentity s incoming rest

/-- Whether `existing` is a marker with a side of the identity of `incoming`. -/
def holdsSide (s : Storage σ α ω ε) (existing : Record α) (incoming : Metadata) :
    Op (σ × ω) (IntakeError ε) Bool :=
  match existing.marker? with
  | none => pure false
  | some m => holdsIdentity s incoming m.shadows

/-- The relation of `incoming` to the stored metadata, a contradiction being a failure. -/
def judge (incoming existing : Metadata) : Op (σ × ω) (IntakeError ε) Ancestry :=
  match incoming.checkAncestry existing with
  | .ok ancestry => pure ancestry
  | .error violation => throw (.causality violation)

/-! ## §4 Decisions of the policy -/

/-- Runs the triggers in order until one refuses. -/
def runTriggers (key : String) (payload : α) (incoming : Metadata) :
    List (Trigger α ω) → Op (σ × ω) (IntakeError ε) Unit
  | [] => pure ()
  | trigger :: rest => do
    match ← Op.outside (trigger key payload incoming) with
    | .error reason => throw (.trigger reason)
    | .ok () => runTriggers key payload incoming rest

/-- Removes the given shadows. -/
def removeShadows (s : Storage σ α ω ε) : List String → Op (σ × ω) (IntakeError ε) Unit
  | [] => pure ()
  | shadow :: rest => do
    (s.remove shadow none).within .storage
    removeShadows s rest

/-- Stores a decision of the policy under `key`, where `existing` was. A payload that is kept
expects the existing etag, unless that is a deleted item's. -/
def storeResolution (i : Intake α ω) (s : Storage σ α ω ε) (key : String) (incoming : Metadata)
    (existing : Record α) : Resolution α → Op (σ × ω) (IntakeError ε) Outcome
  | .remove metadata => do
    let settled := { metadata.settled i.config.maxHistory with deleted := true }
    (s.remove key none).within .storage
    let _ ← (s.markDeleted key settled).within .storage
    pure .resolvedAsRemoved
  | .keep metadata payload => do
    let settled := { metadata.settled i.config.maxHistory with deleted := false }
    let expected := if existing.isTombstone then none else some existing.etag
    runTriggers key payload incoming (if s.kind.runsTriggers then i.triggers else [])
    let _ ← (s.put key expected settled payload).within .storage
    pure .resolved

/-- Stores a decision of the policy in place of the existing record. If that was a marker, its
sides go too. -/
def applyResolution (i : Intake α ω) (s : Storage σ α ω ε) (key : String) (incoming : Metadata)
    (existing : Record α) (resolution : Resolution α) :
    Op (σ × ω) (IntakeError ε) Outcome := do
  let outcome ← i.storeResolution s key incoming existing resolution
  removeShadows s ((existing.marker?.map (·.shadows)).getD [])
  pure outcome

/-! ## §5 Conflicts -/

/-- Stores one side of a conflict under its shadow key: data, or a tombstone for a deletion. -/
def storeSide (s : Storage σ α ω ε) (shadow : String) (side : Metadata) :
    Option α → Op (σ × ω) (IntakeError ε) Etag
  | some payload => (s.put shadow none side payload).within .storage
  | none => (s.markDeleted shadow side).within .storage

/-- Makes a marker of the existing record that lists both sides, or lists one more side in the
marker that it is. -/
def joinConflict (s : Storage σ α ω ε) (key newShadow existingShadow : String)
    (existing : Record α) : Op (σ × ω) (IntakeError ε) ConflictSummary :=
  if existing.isMarker then (s.extendConflict key newShadow existing).within .storage
  else (s.createConflict key newShadow existingShadow existing).within .storage

/-- Has observers told of a conflict after the commit. -/
def announce (i : Intake α ω) (s : Storage σ α ω ε) (note : Notification) :
    Op (σ × ω) (IntakeError ε) Unit := fun (t, w) =>
  .ok () (s.onCommit (fun w => (.finished, (i.notifier.raise note w).2)) t, w)

/-- Whether a new side under `shadow` makes the conflict of the existing record longer: it is no
marker yet, or one that does not list the shadow. -/
def joins (existing : Record α) (shadow : String) : Bool :=
  !existing.isMarker || !existing.marker?.any (·.lists shadow)

/-- Makes the write one side of a conflict under `key`, and has observers told if the conflict is
new or has one more side. -/
def contend (i : Intake α ω) (s : Storage σ α ω ε) (key : String) (metadata : Metadata)
    (payload : Option α) (existing : Record α) (operation : Operation) :
    Op (σ × ω) (IntakeError ε) Outcome :=
  match metadata.source with
  | none => throw .missingIdentity
  | some source =>
    let newShadow := ShadowKey.make key source
    let existingShadow := ShadowKey.make key s.discriminator
    if existingShadow = newShadow then throw (.shadowCollision newShadow)
    else do
      let _ ← storeSide s newShadow metadata.asConflictSide payload
      let summary ← joinConflict s key newShadow existingShadow existing
      if joins existing newShadow then
        i.announce s ⟨key, summary.etag, summary.shadows, s.kind, operation⟩
        pure (.conflict summary !existing.isMarker)
      else pure (.conflict summary !existing.isMarker)

/-- Asks the policy about a write that is concurrent with the existing record, and makes it a
conflict if there is no decision. -/
def decide (i : Intake α ω) (s : Storage σ α ω ε) (key : String) (metadata : Metadata)
    (payload : Option α) (existing : Record α) (operation : Operation) :
    Op (σ × ω) (IntakeError ε) Outcome :=
  match i.resolver key metadata payload existing with
  | .error reason => throw (.resolver reason)
  | .ok (some resolution) => i.applyResolution s key metadata existing resolution
  | .ok none => i.contend s key metadata payload existing operation

/-! ## §6 Incoming writes -/

/-- Takes in a put that is not yet known under a key that holds `existing`. -/
def putOver (i : Intake α ω) (s : Storage σ α ω ε) (key : String) (metadata : Metadata)
    (payload : α) (existing : Record α) : Op (σ × ω) (IntakeError ε) Outcome := do
  if existing.isMarker then i.decide s key metadata (some payload) existing .put
  else
    match ← judge metadata existing.metadata with
    | .descendant =>
      let _ ← (s.put key (some existing.etag) metadata payload).within .storage
      pure .overwritten
    | .ancestor => pure .stale
    | .same | .concurrent => i.decide s key metadata (some payload) existing .put

/-- Takes in a put whose lineage is bounded. -/
def putBounded (i : Intake α ω) (s : Storage σ α ω ε) (key : String) (metadata : Metadata)
    (payload : α) : Op (σ × ω) (IntakeError ε) Outcome := do
  match ← fetch s key with
  | none =>
    let _ ← (s.put key none metadata payload).within .storage
    pure .created
  | some existing =>
    if existing.metadata.sameIdentity metadata then pure .replayed
    else if ← holdsSide s existing metadata then pure .replayed
    else i.putOver s key metadata payload existing

/-- Takes in a put. -/
def put (i : Intake α ω) (s : Storage σ α ω ε) (key : String) (metadata : Metadata)
    (payload : α) : Op (σ × ω) (IntakeError ε) Outcome :=
  if metadata.deleted then throw .deleteMarkerOnPut
  else if metadata.identity.isNone then throw .missingIdentity
  else i.putBounded s key (metadata.bounded i.config.maxHistory) payload

/-- The metadata of a tombstone that a deletion has met: the lineages of both deletions, each with
its own identity as the newest entry, are merged. -/
def mergedTombstone (i : Intake α ω) (metadata existing : Metadata) : Metadata :=
  { metadata with
    lineage := Lineage.merge (metadata.lineage ++ metadata.identity.toList)
      (existing.lineage ++ existing.identity.toList) i.config.maxHistory
    mergedLineage := true }

/-- Takes in a deletion that is not yet known under a key that holds `existing`. -/
def deleteOver (i : Intake α ω) (s : Storage σ α ω ε) (key : String) (metadata : Metadata)
    (existing : Record α) : Op (σ × ω) (IntakeError ε) Outcome := do
  if existing.isMarker then i.contend s key metadata none existing .delete
  else if existing.isTombstone then
    let _ ← (s.markDeleted key (i.mergedTombstone metadata existing.metadata)).within .storage
    pure .historiesMerged
  else
    match ← judge metadata existing.metadata with
    | .descendant =>
      (s.remove key (some existing.etag)).within .storage
      let _ ← (s.markDeleted key metadata).within .storage
      pure .deleted
    | .ancestor => pure .stale
    | .same | .concurrent => i.decide s key metadata none existing .delete

/-- Whether the deletion `metadata`, if it has an identity, is known to the existing record, to its
lineage, or to a side of its conflict. -/
def knowsDelete (s : Storage σ α ω ε) (existing : Record α) (metadata : Metadata) :
    Op (σ × ω) (IntakeError ε) Bool :=
  match metadata.identity with
  | none => pure false
  | some id =>
    if existing.metadata.lineage.covers id || existing.metadata.identity == some id then pure true
    else holdsSide s existing metadata

/-- Takes in a deletion. The tombstone stays in the collection of the item. -/
def delete (i : Intake α ω) (s : Storage σ α ω ε) (key : String) (metadata : Metadata) :
    Op (σ × ω) (IntakeError ε) Outcome := do
  let metadata := { metadata.bounded i.config.maxHistory with deleted := true }
  match ← fetch s key with
  | none => pure .ignored
  | some existing =>
    let metadata :=
      { metadata with collection := existing.metadata.collection.or metadata.collection }
    if ← knowsDelete s existing metadata then pure .replayed
    else i.deleteOver s key metadata existing

/-- Takes in a write, which is a deletion if its metadata says so. -/
def replicate (i : Intake α ω) (s : Storage σ α ω ε) (key : String) (metadata : Metadata)
    (payload : Option α) : Op (σ × ω) (IntakeError ε) Outcome :=
  if metadata.deleted then i.delete s key metadata
  else
    match payload with
    | some a => i.put s key metadata a
    | none => throw .missingPayload

end Intake

end ReplicaIntake
