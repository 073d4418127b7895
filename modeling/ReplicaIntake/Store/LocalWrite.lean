import ReplicaIntake.Store.Backend

/-!
# Writes made on this node

A local write gets the next version of this node as its identity, and the identity of the write it
replaces becomes the newest entry of its lineage, so other nodes see that it descends from that
write. A key in conflict takes no local write but a resolution, which descends from every side.
-/

namespace ReplicaIntake.Backend

variable {σ τ α ω : Type}

/-- Fails if the record is a marker. -/
def refuseConflicted (key : String) (existing : Option (Record α)) : Op τ StoreError Unit :=
  match existing.bind (·.marker?) with
  | some m => throw (.conflicted key m.shadows)
  | none => pure ()

/-- Stores a payload as a write of this node, and answers the metadata it was stored with. -/
def putLocal (b : Backend σ τ α ω) (key : String) (payload : α) (max : Nat) :
    Op (σ × ω) StoreError Metadata :=
  b.transact do
    let existing ← b.read key
    refuseConflicted key existing
    let version ← b.nextVersion
    let metadata := Metadata.stamp (existing.map (·.metadata)) b.localId version max
    let _ ← b.put key (existing.map (·.etag)) metadata payload
    pure metadata

/-- Replaces the existing record by a payload, or by a tombstone when there is none, and answers
the metadata. -/
def replace (b : Backend σ τ α ω) (key : String) (existing : Record α) (metadata : Metadata) :
    Option α → Op τ StoreError Metadata
  | some payload => do
    let _ ← b.put key (some existing.etag) metadata payload
    pure metadata
  | none => do
    let metadata := { metadata with deleted := true }
    b.remove key (some existing.etag)
    let _ ← b.markDeleted key metadata
    pure metadata

/-- Deletes an item as a write of this node, which leaves a tombstone, and answers its metadata.
An absent key stays absent. -/
def deleteLocal (b : Backend σ τ α ω) (key : String) (max : Nat) :
    Op (σ × ω) StoreError (Option Metadata) :=
  b.transact do
    match ← b.read key with
    | none => pure none
    | some existing =>
      refuseConflicted key (some existing)
      let version ← b.nextVersion
      let metadata := Metadata.stamp (some existing.metadata) b.localId version max
      pure (some (← b.replace key existing metadata none))

/-- The metadata of those of the given records that are there. -/
def readSides (b : Backend σ τ α ω) : List String → Op τ StoreError (List Metadata)
  | [] => pure []
  | shadow :: rest => do
    let side ← b.read shadow
    let sides ← b.readSides rest
    pure ((side.map (·.metadata)).toList ++ sides)

/-- The lineage of a resolution: all entries of the sides, those of earlier sides first, and then
the sides themselves, so that bounding drops older ancestry first. -/
def resolvedLineage (sides : List Metadata) : Lineage :=
  Lineage.withNewest (sides.foldl (fun l side => Lineage.union side.lineage l) [])
    (sides.filterMap (·.identity))

/-- Removes the given records. -/
def removeEach (b : Backend σ τ α ω) : List String → Op τ StoreError Unit
  | [] => pure ()
  | key :: rest => do
    b.remove key none
    b.removeEach rest

/-- The metadata of a resolution on top of the given sides. -/
def resolvedMetadata (b : Backend σ τ α ω) (sides : List Metadata) (existing : Metadata)
    (version : UInt64) (max : Nat) : Metadata :=
  { Metadata.ofId b.localId version with
    lineage := (resolvedLineage sides).bound max
    collection := existing.collection }

/-- Ends a conflict with a payload, or with a deletion when there is none, as a write of this node,
and answers its metadata. The sides are removed. -/
def resolveLocal (b : Backend σ τ α ω) (key : String) (payload : Option α) (max : Nat) :
    Op (σ × ω) StoreError Metadata :=
  b.transact do
    match ← b.read key with
    | none => throw (.notConflicted key)
    | some existing =>
      match existing.marker? with
      | none => throw (.notConflicted key)
      | some marker =>
        let sides ← b.readSides marker.shadows
        let version ← b.nextVersion
        let metadata := b.resolvedMetadata sides existing.metadata version max
        let metadata ← b.replace key existing metadata payload
        b.removeEach marker.shadows
        pure metadata

end ReplicaIntake.Backend
