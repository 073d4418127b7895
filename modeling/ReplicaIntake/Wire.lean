import ReplicaIntake.Config
import ReplicaIntake.Counter
import ReplicaIntake.Notification
import ReplicaIntake.Json.Fields
import ReplicaIntake.Json.Text

/-!
# JSON forms of the values that travel

Metadata, markers, notifications and payloads are written as JSON objects with their fields in a
fixed order. Reading takes the fields in any order, passes over unknown ones, and also takes an
array of the values in that order. The fields of metadata and of a configuration may be missing;
those of all other values have to be there.
-/

namespace ReplicaIntake

/-! ## §1 Words, texts and maps -/

/-- A 64-bit word as a JSON number. -/
def Json.ofWord (w : UInt64) : Json := .ofNat w.toNat

/-- A map as a JSON object, its keys in ascending order. -/
def Json.ofMap {α : Type} (f : α → Json) (m : KeyMap α) : Json :=
  .ofMembers (m.entries.map fun e => (e.1, f e.2))

/-! ## §2 Identities and lineages -/

namespace WriteId

/-- An identity as an object. -/
def toJson (id : WriteId) : Json :=
  .ofMembers [("source", .ofText id.source), ("version", .ofWord id.version)]

/-- The identity of an object. -/
def ofJson? (j : Json) : Option WriteId :=
  match j.fields? ["source", "version"] with
  | some [source, version] =>
    match Json.required? Json.asText? source, Json.required? Json.asWord? version with
    | some source, some version => some ⟨source, version⟩
    | _, _ => none
  | _ => none

end WriteId

namespace Lineage

/-- A lineage as an array. -/
def toJson (l : Lineage) : Json := .array (l.map WriteId.toJson)

/-- The lineage of an array. -/
def ofJson? (j : Json) : Option Lineage := j.asList? WriteId.ofJson?

end Lineage

/-! ## §3 Metadata -/

namespace Metadata

/-- The names of the fields of metadata, in the order in which they are written. -/
def fieldNames : List String :=
  ["delete-marker", "replication-source", "replication-version", "replication-history",
    "replication-conflict", "replication-conflict-document", "replication-merged-history",
    "collection", "extra"]

/-- Metadata as an object. -/
def toJson (m : Metadata) : Json :=
  .ofMembers
    [("delete-marker", .bool m.deleted),
      ("replication-source", .ofOption .ofText m.source),
      ("replication-version", .ofOption .ofWord m.version),
      ("replication-history", Lineage.toJson m.lineage),
      ("replication-conflict", .bool m.conflict),
      ("replication-conflict-document", .bool m.conflictSide),
      ("replication-merged-history", .bool m.mergedLineage),
      ("collection", .ofOption .ofText m.collection),
      ("extra", .ofMap .ofText m.extra)]

/-- The metadata of an object. -/
def ofJson? (j : Json) : Option Metadata :=
  match j.fields? fieldNames with
  | some [deleted, source, version, lineage, conflict, side, merged, collection, extra] => do
    let deleted ← Json.optional? false Json.asBool? deleted
    let source ← Json.optional? none (Json.asOption? Json.asText?) source
    let version ← Json.optional? none (Json.asOption? Json.asWord?) version
    let lineage ← Json.optional? [] Lineage.ofJson? lineage
    let conflict ← Json.optional? false Json.asBool? conflict
    let conflictSide ← Json.optional? false Json.asBool? side
    let mergedLineage ← Json.optional? false Json.asBool? merged
    let collection ← Json.optional? none (Json.asOption? Json.asText?) collection
    let extra ← Json.optional? .empty (Json.asMap? Json.asText?) extra
    some { deleted, source, version, lineage, conflict, conflictSide, mergedLineage, collection,
           extra }
  | _ => none

end Metadata

/-! ## §4 Etags, names and markers -/

namespace Etag

/-- An etag as a number. -/
def toJson (e : Etag) : Json := .ofWord e.value

/-- The etag of a number. -/
def ofJson? (j : Json) : Option Etag := j.asWord?.map Etag.mk

end Etag

namespace ItemKind

/-- A kind as its name. -/
def toJson (k : ItemKind) : Json := .ofText k.name

/-- The kind of a name. -/
def ofJson? (j : Json) : Option ItemKind := j.asName?.bind ofName?

end ItemKind

namespace Operation

/-- An operation as its name. -/
def toJson (o : Operation) : Json := .ofText o.name

/-- The operation of a name. -/
def ofJson? (j : Json) : Option Operation := j.asName?.bind ofName?

end Operation

namespace Marker

/-- A marker as an object. -/
def toJson (m : Marker) : Json := .ofMembers [("conflicts", .ofTexts m.shadows)]

/-- The marker of an object. -/
def ofJson? (j : Json) : Option Marker :=
  match j.fields? ["conflicts"] with
  | some [shadows] => (Json.required? (Json.asList? Json.asText?) shadows).map Marker.mk
  | _ => none

end Marker

/-! ## §5 Notifications and configurations -/

namespace Notification

/-- A notification as an object. -/
def toJson (n : Notification) : Json :=
  .ofMembers
    [("id", .ofText n.id), ("etag", n.etag.toJson), ("conflicts", .ofTexts n.conflicts),
      ("item_type", n.itemKind.toJson), ("operation", n.operation.toJson)]

/-- The notification of an object. -/
def ofJson? (j : Json) : Option Notification :=
  match j.fields? ["id", "etag", "conflicts", "item_type", "operation"] with
  | some [id, etag, conflicts, kind, operation] => do
    let id ← Json.required? Json.asText? id
    let etag ← Json.required? Etag.ofJson? etag
    let conflicts ← Json.required? (Json.asList? Json.asText?) conflicts
    let itemKind ← Json.required? ItemKind.ofJson? kind
    let operation ← Json.required? Operation.ofJson? operation
    some { id, etag, conflicts, itemKind, operation }
  | _ => none

end Notification

namespace Config

/-- A configuration as an object. -/
def toJson (c : Config) : Json := .ofMembers [("max_history", .ofNat c.maxHistory)]

/-- The configuration of an object, valid or not. -/
def ofJson? (j : Json) : Option Config :=
  match j.fields? ["max_history"] with
  | some [max] => (Json.optional? defaultMaxHistory Json.asNat? max).map Config.mk
  | _ => none

end Config

/-! ## §6 Payloads -/

namespace Counter

/-- A counter as an object. -/
def toJson (c : Counter) : Json :=
  .ofMembers [("increments", .ofMap .ofWord c.increments), ("decrements", .ofMap .ofWord c.decrements)]

/-- The counter of an object. -/
def ofJson? (j : Json) : Option Counter :=
  match j.fields? ["increments", "decrements"] with
  | some [increments, decrements] =>
    match Json.required? (Json.asMap? Json.asWord?) increments,
      Json.required? (Json.asMap? Json.asWord?) decrements with
    | some increments, some decrements => some { increments, decrements }
    | _, _ => none
  | _ => none

end Counter

/-- The content of a file as an object. -/
def Json.ofFile (content : Bytes) : Json :=
  .ofMembers [("content", .array (content.map fun b => .ofNat b.toNat))]

/-- The content of a file of an object. -/
def Json.asFile? (j : Json) : Option Bytes :=
  match j.fields? ["content"] with
  | some [content] => Json.required? (Json.asList? Json.asByte?) content
  | _ => none

end ReplicaIntake
