import ReplicaIntake.Metadata

/-!
# Causal relation of two writes

An incoming write is compared with a stored one by looking each identity up in the other's
lineage. Since the versions of one node ascend, no two writes can each descend from the other; when
both lineages claim so, a version has been used twice, and `checkAncestry` refuses to pick a side.
-/

namespace ReplicaIntake

/-- How an incoming write relates to the stored one. -/
inductive Ancestry where
  /-- Both are the same write. -/
  | same
  /-- The incoming write was made on top of the stored one. -/
  | descendant
  /-- The stored write was made on top of the incoming one. -/
  | ancestor
  /-- Neither knows of the other. -/
  | concurrent
  deriving DecidableEq

/-- Two writes whose lineages each list the other. -/
structure CausalityViolation where
  /-- The identity of the incoming write. -/
  incoming : WriteId
  /-- The identity of the stored write. -/
  existing : WriteId
  deriving DecidableEq

/-- The violation in words. -/
def CausalityViolation.message (v : CausalityViolation) : String :=
  "incoming write " ++ v.incoming.text ++ " and stored write " ++ v.existing.text ++
    " each list the other as an ancestor"

namespace Metadata

/-- Whether `incoming` may replace `existing` without a conflict: the stored write has no identity,
or it is a different write that the incoming lineage lists. -/
def descendsFrom (incoming existing : Metadata) : Bool :=
  match existing.identity with
  | none => true
  | some current => incoming.identity != some current && incoming.lineage.contains current

/-- Whether the lineage of `existing` lists the identity of `incoming`. -/
def precededBy (existing incoming : Metadata) : Bool :=
  match incoming.identity with
  | none => false
  | some id => existing.lineage.contains id

/-- The relation of `incoming` to `existing`. Of two writes that each list the other, the incoming
one counts as the descendant; `checkAncestry` refuses them. -/
def ancestry (incoming existing : Metadata) : Ancestry :=
  if incoming.sameIdentity existing then .same
  else if existing.identity.isNone then
    -- a stored write without identity yields, unless it lists the incoming one
    if existing.precededBy incoming then .ancestor else .descendant
  else if incoming.descendsFrom existing then .descendant
  else if existing.precededBy incoming then .ancestor
  else .concurrent

/-- The violation, when two different writes with identities each list the other. -/
def violation? (incoming existing : Metadata) : Option CausalityViolation :=
  match incoming.identity, existing.identity with
  | some id, some current =>
    if id ≠ current ∧ incoming.lineage.contains current ∧ existing.lineage.contains id then
      some ⟨id, current⟩
    else none
  | _, _ => none

/-- The relation of `incoming` to `existing`, refused when each lists the other. -/
def checkAncestry (incoming existing : Metadata) : Except CausalityViolation Ancestry :=
  match violation? incoming existing with
  | some v => .error v
  | none => .ok (ancestry incoming existing)

end Metadata

end ReplicaIntake
