import ReplicaIntake.Config
import ReplicaIntake.Toml.Document

/-!
# Configurations as texts

A configuration is written as a TOML text. The bound of the lineages is the key `max_history` of the
outermost table; other keys are of no account, as long as the text is well-formed.
-/

namespace ReplicaIntake.Config

/-- The configuration of the outermost table of a text, valid or not. -/
def ofMembers? (members : Toml.Members) : Option Config :=
  match members.lookup "max_history" with
  | none => some {}
  | some (.integer n) => if 0 ≤ n then some ⟨n.toNat⟩ else none
  | some _ => none

/-- The configuration of a text, if it is one that an intake can work with. -/
def ofText (text : String) : Except ConfigError Config :=
  match (Toml.parse? text).bind ofMembers? with
  | none => .error .unreadable
  | some c => c.validate

end ReplicaIntake.Config
