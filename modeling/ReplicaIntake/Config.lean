import ReplicaIntake.Lineage

/-!
# Configuration of an intake

The one setting is the bound of the lineages. An intake cannot work with a bound of zero, because a
write would then not even remember the write that it replaced.
-/

namespace ReplicaIntake

/-- The configuration shared by the intakes of a node. -/
structure Config where
  /-- How many entries a lineage keeps. -/
  maxHistory : Nat := defaultMaxHistory
  deriving DecidableEq

/-- Why a configuration is refused. -/
inductive ConfigError where
  /-- Lineages would keep no entry. -/
  | zeroHistory
  /-- The text is no configuration. -/
  | unreadable
  deriving DecidableEq

/-- The refusal in words. -/
def ConfigError.message : ConfigError → String
  | .zeroHistory => "max_history must be at least 1"
  | .unreadable => "invalid replication config"

namespace Config

/-- The configuration, if an intake can work with it. -/
def validate (c : Config) : Except ConfigError Config :=
  if c.maxHistory = 0 then .error .zeroHistory else .ok c

end Config

end ReplicaIntake
