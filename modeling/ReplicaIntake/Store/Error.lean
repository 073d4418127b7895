import ReplicaIntake.Record
import ReplicaIntake.Format.Binary

/-!
# Failures of a store

A store refuses a write whose etag condition does not hold and a write in the wrong state of a
conflict; it reports stored values that it cannot read; and its database may fail. Everything but
the last says exactly what is wrong.
-/

namespace ReplicaIntake

/-- Why a stored value cannot be read. -/
inductive DecodeError where
  | document
  | metadata
  | marker
  /-- The bytes of a counter. -/
  | counter (fault : Binary.Fault)
  /-- The bytes of a file. -/
  | file (fault : Binary.Fault)
  /-- The last etag of a database. -/
  | lastEtag (fault : Decimal.Fault)
  /-- The last version of a database. -/
  | lastVersion (fault : Decimal.Fault)
  /-- The number that tells data, markers and tombstones apart. -/
  | state (n : Int) (key : String)
  /-- A failure that was asked for, at the `n`-th call of an operation. -/
  | injected (operation : String) (n : Nat)
  deriving DecidableEq

namespace DecodeError

/-- What cannot be read. -/
def subject : DecodeError → String
  | .document => "document"
  | .metadata => "metadata"
  | .marker => "conflict marker"
  | .counter _ => "counter"
  | .file _ => "file"
  | .lastEtag _ => "last_etag"
  | .lastVersion _ => "last_version"
  | .state _ _ => "record state"
  | .injected _ _ => "fault"

/-- What stands for a reason that is not given in words. -/
def unstated : String := "<detail>"

/-- The reason in words. -/
def reason : DecodeError → String
  | .document | .metadata | .marker => unstated
  | .counter fault | .file fault => fault.message
  | .lastEtag fault | .lastVersion fault => fault.message
  | .state n key => "unknown state " ++ Decimal.ofInt n ++ " for " ++ key
  | .injected operation n => operation ++ " " ++ Decimal.ofNat n

end DecodeError

/-- Why a store failed. -/
inductive StoreError where
  /-- The stored etag is not the expected one. -/
  | concurrency (key : String) (expected : Etag) (actual : Option Etag)
  /-- An operation on a conflict, at a key without conflict. -/
  | notConflicted (key : String)
  /-- A local write at a key in conflict. -/
  | conflicted (key : String) (shadows : List String)
  /-- A stored value cannot be read. -/
  | decode (error : DecodeError)
  | database
  deriving DecidableEq

namespace StoreError

/-- The name of a failure. -/
def name : StoreError → String
  | .concurrency _ _ _ => "ConcurrencyConflict"
  | .notConflicted _ => "NotConflicted"
  | .conflicted _ _ => "Conflicted"
  | .decode _ => "Decode"
  | .database => "Sqlite"

/-- The stored etag that a write met, in words. -/
def shownActual : Option Etag → String
  | none => "None"
  | some etag => "Some(" ++ etag.shown ++ ")"

/-- The failure in words. -/
def message : StoreError → String
  | .concurrency key expected actual =>
    "concurrency conflict on " ++ key ++ ": expected etag " ++ expected.text ++ ", found " ++
      shownActual actual
  | .notConflicted key => key ++ " is not in conflict"
  | .conflicted key shadows =>
    key ++ " is in conflict between " ++ Decimal.ofNat shadows.length ++
      " sides and must be resolved first"
  | .decode e => "failed to decode " ++ e.subject ++ ": " ++ e.reason
  | .database => "sqlite error: " ++ DecodeError.unstated

/-- Whether another writer was faster. -/
def isConcurrency : StoreError → Bool
  | .concurrency _ _ _ => true
  | _ => false

end StoreError

end ReplicaIntake
