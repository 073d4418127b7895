import ReplicaIntake.KeyMap
import ReplicaIntake.Format.Binary
import ReplicaIntake.Format.Decimal

/-!
# Replicated counters

A counter keeps, for each node, how much that node has added and how much it has taken away in all.
A node raises only its own totals, so the larger of two totals is the later one, and merging keeps
the larger total of every node. The value is the sum of what was added less the sum of what was
taken away.
-/

namespace ReplicaIntake

/-- The totals of every node. Totals stop at the largest word. -/
structure Counter where
  /-- What each node has added. -/
  increments : KeyMap UInt64 := .empty
  /-- What each node has taken away. -/
  decrements : KeyMap UInt64 := .empty
  deriving DecidableEq

namespace Counter

/-! ## §1 Totals -/

/-- The sum of two words, or the largest word when it would exceed that. -/
def saturatingAdd (a b : UInt64) : UInt64 :=
  if a.toNat + b.toNat < UInt64.size then a + b else UInt64.ofNat (UInt64.size - 1)

/-- The totals with `n` more for `node`. -/
def raise (totals : KeyMap UInt64) (node : String) (n : UInt64) : KeyMap UInt64 :=
  totals.insert node (saturatingAdd ((totals.find? node).getD 0) n)

/-- The larger of a total that may be missing and one that is there. -/
def larger (mine : Option UInt64) (theirs : UInt64) : UInt64 :=
  match mine with
  | none => theirs
  | some n => if n ≤ theirs then theirs else n

/-! ## §2 Counters -/

/-- The counter without totals. -/
def zero : Counter := {}

/-- Adds `n` on behalf of `node`. -/
def increment (c : Counter) (node : String) (n : UInt64) : Counter :=
  { c with increments := raise c.increments node n }

/-- Takes `n` away on behalf of `node`. -/
def decrement (c : Counter) (node : String) (n : UInt64) : Counter :=
  { c with decrements := raise c.decrements node n }

/-- Keeps the larger total of every node. -/
def merge (mine theirs : Counter) : Counter where
  increments := mine.increments.mergeWith larger theirs.increments
  decrements := mine.decrements.mergeWith larger theirs.decrements

/-- The sum of all totals. -/
def sum (totals : KeyMap UInt64) : Nat := totals.values.foldr (fun n rest => n.toNat + rest) 0

/-- An integer moved to the nearest signed 64-bit number. -/
def clamp (n : Int) : Int :=
  if n < -Decimal.signedLimit then -Decimal.signedLimit
  else if Decimal.signedLimit ≤ n then Decimal.signedLimit - 1
  else n

/-- What was added less what was taken away, as a signed 64-bit number. -/
def value (c : Counter) : Int := clamp (sum c.increments - sum c.decrements)

/-! ## §3 Binary form -/

/-- Totals in binary: their number, then each node and its total, in key order. -/
def writeTotals (totals : KeyMap UInt64) : Bytes :=
  Binary.writeNat totals.size ++
    totals.entries.flatMap fun e => Binary.writeText e.1 ++ Binary.writeNat e.2.toNat

/-- Reads `n` more totals. The nodes may come in any order; of two totals of one node the later
counts. -/
def readEntries : (n : Nat) → KeyMap UInt64 → Binary.Reader (KeyMap UInt64)
  | 0, totals, rest => .ok (totals, rest)
  | n + 1, totals, input =>
    match Binary.readText input with
    | .error e => .error e
    | .ok (node, rest) =>
      match Binary.readNat rest with
      | .error e => .error e
      | .ok (total, rest) => readEntries n (totals.insert node (UInt64.ofNat total)) rest

/-- Reads totals. -/
def readTotals : Binary.Reader (KeyMap UInt64) := fun input =>
  match Binary.readNat input with
  | .error e => .error e
  | .ok (n, rest) => readEntries n .empty rest

/-- A counter in binary: what was added, then what was taken away. -/
def encode (c : Counter) : Bytes := writeTotals c.increments ++ writeTotals c.decrements

/-- The counter at the start of the bytes. Bytes after it are of no account. -/
def decode (input : Bytes) : Except Binary.Fault Counter :=
  match readTotals input with
  | .error e => .error e
  | .ok (increments, rest) =>
    match readTotals rest with
    | .error e => .error e
    | .ok (decrements, _) => .ok { increments, decrements }

end Counter

end ReplicaIntake
