import ReplicaIntake.Format.Decimal

/-!
# Actions after a commit

What observers may see only once the data is durable is queued on the transaction. The queue is
run after the commit, in the order in which it was filled, or it is discarded with the transaction.
An action that crashes has changed the world by what it did before, and does not stop those behind
it.
-/

namespace ReplicaIntake

/-- How an action ended. -/
inductive ActionEnd where
  | finished
  /-- It broke down on the way. -/
  | crashed
  deriving DecidableEq

/-- Work on the world: how it ends, and the world as it leaves it. -/
abbrev CommitAction (ω : Type) := ω → ActionEnd × ω

/-- The actions queued by one transaction. -/
structure PostCommit (ω : Type) where
  /-- The actions, first come first. -/
  actions : List (CommitAction ω) := []

namespace PostCommit

variable {ω : Type}

/-- Queues an action. -/
def push (q : PostCommit ω) (action : CommitAction ω) : PostCommit ω := ⟨q.actions ++ [action]⟩

/-- Number of queued actions. -/
def size (q : PostCommit ω) : Nat := q.actions.length

/-- Whether nothing is queued. -/
def isEmpty (q : PostCommit ω) : Bool := q.actions.isEmpty

/-- Runs every action in the order of the queue, however those before it ended. -/
def run (q : PostCommit ω) (w : ω) : ω :=
  q.actions.foldl (fun w action => (action w).2) w

/-- A queue in words. -/
def describe (q : PostCommit ω) : String :=
  "PostCommit \x7b pending: " ++ Decimal.ofNat q.size ++ " \x7d"

end PostCommit

end ReplicaIntake
