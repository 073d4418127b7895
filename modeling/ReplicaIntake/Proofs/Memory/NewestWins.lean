import ReplicaIntake.Proofs.Memory.ConcurrentPuts

/-!
# The newest of concurrent puts wins

A policy that prefers the newer of two writes makes the deliveries of concurrent puts with different
times a maximum: the key holds the one with the largest time, whatever the order and however often
each has been delivered. How many entries a lineage keeps plays no part, because a put that the
lineage has lost is compared by time again, and loses again (`newest_prevails`).
-/

namespace ReplicaIntake.Memory

variable {α ω : Type} {key field : String} {writes seen : List (Update α)} {time : Update α → Int}
  {winner x : Update α} {r : Record α} {a : α}

theorem timestamp_of_prevails (h : Prevails seen winner a r) :
    Resolver.timestamp? field r.metadata = Resolver.timestamp? field winner.metadata := by
  -- the extra fields stay with the write that has won
  simp only [Resolver.timestamp?, h.extra]

theorem settles_of_newer (key : String) (max : Nat) (h : Prevails seen winner a r)
    (hx : Resolver.timestamp? field x.metadata = some (time x))
    (hwinner : Resolver.timestamp? field winner.metadata = some (time winner))
    (hlt : time winner < time x) :
    ∃ metadata, Settles (.preferNewest field) key max winner x r x metadata x.payload := by
  have harrived : Resolver.timestamp? field (x.metadata.bounded max) = some (time x) := hx
  refine ⟨_, .incoming x.payload ?_⟩
  simp only [Resolver.preferNewest, harrived, timestamp_of_prevails h, hwinner, if_pos hlt]
  rfl

theorem settles_of_older (key : String) (max : Nat) (h : Prevails seen winner a r)
    (hx : Resolver.timestamp? field x.metadata = some (time x))
    (hwinner : Resolver.timestamp? field winner.metadata = some (time winner))
    (hlt : time x < time winner) :
    ∃ metadata, Settles (.preferNewest field) key max winner x r winner metadata a := by
  have harrived : Resolver.timestamp? field (x.metadata.bounded max) = some (time x) := hx
  refine ⟨_, .stored a ?_⟩
  simp only [Resolver.preferNewest, harrived, timestamp_of_prevails h, hwinner,
    if_neg (Int.lt_asymm hlt), if_pos hlt, Resolver.preferLocal, h.plain.content]

theorem time_ne {y : Update α} (hdistinct : writes.Pairwise fun x y => time x ≠ time y)
    (hx : x ∈ writes) (hy : y ∈ writes) (hne : x ≠ y) : time x ≠ time y := by
  have : Std.Symm fun x y : Update α => time x ≠ time y := ⟨fun _ _ => Ne.symm⟩
  exact hdistinct.forall hx hy hne

/-- Of what has been delivered, the write that has won has the largest time, and its payload is
kept. -/
def IsNewest (time : Update α → Int) (seen : List (Update α)) (winner : Update α) (a : α) : Prop :=
  a = winner.payload ∧ ∀ y ∈ seen, time y ≤ time winner

theorem steady_newest (htime : ∀ x ∈ writes, Resolver.timestamp? field x.metadata = some (time x))
    (hdistinct : writes.Pairwise fun x y => time x ≠ time y) :
    Steady (.preferNewest field) key writes (IsNewest time) where
  first x _ := ⟨rfl, by simp⟩
  repeated x hx hnewest := by
    refine ⟨hnewest.1, ?_⟩
    intro y hy
    rcases List.mem_append.1 hy with hy | hy
    · exact hnewest.2 y hy
    · exact List.mem_singleton.1 hy ▸ hnewest.2 x hx
  decided := by
    rintro seen winner a r max x hx hwinner hne hprevails ⟨rfl, hlargest⟩
    -- of two different times one is larger, and the policy lets its write win
    rcases Int.lt_or_gt_of_ne (time_ne hdistinct hx hwinner hne) with hlt | hgt
    · obtain ⟨metadata, hsettles⟩ := settles_of_older key max hprevails
        (htime x hx) (htime winner hwinner) hlt
      refine ⟨winner, metadata, _, hsettles, rfl, ?_⟩
      intro y hy
      rcases List.mem_append.1 hy with hy | hy
      · exact hlargest y hy
      · exact List.mem_singleton.1 hy ▸ Int.le_of_lt hlt
    · obtain ⟨metadata, hsettles⟩ := settles_of_newer key max hprevails
        (htime x hx) (htime winner hwinner) hgt
      refine ⟨x, metadata, _, hsettles, rfl, ?_⟩
      intro y hy
      rcases List.mem_append.1 hy with hy | hy
      · exact Int.le_trans (hlargest y hy) (Int.le_of_lt hgt)
      · exact List.mem_singleton.1 hy ▸ Int.le_refl _

/-- Only one of the writes is the newest of those delivered. -/
theorem newest_unique {deliveries deliveries' : List (Update α)} {y : Update α} {b : α}
    (hdistinct : writes.Pairwise fun x y => time x ≠ time y)
    (hdelivered : ∀ x ∈ deliveries, x ∈ writes) (hsame : ∀ x, x ∈ deliveries' ↔ x ∈ deliveries)
    (hx : x ∈ deliveries) (hnewest : IsNewest time deliveries x a)
    (hy : y ∈ deliveries') (hnewest' : IsNewest time deliveries' y b) : y = x := by
  have hequal : time y = time x :=
    Int.le_antisymm (hnewest.2 y ((hsame y).1 hy)) (hnewest'.2 x ((hsame x).2 hx))
  by_contra hne
  exact time_ne hdistinct (hdelivered y ((hsame y).1 hy)) (hdelivered x hx) hne hequal

/-- Puts of one key that know nothing of each other and have different times are delivered, in any
order and with any repetitions, to stores that are without the key and prefer the newer write. At
any point no delivery has failed or led to a conflict, no other key has changed, and the key holds
the payload and the identity of the delivered put with the largest time. So stores that have
received the same puts hold the same. -/
theorem newest_prevails {field key : String} {writes : List (Update α)} {time : Update α → Int}
    (hconcurrent : writes.Pairwise Update.Concurrent)
    (htime : ∀ x ∈ writes, Resolver.timestamp? field x.metadata = some (time x))
    (hdistinct : writes.Pairwise fun x y => time x ≠ time y)
    (n : Receiver α ω (.preferNewest field) key) {deliveries : List (Update α)}
    (hdelivered : ∀ x ∈ deliveries, x ∈ writes) :
    n.Calm deliveries ∧
    (deliveries ≠ [] → ∃ x ∈ deliveries, (∀ y ∈ deliveries, time y ≤ time x) ∧
      n.held deliveries = some (.data x.payload, some x.id)) ∧
    ∀ (other : Receiver α ω (.preferNewest field) key) (deliveries' : List (Update α)),
      (∀ x, x ∈ deliveries' ↔ x ∈ deliveries) → other.held deliveries' = n.held deliveries := by
  have hsteady : Steady (.preferNewest field) key writes (IsNewest time) :=
    steady_newest htime hdistinct
  refine ⟨(progress_received n hconcurrent hsteady hdelivered).1, ?_, ?_⟩
  · intro hsome
    rcases held_cases n hconcurrent hsteady hdelivered with ⟨hnone, -⟩ | ⟨x, hx, a, hnewest, hheld⟩
    · exact absurd hnone hsome
    · obtain ⟨rfl, hlargest⟩ := hnewest
      exact ⟨x, hx, hlargest, hheld⟩
  · intro other deliveries' hsame
    have hview : (other.held deliveries').map id = (n.held deliveries).map id := by
      refine view_held_congr id hconcurrent hsteady n other hdelivered hsame ?_
      intro x a y b hx hnewest hy hnewest'
      obtain rfl := newest_unique hdistinct hdelivered hsame hx hnewest hy hnewest'
      rw [hnewest.1, hnewest'.1]
    simpa using hview

/-- A first write of `node` at the time in the field `t`, made on top of nothing. -/
def timed (node time : String) : Update String where
  id := ⟨node, 1⟩
  metadata := { Metadata.ofId node 1 with extra := .ofList [("t", time)] }
  payload := node
  identified := rfl
  isPut := rfl
  unflagged := rfl

/-- A store whose lineages have `max` entries and which prefers the newer write. -/
def newerWins (max : Nat) : Receiver String Unit (.preferNewest "t") "k" where
  kind := .document
  localId := "L"
  intake := { config := { maxHistory := max }, resolver := .preferNewest "t" }
  start := {}
  world := ()
  decides := rfl
  assents _ trigger htrigger := by cases htrigger
  absent := rfl

/-- With one entry to a lineage, the write of `a` is lost from it before it comes again. The store
ends up with the same write as one that has received the three in another order and forgets
nothing. -/
theorem newest_prevails_after_eviction :
    (newerWins 1).Calm [timed "a" "1", timed "c" "3", timed "b" "2", timed "a" "1"] ∧
    (newerWins 50).held [timed "b" "2", timed "a" "1", timed "c" "3"] =
      (newerWins 1).held [timed "a" "1", timed "c" "3", timed "b" "2", timed "a" "1"] := by
  have hnewest := @newest_prevails String Unit "t" "k"
    [timed "a" "1", timed "b" "2", timed "c" "3"]
    (fun x => (Resolver.timestamp? "t" x.metadata).getD 0) (by decide +kernel) (by decide +kernel)
    (by decide +kernel) (newerWins 1)
    [timed "a" "1", timed "c" "3", timed "b" "2", timed "a" "1"] (by simp)
  refine ⟨hnewest.1, hnewest.2.2 (newerWins 50) _ ?_⟩
  intro x
  simp only [List.mem_cons, List.not_mem_nil, or_false]
  tauto

end ReplicaIntake.Memory
