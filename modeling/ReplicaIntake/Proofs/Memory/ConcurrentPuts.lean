import Mathlib.Data.List.Induction
import Mathlib.Data.List.Pairwise
import ReplicaIntake.Proofs.Lineages
import ReplicaIntake.Proofs.Memory.Histories
import ReplicaIntake.Proofs.Memory.PlainRecords

/-!
# Concurrent puts under a policy that always decides

Puts of one key that know nothing of each other are delivered in any order and with any repetitions
to a store whose policy decides about each pair of them. Then the key always holds data under the
identity of one of the deliveries, and the stored lineage lists nothing but what deliveries were or
listed. So a put that is found in the lineage has been delivered before, and any other one is put to
the policy: also one that was delivered before and that the bounded lineage has lost again.

What a policy makes of the payloads is left to a predicate that its decisions keep (`Steady`), which
then holds after every run (`progress_received`).
-/

namespace ReplicaIntake.Memory

variable {α ω : Type}

/-! ## §1 Puts and their receivers -/

/-- A replicated put that is not flagged as a conflict. -/
structure Update (α : Type) where
  id : WriteId
  metadata : Metadata
  payload : α
  identified : metadata.identity = some id
  isPut : metadata.deleted = false
  unflagged : metadata.conflict = false

namespace Update

/-- The use of a store that takes the put in. -/
def command (i : Intake α ω) (key : String) (x : Update α) : Command α ω :=
  .replicate i key x.metadata (some x.payload)

/-- Two writes of which neither lists the other. -/
structure Concurrent (x y : Update α) : Prop where
  different : x.id ≠ y.id
  left : y.id ∉ x.metadata.lineage
  right : x.id ∉ y.metadata.lineage

theorem Concurrent.symm {x y : Update α} (h : Concurrent x y) : Concurrent y x :=
  ⟨h.different.symm, h.right, h.left⟩

instance : Std.Symm (@Concurrent α) := ⟨fun _ _ => Concurrent.symm⟩

instance (x y : Update α) : Decidable (Concurrent x y) :=
  decidable_of_iff (x.id ≠ y.id ∧ y.id ∉ x.metadata.lineage ∧ x.id ∉ y.metadata.lineage)
    ⟨fun h => ⟨h.1, h.2.1, h.2.2⟩, fun h => ⟨h.different, h.left, h.right⟩⟩

end Update

/-- A store that is without the key, and the intake through which it receives puts of the key. No
trigger refuses what the policy decides. -/
structure Receiver (α ω : Type) (policy : Resolver α) (key : String) where
  kind : ItemKind
  localId : String
  intake : Intake α ω
  start : Memory α
  world : ω
  decides : intake.resolver = policy
  assents : kind.runsTriggers = true → ∀ trigger ∈ intake.triggers, ∀ key a metadata w,
    (trigger key a metadata w).1 = .ok ()
  absent : start.records.find? key = none

variable {policy : Resolver α} {key : String} {n : Receiver α ω policy key}
  {writes seen : List (Update α)} {winner x : Update α} {r : Record α} {a : α}
  {m m' : Memory α} {w w' : ω}

/-- The replies to the deliveries, and what they leave of the store and the world. -/
def Receiver.received (n : Receiver α ω policy key) (deliveries : List (Update α)) :
    List (Reply α) × (Memory α × ω) :=
  Command.runAll (backend n.kind n.localId) (deliveries.map (Update.command n.intake key))
    (n.start, n.world)

theorem received_concat (n : Receiver α ω policy key) (deliveries : List (Update α))
    (x : Update α) :
    n.received (deliveries ++ [x]) =
      ((n.received deliveries).1 ++
        [((x.command n.intake key).run (backend n.kind n.localId) (n.received deliveries).2).1],
      ((x.command n.intake key).run (backend n.kind n.localId) (n.received deliveries).2).2) := by
  rw [Receiver.received, List.map_append, runAll_append]
  rfl

theorem fire_of_assent {triggers : List (Trigger α ω)}
    (h : ∀ trigger ∈ triggers, ∀ key a metadata w, (trigger key a metadata w).1 = .ok ())
    (key : String) (a : α) (metadata : Metadata) (w : ω) :
    (fire key a metadata triggers w).1 = .ok () := by
  induction triggers generalizing w with
  | nil => rfl
  | cons trigger rest ih =>
    have hfirst := h trigger List.mem_cons_self key a metadata w
    unfold fire
    cases hrun : trigger key a metadata w with
    | mk verdict w' =>
      rw [hrun] at hfirst
      obtain rfl : verdict = .ok () := hfirst
      exact ih (fun t ht => h t (List.mem_cons_of_mem _ ht)) w'

/-- The triggers of a receiver never refuse. -/
theorem fire_of_receiver (n : Receiver α ω policy key) (key : String) (a : α)
    (metadata : Metadata) (w : ω) :
    (fire key a metadata (if n.kind.runsTriggers then n.intake.triggers else []) w).1 = .ok () := by
  cases hkind : n.kind.runsTriggers with
  | false => rfl
  | true => exact fire_of_assent (n.assents hkind) key a metadata w

/-! ## §2 What is stored -/

/-- The record is the data `a`, stored as one of the writes seen, and lists nothing but what was
seen. -/
structure Prevails (seen : List (Update α)) (winner : Update α) (a : α) (r : Record α) : Prop where
  heard : winner ∈ seen
  plain : r.IsPlain winner.id a
  extra : r.metadata.extra = winner.metadata.extra
  listed : ∀ e ∈ r.metadata.lineage, ∃ x ∈ seen, e = x.id ∨ e ∈ x.metadata.lineage

theorem prevails_mono (h : Prevails seen winner a r) (x : Update α) :
    Prevails (seen ++ [x]) winner a r where
  heard := List.mem_append_left _ h.heard
  plain := h.plain
  extra := h.extra
  listed := by
    intro e he
    obtain ⟨y, hy, hlisted⟩ := h.listed e he
    exact ⟨y, List.mem_append_left _ hy, hlisted⟩

/-- Of writes that know nothing of each other, those that are listed have been seen. -/
theorem seen_of_listed (hconcurrent : writes.Pairwise Update.Concurrent)
    (hseen : ∀ y ∈ seen, y ∈ writes) (hx : x ∈ writes) (h : Prevails seen winner a r)
    (hlisted : x.id ∈ r.metadata.lineage) : x ∈ seen := by
  obtain ⟨y, hy, hfrom⟩ := h.listed x.id hlisted
  by_cases hxy : x = y
  · exact hxy ▸ hy
  · -- another write neither is this one nor lists it
    have hapart := hconcurrent.forall hx (hseen y hy) hxy
    rcases hfrom with hsame | hin
    · exact absurd hsame hapart.different
    · exact absurd hin hapart.right

/-- The policy lets one of the two writes win, and keeps the payload `a` under its identity. -/
inductive Settles (policy : Resolver α) (key : String) (max : Nat) (winner x : Update α)
    (r : Record α) : Update α → Metadata → α → Prop
  | incoming (a : α)
      (hpolicy : policy key (x.metadata.bounded max) (some x.payload) r =
        .ok (some (.keep ((x.metadata.bounded max).descendFromBoth r.metadata) a))) :
    Settles policy key max winner x r x ((x.metadata.bounded max).descendFromBoth r.metadata) a
  | stored (a : α)
      (hpolicy : policy key (x.metadata.bounded max) (some x.payload) r =
        .ok (some (.keep (r.metadata.descendFromBoth (x.metadata.bounded max)) a))) :
    Settles policy key max winner x r winner
      (r.metadata.descendFromBoth (x.metadata.bounded max)) a

/-- A put that is stored first lists what it came with. -/
theorem prevails_first (x : Update α) (max : Nat) (etag : Etag) :
    Prevails [x] x x.payload ⟨.data x.payload, etag, x.metadata.bounded max⟩ where
  heard := List.mem_singleton_self x
  plain := ⟨rfl, x.identified, isMarker_of_unflagged (some x.payload) etag x.unflagged, x.isPut⟩
  extra := rfl
  listed _ he := ⟨x, List.mem_singleton_self x, .inr (Metadata.mem_of_mem_bound he)⟩

/-- What a decision stores lists only what one of the two writes was or listed. -/
theorem prevails_settled {winner' : Update α} {metadata : Metadata} {a' : α}
    (h : Prevails seen winner a r) {max : Nat}
    (hsettles : Settles policy key max winner x r winner' metadata a') (etag : Etag) :
    Prevails (seen ++ [x]) winner' a'
      ⟨.data a', etag, { metadata.settled max with deleted := false }⟩ := by
  have hx : x ∈ seen ++ [x] := List.mem_append_right _ List.mem_cons_self
  have harrived : ∀ e, e ∈ (x.metadata.bounded max).lineage →
      ∃ y ∈ seen ++ [x], e = y.id ∨ e ∈ y.metadata.lineage :=
    fun e he => ⟨x, hx, .inr (Metadata.mem_of_mem_bound he)⟩
  have hstored := (prevails_mono h x).listed
  cases hsettles with
  | incoming a' _ =>
    refine ⟨hx, ⟨rfl, x.identified, rfl, rfl⟩, rfl, ?_⟩
    intro e he
    rcases Metadata.mem_of_mem_settled he with he | he | he
    · exact harrived e he
    · exact hstored e he
    · -- the loser is the stored write
      have hloser : winner.id = e := Option.some.inj (h.plain.identity.symm.trans he)
      exact ⟨winner, List.mem_append_left _ h.heard, .inl hloser.symm⟩
  | stored a' _ =>
    refine ⟨List.mem_append_left _ h.heard, ⟨rfl, h.plain.identity, rfl, rfl⟩, h.extra, ?_⟩
    intro e he
    rcases Metadata.mem_of_mem_settled he with he | he | he
    · exact hstored e he
    · exact harrived e he
    · have hloser : x.id = e := Option.some.inj (x.identified.symm.trans he)
      exact ⟨x, hx, .inl hloser.symm⟩

/-! ## §3 One delivery -/

/-- What `I` says of the deliveries, of the one that has won and of the payload is true of a first
delivery, and remains true when a delivery is repeated and when the policy decides about one. -/
structure Steady (policy : Resolver α) (key : String) (writes : List (Update α))
    (I : List (Update α) → Update α → α → Prop) : Prop where
  first : ∀ x ∈ writes, I [x] x x.payload
  repeated : ∀ {seen winner a} x, x ∈ seen → I seen winner a → I (seen ++ [x]) winner a
  decided : ∀ {seen winner a r} max, ∀ x ∈ writes, winner ∈ writes → x ≠ winner →
    Prevails seen winner a r → I seen winner a →
    ∃ winner' metadata a', Settles policy key max winner x r winner' metadata a' ∧
      I (seen ++ [x]) winner' a'

/-- What the store holds under the key: nothing yet, or data of which `I` is true. -/
inductive Progress (I : List (Update α) → Update α → α → Prop) (key : String)
    (seen : List (Update α)) (m : Memory α) : Prop
  | none (hnone : seen = []) (habsent : m.records.find? key = none)
  | some {winner : Update α} {a : α} {r : Record α} (hread : m.records.find? key = some r)
      (hprevails : Prevails seen winner a r) (hI : I seen winner a)

variable {I : List (Update α) → Update α → α → Prop}

/-- The delivery has succeeded without a conflict, and has changed no other key. -/
structure Accepted (I : List (Update α) → Update α → α → Prop) (key : String)
    (seen : List (Update α)) (x : Update α) (m : Memory α) (outcome : Outcome) (m' : Memory α) :
    Prop where
  calm : outcome.isConflict = false
  /-- Only what has been delivered before is answered as changing nothing. -/
  known : outcome.isNoop = true → x ∈ seen
  progress : Progress I key (seen ++ [x]) m'
  others : ∀ q, q ≠ key → m'.records.find? q = m.records.find? q

theorem accepted_repeated (hsteady : Steady policy key writes I) {outcome : Outcome}
    (hcalm : outcome.isConflict = false) (hx : x ∈ seen) (hread : m.records.find? key = some r)
    (h : Prevails seen winner a r) (hI : I seen winner a) :
    Accepted I key seen x m outcome m where
  calm := hcalm
  known _ := hx
  progress := .some hread (prevails_mono h x) (hsteady.repeated x hx hI)
  others _ _ := rfl

theorem find?_write_ne {q : String} (hq : q ≠ key) (m : Memory α) (content : Content α)
    (metadata : Metadata) : (m.write key content metadata).records.find? q = m.records.find? q := by
  rw [find?_write, if_neg hq]

theorem accepted_of_weighed (hconcurrent : writes.Pairwise Update.Concurrent)
    (hsteady : Steady policy key writes I) (hseen : ∀ y ∈ seen, y ∈ writes) (hx : x ∈ writes)
    (hread : m.records.find? key = some r) (h : Prevails seen winner a r) (hI : I seen winner a)
    {result : Except (IntakeError StoreError) Outcome} {notes : List Notification}
    (hweighed : Weighed n.intake n.kind n.localId key m w x.metadata x.id x.payload r winner.id
      result m' notes w') :
    ∃ outcome, result = .ok outcome ∧ Accepted I key seen x m outcome m' := by
  have hwinner : winner ∈ writes := hseen winner h.heard
  -- the winner is not in the lineage of another write
  have hunlisted : x.id ≠ winner.id →
      winner.id ∉ x.metadata.lineage.bound n.intake.config.maxHistory := by
    intro hne hin
    have hapart := hconcurrent.forall hx hwinner (fun heq => hne (congrArg Update.id heq))
    exact hapart.left (Metadata.mem_of_mem_bound hin)
  have hdecided : x.id ≠ winner.id → ∃ winner' metadata a',
      Settles policy key n.intake.config.maxHistory winner x r winner' metadata a' ∧
        I (seen ++ [x]) winner' a' := by
    intro hne
    exact hsteady.decided _ x hx hwinner (fun heq => hne (congrArg Update.id heq)) h hI
  cases hweighed with
  | same hsame =>
    -- of writes that know nothing of each other, only one has the identity
    have hxwinner : x = winner := by
      by_contra hne
      exact (hconcurrent.forall hx hwinner hne).different hsame
    exact ⟨_, rfl, accepted_repeated hsteady rfl (hxwinner ▸ h.heard) hread h hI⟩
  | crossed hne hlists _ => exact absurd hlists (hunlisted hne)
  | descended hne hlists _ => exact absurd hlists (hunlisted hne)
  | preceded _ _ hlisted =>
    have hbefore := seen_of_listed hconcurrent hseen hx h hlisted
    exact ⟨_, rfl, accepted_repeated hsteady rfl hbefore hread h hI⟩
  -- the policy decides about every two of the writes, so it neither fails nor declines
  | undecided hne hresolver =>
    rw [n.decides] at hresolver
    obtain ⟨winner', metadata, a', hsettles, -⟩ := hdecided hne
    cases hsettles with
    | incoming _ hpolicy => simp [hpolicy] at hresolver
    | stored _ hpolicy => simp [hpolicy] at hresolver
  | declined hne hresolver _ =>
    rw [n.decides] at hresolver
    obtain ⟨winner', metadata, a', hsettles, -⟩ := hdecided hne
    cases hsettles with
    | incoming _ hpolicy => simp [hpolicy] at hresolver
    | stored _ hpolicy => simp [hpolicy] at hresolver
  | @settled resolution _ _ _ hne _ _ hresolver hsettled =>
    rw [n.decides] at hresolver
    obtain ⟨winner', metadata, a', hsettles, hI'⟩ := hdecided hne
    obtain rfl : resolution = .keep metadata a' := by
      cases hsettles with
      | incoming _ hpolicy => simpa [hpolicy, eq_comm] using hresolver
      | stored _ hpolicy => simpa [hpolicy, eq_comm] using hresolver
    cases hsettled with
    | refused _ _ hfire =>
      have hassent := fire_of_receiver n key a' (x.metadata.bounded n.intake.config.maxHistory) w
      simp [hfire] at hassent
    | kept _ _ _ =>
      rw [sides_of_plain h.plain.unmarked]
      refine ⟨_, rfl, rfl, by simp [Outcome.isNoop], ?_, ?_⟩
      · exact .some (find?_write .. |>.trans (if_pos rfl)) (prevails_settled h hsettles _) hI'
      · intro q hq
        exact find?_write_ne hq _ _ _

theorem accepted_of_taken (hconcurrent : writes.Pairwise Update.Concurrent)
    (hsteady : Steady policy key writes I) (hseen : ∀ y ∈ seen, y ∈ writes) (hx : x ∈ writes)
    (hprogress : Progress I key seen m) {result : Except (IntakeError StoreError) Outcome}
    {notes : List Notification}
    (htaken : Taken n.intake n.kind n.localId key m w x.metadata (some x.payload) result m' notes
      w') :
    ∃ outcome, result = .ok outcome ∧ Accepted I key seen x m outcome m' := by
  have hid : x.metadata.identity ≠ none := by simp [x.identified]
  cases hprogress with
  | none hnone habsent =>
    obtain ⟨rfl, rfl, -, -⟩ := taken_of_absent habsent x.isPut hid htaken
    subst hnone
    refine ⟨_, rfl, rfl, by simp [Outcome.isNoop], ?_, ?_⟩
    · exact .some (find?_write .. |>.trans (if_pos rfl)) (prevails_first x _ _) (hsteady.first x hx)
    · intro q hq
      exact find?_write_ne hq _ _ _
  | some hread hprevails hI =>
    have hmet := taken_of_read hread hid (fun _ => by simp) htaken
    have hweighed := weighed_of_met hprevails.plain x.isPut x.identified hmet
    exact accepted_of_weighed hconcurrent hsteady hseen hx hread hprevails hI hweighed

/-! ## §4 Runs -/

/-- One more delivery to a receiver is accepted. -/
theorem accepted_run (n : Receiver α ω policy key) (hconcurrent : writes.Pairwise Update.Concurrent)
    (hsteady : Steady policy key writes I) (hseen : ∀ y ∈ seen, y ∈ writes) (hx : x ∈ writes)
    {s : Memory α × ω} (hprogress : Progress I key seen s.1) :
    ∃ outcome, ((x.command n.intake key).run (backend n.kind n.localId) s).1 =
        .outcome (.ok outcome) ∧
      Accepted I key seen x s.1 outcome
        ((x.command n.intake key).run (backend n.kind n.localId) s).2.1 := by
  obtain ⟨result, m', notes, w', htaken, hrun⟩ :=
    run_replicate n.kind n.localId n.intake key x.metadata (some x.payload) s
  obtain ⟨outcome, rfl, haccepted⟩ :=
    accepted_of_taken hconcurrent hsteady hseen hx hprogress htaken
  have hcommand : (x.command n.intake key).run (backend n.kind n.localId) s =
      (.outcome (.ok outcome), committed n.intake s.1 m' notes w' (.ok outcome)) := hrun
  rw [hcommand]
  exact ⟨outcome, rfl, haccepted⟩

/-- No delivery has failed or led to a conflict, and no other key has changed. -/
structure Receiver.Calm (n : Receiver α ω policy key) (deliveries : List (Update α)) : Prop where
  replies : ∀ reply ∈ (n.received deliveries).1, ∃ outcome, reply = .outcome (.ok outcome) ∧
    outcome.isConflict = false
  others : ∀ q, q ≠ key →
    (n.received deliveries).2.1.records.find? q = n.start.records.find? q

/-- Every run is calm, and what a decision keeps is true at its end. -/
theorem progress_received (n : Receiver α ω policy key)
    (hconcurrent : writes.Pairwise Update.Concurrent) (hsteady : Steady policy key writes I)
    {deliveries : List (Update α)} (hdelivered : ∀ x ∈ deliveries, x ∈ writes) :
    n.Calm deliveries ∧ Progress I key deliveries (n.received deliveries).2.1 := by
  -- on the deliveries so far: `Progress` is what the next one needs of the store they have left
  induction deliveries using List.reverseRecOn with
  | nil =>
    refine ⟨⟨?_, fun _ _ => rfl⟩, .none rfl n.absent⟩
    intro reply hreply
    cases hreply
  | append_singleton deliveries x ih =>
    have hseen : ∀ y ∈ deliveries, y ∈ writes :=
      fun y hy => hdelivered y (List.mem_append_left _ hy)
    have hx : x ∈ writes := hdelivered x (List.mem_append_right _ List.mem_cons_self)
    obtain ⟨hcalm, hprogress⟩ := ih hseen
    obtain ⟨outcome, hreply, haccepted⟩ := accepted_run n hconcurrent hsteady hseen hx hprogress
    rw [received_concat]
    refine ⟨⟨?_, ?_⟩, haccepted.progress⟩
    · intro reply hmem
      rw [received_concat, hreply, List.mem_append, List.mem_singleton] at hmem
      rcases hmem with hmem | rfl
      · exact hcalm.replies reply hmem
      · exact ⟨outcome, rfl, haccepted.calm⟩
    · intro q hq
      rw [received_concat, haccepted.others q hq, hcalm.others q hq]

/-- What the receiver holds under the key: the content and the identity it is stored under. -/
def Receiver.held (n : Receiver α ω policy key) (deliveries : List (Update α)) :
    Option (Content α × Option WriteId) :=
  ((n.received deliveries).2.1.records.find? key).map fun r => (r.content, r.metadata.identity)

/-- The receiver holds one of the deliveries with a payload of which `I` is true, or nothing if
nothing has been delivered. -/
theorem held_cases (n : Receiver α ω policy key) (hconcurrent : writes.Pairwise Update.Concurrent)
    (hsteady : Steady policy key writes I) {deliveries : List (Update α)}
    (hdelivered : ∀ x ∈ deliveries, x ∈ writes) :
    (deliveries = [] ∧ n.held deliveries = none) ∨
    ∃ x ∈ deliveries, ∃ a, I deliveries x a ∧ n.held deliveries = some (.data a, some x.id) := by
  obtain ⟨-, hprogress⟩ := progress_received n hconcurrent hsteady hdelivered
  cases hprogress with
  | none hnone habsent => exact .inl ⟨hnone, by simp [Receiver.held, habsent]⟩
  | @some winner a r hread hprevails hI =>
    have hheld : n.held deliveries = some (.data a, some winner.id) := by
      simp [Receiver.held, hread, hprevails.plain.content, hprevails.plain.identity]
    exact .inr ⟨winner, hprevails.heard, a, hI, hheld⟩

/-- Where `I` leaves no choice of `view`, it only depends on what has been delivered. -/
theorem view_held_congr {β : Type} (view : Content α × Option WriteId → β)
    (hconcurrent : writes.Pairwise Update.Concurrent) (hsteady : Steady policy key writes I)
    (n other : Receiver α ω policy key) {deliveries deliveries' : List (Update α)}
    (hdelivered : ∀ x ∈ deliveries, x ∈ writes)
    (hsame : ∀ x, x ∈ deliveries' ↔ x ∈ deliveries)
    (hunique : ∀ {x a y b}, x ∈ deliveries → I deliveries x a → y ∈ deliveries' →
      I deliveries' y b → view (.data b, some y.id) = view (.data a, some x.id)) :
    (other.held deliveries').map view = (n.held deliveries).map view := by
  have hdelivered' : ∀ x ∈ deliveries', x ∈ writes := fun x hx => hdelivered x ((hsame x).1 hx)
  -- of the same deliveries, either both receivers have had none or both have had some
  rcases held_cases n hconcurrent hsteady hdelivered with ⟨rfl, hheld⟩ | ⟨x, hx, a, hI, hheld⟩
  · rcases held_cases other hconcurrent hsteady hdelivered' with ⟨-, hheld'⟩ | ⟨y, hy, -⟩
    · rw [hheld, hheld']
    · exact absurd ((hsame y).1 hy) List.not_mem_nil
  · rcases held_cases other hconcurrent hsteady hdelivered' with
      ⟨rfl, -⟩ | ⟨y, hy, b, hI', hheld'⟩
    · exact absurd ((hsame x).2 hx) List.not_mem_nil
    · rw [hheld, hheld', Option.map_some, Option.map_some, hunique hx hI hy hI']

end ReplicaIntake.Memory
