import ReplicaIntake.Proofs.Memory.ConcurrentPuts
import ReplicaIntake.Proofs.Memory.Families

/-!
# Two puts in either order

Two puts of one key reach two fresh stores that have no policy, in one order and in the other. What
happens at each store depends on how the second put is related to the first (`taken_after`), and
that is decided by which of the two lineages lists the other put, whichever comes first. So the
stores agree in the end (`either_order_agrees`): on one of the puts, on the sides of a conflict, or
on the contradiction between the two lineages.
-/

namespace ReplicaIntake.Memory

open ShadowKey (make)

variable {α ω : Type} {kind : ItemKind} {localId key : String} {i : Intake α ω} {m m' : Memory α}
  {w w' : ω} {x y : Update α} {max : Nat}

/-! ## §1 What two puts leave -/

/-- The put as it is stored. -/
def Update.stored (x : Update α) (max : Nat) (etag : Etag) : Record α :=
  ⟨.data x.payload, etag, x.metadata.bounded max⟩

/-- The put as it is stored as one side of a conflict. -/
def Update.side (x : Update α) (max : Nat) (etag : Etag) : Record α :=
  ⟨.data x.payload, etag, (x.metadata.bounded max).asConflictSide⟩

/-- The store holds the put and no other record, so no shadow either. -/
structure HoldsOnly (max : Nat) (key : String) (x : Update α) (m : Memory α) : Prop where
  held : ∃ etag, m.records.find? key = some (x.stored max etag)
  alone : ∀ q, q ≠ key → m.records.find? q = none

/-- The store holds a conflict of the two puts, of which `x` came first, and no other record. -/
structure HoldsBoth (max : Nat) (localId key : String) (x y : Update α) (m : Memory α) : Prop where
  marker : ∃ etag metadata, m.records.find? key =
    some ⟨.marker ⟨[make key localId, make key y.id.source]⟩, etag, metadata⟩
  first : ∃ etag, m.records.find? (make key localId) = some (x.side max etag)
  second : ∃ etag, m.records.find? (make key y.id.source) = some (y.side max etag)
  alone : ∀ q, q ≠ key → q ≠ make key localId → q ≠ make key y.id.source →
    m.records.find? q = none

/-- The metadata and data of the sides that the record under `key` lists. -/
def sidesUnder (m : Memory α) (key : String) : List (Metadata × Option α) :=
  (m.sidesAt key).filterMap fun shadow =>
    (m.records.find? shadow).map fun side => (side.metadata, side.data?)

/-- The put as a side, without its etag. -/
def Update.asSide (x : Update α) (max : Nat) : Metadata × Option α :=
  ((x.metadata.bounded max).asConflictSide, some x.payload)

theorem sidesUnder_of_holdsBoth (h : HoldsBoth max localId key x y m) :
    m.sidesUnder key = [x.asSide max, y.asSide max] := by
  obtain ⟨etag, metadata, hread⟩ := h.marker
  obtain ⟨_, hfirst⟩ := h.first
  obtain ⟨_, hsecond⟩ := h.second
  rw [sidesUnder, sidesAt_of_read hread, sides_of_content rfl]
  simp only [List.filterMap_cons, List.filterMap_nil, hfirst, hsecond, Option.map_some]
  rfl

/-- What the second of two puts leads to, according to its relation to the first: the replies to
both and the store. -/
inductive TakenAfter (max : Nat) (localId key : String) (x y : Update α) :
    Except CausalityViolation Ancestry → List (Reply α) → Memory α → Prop
  | same {m : Memory α} (hm : HoldsOnly max key x m) :
    TakenAfter max localId key x y (.ok .same)
      [.outcome (.ok .created), .outcome (.ok .replayed)] m
  | descendant {m : Memory α} (hm : HoldsOnly max key y m) :
    TakenAfter max localId key x y (.ok .descendant)
      [.outcome (.ok .created), .outcome (.ok .overwritten)] m
  | ancestor {m : Memory α} (hm : HoldsOnly max key x m) :
    TakenAfter max localId key x y (.ok .ancestor)
      [.outcome (.ok .created), .outcome (.ok .stale)] m
  | concurrent {m : Memory α} (summary : ConflictSummary) (hm : HoldsBoth max localId key x y m) :
    TakenAfter max localId key x y (.ok .concurrent)
      [.outcome (.ok .created), .outcome (.ok (.conflict summary true))] m
  | contradicted {m : Memory α} (hm : HoldsOnly max key x m) :
    TakenAfter max localId key x y (.error ⟨y.id, x.id⟩)
      [.outcome (.ok .created), .outcome (.error (.causality ⟨y.id, x.id⟩))] m

/-! ## §2 One store -/

theorem stored_isPlain (x : Update α) (max : Nat) (etag : Etag) :
    (x.stored max etag).IsPlain x.id x.payload where
  content := rfl
  identity := x.identified
  unmarked := isMarker_of_unflagged (some x.payload) etag x.unflagged
  live := x.isPut

theorem holdsOnly_write (x : Update α) (halone : ∀ q, q ≠ key → m.records.find? q = none) :
    HoldsOnly max key x (m.write key (.data x.payload) (x.metadata.bounded max)) where
  held := ⟨m.lastEtag.next, find?_write .. |>.trans (if_pos rfl)⟩
  alone q hq := (find?_write_ne hq ..).trans (halone q hq)

/-- A put of another node makes a conflict of a put that is stored alone. -/
theorem holdsBoth_create (h : HoldsOnly max key x m) (hforeign : y.id.source ≠ localId)
    (etag : Etag) :
    HoldsBoth max localId key x y
      ((m.withSide key y.id.source (y.metadata.bounded max) (some y.payload)).withConflict key
        (make key y.id.source) (make key localId) (x.stored max etag)) := by
  have hne : make key y.id.source ≠ make key localId := make_ne_of_ne hforeign
  have hprimary := fun d => ShadowKey.make_ne_primary key d
  constructor
  · exact ⟨_, _, by rw [find?_withConflict, if_pos rfl, shadows_pair hne.symm]⟩
  · exact ⟨_, by rw [find?_withConflict, if_neg (hprimary localId), if_pos rfl]; rfl⟩
  · refine ⟨m.lastEtag.next, ?_⟩
    rw [find?_withConflict, if_neg (hprimary _), if_neg hne, find?_withSide, if_pos rfl]
    rfl
  · intro q hkey hlocal hsource
    rw [find?_withConflict, if_neg hkey, if_neg hlocal, find?_withSide, if_neg hsource,
      h.alone q hkey]

/-- A put that contends with one that is stored alone makes a conflict of it, unless it is of this
node. -/
theorem holdsBoth_of_contended (hforeign : y.id.source ≠ localId) {etag : Etag}
    (h : HoldsOnly max key x m) {result : Except (IntakeError StoreError) Outcome}
    {notes : List Notification}
    (hcontended : Contended kind localId key (y.metadata.bounded max) (some y.payload)
      (x.stored max etag) .put m result m' notes) :
    ∃ summary, result = .ok (.conflict summary true) ∧ HoldsBoth max localId key x y m' := by
  have hid : (y.metadata.bounded max).identity = some y.id := y.identified
  have hsource := Metadata.source_of_identity hid
  have hplain := (stored_isPlain x max etag).unmarked
  cases hcontended with
  | noSource hnone => simp [hsource] at hnone
  | collision hlocal => exact absurd (Option.some.inj (hsource.symm.trans hlocal)) hforeign
  | created hsource' _ _ hm _ =>
    obtain rfl := Option.some.inj (hsource.symm.trans hsource')
    exact ⟨_, rfl, hm ▸ holdsBoth_create h hforeign etag⟩
  | joined _ _ hmarker _ _ => exact absurd hmarker (content_ne_marker hplain _)
  | rewritten _ _ hmarker _ => exact absurd hmarker (content_ne_marker hplain _)
  | flagged _ _ hflag _ => simp [hplain] at hflag

/-- What a store without a policy makes of a second put. -/
theorem takenAfter_of_met (hresolver : i.resolver = Resolver.chain [])
    (hforeign : y.id.source ≠ localId) (hmax : i.config.maxHistory = max) {etag : Etag}
    (h : HoldsOnly max key x m) {result : Except (IntakeError StoreError) Outcome}
    {notes : List Notification}
    (hmet : Met i kind localId key m w y.metadata (some y.payload) (x.stored max etag) result m'
      notes w') :
    TakenAfter max localId key x y
      ((y.metadata.bounded max).checkAncestry (x.metadata.bounded max))
      [.outcome (.ok .created), .outcome result] (committed i m m' notes w' result).1 := by
  have hplain := stored_isPlain x max etag
  have harrived : i.arrived y.metadata (x.stored max etag).metadata = y.metadata.bounded max := by
    rw [arrived_of_put i _ y.isPut, hmax]
  have hcarried := Metadata.carried_of_put y.isPut (some y.payload)
  have hoperation := Metadata.operation_of_put y.isPut
  have hid : (y.metadata.bounded max).identity = some y.id := y.identified
  have hcurrent : (x.metadata.bounded max).identity = some x.id := x.identified
  have hknows : m.knows (x.stored max etag) (y.metadata.bounded max) = true ↔ y.id = x.id := by
    have hlive : (y.metadata.bounded max).deleted = false := y.isPut
    rw [knows_of_isPlain hplain hid, hlive]
    simp
  by_cases hsame : y.id = x.id
  · -- the same write once more
    obtain ⟨rfl, rfl, -, -⟩ := met_of_known (harrived ▸ hknows.2 hsame) hmet
    rw [Metadata.checkAncestry_of_same (hsame ▸ hid) hcurrent]
    exact .same h
  · have hcompared : Compared i m y.metadata (x.stored max etag) := by
      refine ⟨?_, hplain.unmarked, by simp [y.isPut]⟩
      rw [harrived, Bool.eq_false_iff, Ne, hknows]
      exact hsame
    -- the comparison leads to a case each
    cases hcheck : (y.metadata.bounded max).checkAncestry (x.metadata.bounded max) with
    | error violation =>
      obtain ⟨rfl, -⟩ := (Metadata.checkAncestry_error_iff hid hcurrent hsame).1 hcheck
      obtain ⟨rfl, rfl, -, -⟩ := met_of_contradiction hcompared (harrived ▸ hcheck) hmet
      exact .contradicted h
    | ok ancestry =>
      cases ancestry with
      | same => exact absurd (Metadata.eq_of_checkAncestry_same hid hcurrent hcheck) hsame
      | descendant =>
        obtain ⟨rfl, rfl, -, -⟩ := met_of_descendant hcompared (harrived ▸ hcheck) hmet
        rw [harrived, hcarried, y.isPut]
        exact .descendant (holdsOnly_write y h.alone)
      | ancestor =>
        obtain ⟨rfl, rfl, -, -⟩ := met_of_ancestor hcompared (harrived ▸ hcheck) hmet
        exact .ancestor h
      | concurrent =>
        obtain ⟨-, hcontended⟩ := met_of_concurrent hresolver hcompared (harrived ▸ hcheck) hmet
        rw [harrived, hcarried, hoperation] at hcontended
        obtain ⟨summary, rfl, hboth⟩ := holdsBoth_of_contended hforeign h hcontended
        exact .concurrent summary hboth

/-- A fresh store that takes in two puts. -/
theorem taken_after (kind : ItemKind) (localId key : String) {i : Intake α ω} (w : ω)
    (x y : Update α) (hresolver : i.resolver = Resolver.chain [])
    (hforeign : y.id.source ≠ localId) (hmax : i.config.maxHistory = max) :
    TakenAfter max localId key x y
      ((y.metadata.bounded max).checkAncestry (x.metadata.bounded max))
      (Command.runAll (backend kind localId) [x.command i key, y.command i key] ({}, w)).1
      (Command.runAll (backend kind localId) [x.command i key, y.command i key] ({}, w)).2.1 := by
  have hfirst : (x.command i key).run (backend kind localId) (({} : Memory α), w) = _ :=
    run_of_absent kind localId i x.payload rfl x.isPut (by simp [x.identified])
  have honly : HoldsOnly max key x (({} : Memory α).write key (.data x.payload)
      (x.metadata.bounded i.config.maxHistory)) := by
    rw [hmax]
    exact holdsOnly_write x fun _ _ => rfl
  generalize ({} : Memory α).write key (.data x.payload)
    (x.metadata.bounded i.config.maxHistory) = m at hfirst honly
  -- the second put meets the first one
  obtain ⟨etag, hread⟩ := honly.held
  obtain ⟨result, m', notes, w', htaken, hsecond⟩ :=
    run_replicate kind localId i key y.metadata (some y.payload) (m, w)
  have hmet := taken_of_read hread (by simp [y.identified]) (by simp) htaken
  have hsecond : (y.command i key).run (backend kind localId) (m, w) =
      (.outcome result, committed i m m' notes w' result) := hsecond
  simp only [Command.runAll, hfirst, hsecond]
  exact takenAfter_of_met hresolver hforeign hmax honly hmet

/-! ## §3 Two stores -/

/-- What one store has made of `a` and then `b`, and another one of `b` and then `a`. What counts of
a lineage are its newest `max` entries. -/
inductive Agree (max : Nat) (localId localId' key : String) (a b : Update α)
    (left right : List (Reply α) × (Memory α × ω)) : Prop
  /-- Both stores hold the put `x` alone, which is the other one, or was made on top of it. -/
  | one {x y : Update α} (hputs : x = a ∧ y = b ∨ x = b ∧ y = a)
      (hover : x = y ∨
        x.id ≠ y.id ∧ y.id ∈ x.metadata.lineage.bound max ∧ x.id ∉ y.metadata.lineage.bound max)
      (hreplies : ∀ reply ∈ left.1 ++ right.1, ∃ outcome, reply = .outcome (.ok outcome))
      (hleft : HoldsOnly max key x left.2.1) (hright : HoldsOnly max key x right.2.1)
  /-- Neither put lists the other one. Both stores hold a conflict, and its sides are the same. -/
  | both (hne : a.id ≠ b.id) (hunlisted : a.id ∉ b.metadata.lineage.bound max)
      (hunlisted' : b.id ∉ a.metadata.lineage.bound max)
      (hleft : HoldsBoth max localId key a b left.2.1)
      (hright : HoldsBoth max localId' key b a right.2.1)
      (hsides : (left.2.1.sidesUnder key).Perm (right.2.1.sidesUnder key))
  /-- Each put lists the other one. Both stores refuse the second put and keep the first. -/
  | contradicted (hne : a.id ≠ b.id) (hlisted : a.id ∈ b.metadata.lineage.bound max)
      (hlisted' : b.id ∈ a.metadata.lineage.bound max)
      (hreply : left.1 =
        [.outcome (.ok .created), .outcome (.error (.causality ⟨b.id, a.id⟩))])
      (hreply' : right.1 =
        [.outcome (.ok .created), .outcome (.error (.causality ⟨a.id, b.id⟩))])
      (hleft : HoldsOnly max key a left.2.1) (hright : HoldsOnly max key b right.2.1)

/-- Two different puts, of which each store has taken in the other one second. -/
theorem agree_of_ne {a b : Update α} (hne : a.id ≠ b.id) {localId' : String}
    {left right : List (Reply α) × (Memory α × ω)}
    (hleft : TakenAfter max localId key a b
      ((b.metadata.bounded max).checkAncestry (a.metadata.bounded max)) left.1 left.2.1)
    (hright : TakenAfter max localId' key b a
      ((a.metadata.bounded max).checkAncestry (b.metadata.bounded max)) right.1 right.2.1) :
    Agree max localId localId' key a b left right := by
  obtain ⟨replies, m, w⟩ := left
  obtain ⟨replies', m', w'⟩ := right
  have ha : (a.metadata.bounded max).identity = some a.id := a.identified
  have hb : (b.metadata.bounded max).identity = some b.id := b.identified
  -- both stores decide by which of the two lineages lists the other put
  rw [Metadata.checkAncestry_of_ne hb ha hne.symm] at hleft
  rw [Metadata.checkAncestry_of_ne ha hb hne] at hright
  by_cases hab : a.id ∈ (b.metadata.bounded max).lineage <;>
    by_cases hba : b.id ∈ (a.metadata.bounded max).lineage
  · -- each was made on top of the other
    rw [if_pos hab, if_pos hba] at hleft
    rw [if_pos hba, if_pos hab] at hright
    cases hleft with
    | contradicted hm =>
      cases hright with
      | contradicted hm' => exact .contradicted hne hab hba rfl rfl hm hm'
  · -- `b` was made on top of `a`
    rw [if_pos hab, if_neg hba] at hleft
    rw [if_neg hba, if_pos hab] at hright
    cases hleft with
    | descendant hm =>
      cases hright with
      | ancestor hm' =>
        exact .one (.inr ⟨rfl, rfl⟩) (.inr ⟨hne.symm, hab, hba⟩) (by simp) hm hm'
  · -- `a` was made on top of `b`
    rw [if_neg hab, if_pos hba] at hleft
    rw [if_pos hba, if_neg hab] at hright
    cases hleft with
    | ancestor hm =>
      cases hright with
      | descendant hm' => exact .one (.inl ⟨rfl, rfl⟩) (.inr ⟨hne, hba, hab⟩) (by simp) hm hm'
  · -- the two were made apart
    rw [if_neg hab, if_neg hba] at hleft
    rw [if_neg hba, if_neg hab] at hright
    cases hleft with
    | concurrent _ hm =>
      cases hright with
      | concurrent _ hm' =>
        refine .both hne hab hba hm hm' ?_
        rw [sidesUnder_of_holdsBoth hm, sidesUnder_of_holdsBoth hm']
        exact .swap _ _ _

/-- The same put taken in twice by either store. -/
theorem agree_self {a : Update α} {localId' : String}
    {left right : List (Reply α) × (Memory α × ω)}
    (hleft : TakenAfter max localId key a a
      ((a.metadata.bounded max).checkAncestry (a.metadata.bounded max)) left.1 left.2.1)
    (hright : TakenAfter max localId' key a a
      ((a.metadata.bounded max).checkAncestry (a.metadata.bounded max)) right.1 right.2.1) :
    Agree max localId localId' key a a left right := by
  obtain ⟨replies, m, w⟩ := left
  obtain ⟨replies', m', w'⟩ := right
  have ha : (a.metadata.bounded max).identity = some a.id := a.identified
  rw [Metadata.checkAncestry_of_same ha ha] at hleft hright
  cases hleft with
  | same hm =>
    cases hright with
    | same hm' => exact .one (.inl ⟨rfl, rfl⟩) (.inl rfl) (by simp) hm hm'

/-- Two puts, which have one identity only if they are the same, reach two fresh stores without a
policy in one order and in the other. Then the stores agree, whatever the puts list and however
short lineages are bounded. -/
theorem either_order_agrees (kind kind' : ItemKind) {localId localId' : String} (key : String)
    {i i' : Intake α ω} (w w' : ω) {a b : Update α} (hsame : a.id = b.id → a = b)
    (hresolver : i.resolver = Resolver.chain []) (hresolver' : i'.resolver = Resolver.chain [])
    {max : Nat} (hmax : i.config.maxHistory = max) (hmax' : i'.config.maxHistory = max)
    (hforeign : b.id.source ≠ localId) (hforeign' : a.id.source ≠ localId') :
    Agree max localId localId' key a b
      (Command.runAll (backend kind localId) [a.command i key, b.command i key] ({}, w))
      (Command.runAll (backend kind' localId') [b.command i' key, a.command i' key] ({}, w')) := by
  have hleft := taken_after kind localId key w a b hresolver hforeign hmax
  have hright := taken_after kind' localId' key w' b a hresolver' hforeign' hmax'
  by_cases hne : a.id = b.id
  · obtain rfl := hsame hne
    exact agree_self hleft hright
  · exact agree_of_ne hne hleft hright

/-- A put of `a` that lists one of `b`. -/
def putListingB : Update String where
  id := ⟨"a", 1⟩
  metadata := { Metadata.ofId "a" 1 with lineage := [⟨"b", 1⟩] }
  payload := "a1"
  identified := rfl
  isPut := rfl
  unflagged := rfl

/-- The put of `b`, which lists the one of `a` in turn, and one of `c` as its newest entry. -/
def putListingA : Update String where
  id := ⟨"b", 1⟩
  metadata := { Metadata.ofId "b" 1 with lineage := [⟨"a", 1⟩, ⟨"c", 1⟩] }
  payload := "b1"
  identified := rfl
  isPut := rfl
  unflagged := rfl

/-- Two puts that each list the other are taken in, in either order, when the bound leaves only one
entry: that of `c`. -/
theorem crossing_puts_agree :
    Agree 1 "L" "M" "k" putListingB putListingA
      (Command.runAll (backend .document "L")
        [putListingB.command { config := ⟨1⟩ } "k", putListingA.command { config := ⟨1⟩ } "k"]
        ({}, ()))
      (Command.runAll (backend .document "M")
        [putListingA.command { config := ⟨1⟩ } "k", putListingB.command { config := ⟨1⟩ } "k"]
        ({}, ())) := by
  have hdifferent : putListingB.id = putListingA.id → putListingB = putListingA := by
    intro hsame
    exact absurd hsame (by decide)
  exact either_order_agrees .document .document "k" () () hdifferent rfl rfl rfl rfl (by decide)
    (by decide)

end ReplicaIntake.Memory
