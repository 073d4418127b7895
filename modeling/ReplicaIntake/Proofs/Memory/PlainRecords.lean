import ReplicaIntake.Proofs.Memory.Taking

/-!
# Puts over plain records

A plain record is data under an identity, which is not deleted and stands for no conflict. A put
that meets one is the same write, or the two writes are looked up in each other's lineage; only when
neither is found is the policy asked. `Weighed` lists these ways out with the look-ups as their
conditions.
-/

namespace ReplicaIntake

variable {α ω : Type}

/-- The record is the data `a`, written as `id`. It is not deleted and stands for no conflict. -/
structure Record.IsPlain (r : Record α) (id : WriteId) (a : α) : Prop where
  content : r.content = .data a
  identity : r.metadata.identity = some id
  unmarked : r.isMarker = false
  live : r.metadata.deleted = false

namespace Memory

variable {kind : ItemKind} {localId key : String} {i : Intake α ω} {m m' : Memory α} {w w' : ω}
  {metadata : Metadata} {r : Record α} {id current : WriteId} {a b : α}
  {result : Except (IntakeError StoreError) Outcome} {notes : List Notification}

/-! ## §1 Plain records -/

/-- A plain record knows itself, and the deletions that its lineage covers. -/
theorem knows_of_isPlain (h : r.IsPlain current b) {arrived : Metadata}
    (hid : arrived.identity = some id) :
    m.knows r arrived = true ↔
      id = current ∨ arrived.deleted = true ∧ r.metadata.lineage.covers id = true := by
  have hsame : r.metadata.sameIdentity arrived = decide (id = current) := by
    rw [Metadata.sameIdentity_of_some hid, h.identity]
    by_cases heq : id = current
    · simp [heq]
    · simp [heq, Ne.symm heq]
  have hsides : m.holdsSide r arrived = false := by
    simp [holdsSide, sides_of_plain h.unmarked]
  simp [knows, hsame, hsides, hid]

/-! ## §2 Puts -/

/-- What taking in a put of `a` as `id` can lead to over a plain record that was written as
`current`. -/
inductive Weighed (i : Intake α ω) (kind : ItemKind) (localId key : String) (m : Memory α) (w : ω)
    (metadata : Metadata) (id : WriteId) (a : α) (r : Record α) (current : WriteId) :
    Except (IntakeError StoreError) Outcome → Memory α → List Notification → ω → Prop
  | same (hsame : id = current) :
    Weighed i kind localId key m w metadata id a r current (.ok .replayed) m [] w
  /-- Each of the two lineages lists the other write. -/
  | crossed (hne : id ≠ current) (hlists : current ∈ metadata.lineage.bound i.config.maxHistory)
      (hlisted : id ∈ r.metadata.lineage) :
    Weighed i kind localId key m w metadata id a r current
      (.error (.causality ⟨id, current⟩)) m [] w
  /-- Only the put lists the record, and replaces it. -/
  | descended (hne : id ≠ current) (hlists : current ∈ metadata.lineage.bound i.config.maxHistory)
      (hunlisted : id ∉ r.metadata.lineage) :
    Weighed i kind localId key m w metadata id a r current (.ok .overwritten)
      (m.write key (.data a) (metadata.bounded i.config.maxHistory)) [] w
  /-- Only the record lists the put. -/
  | preceded (hne : id ≠ current) (hlists : current ∉ metadata.lineage.bound i.config.maxHistory)
      (hlisted : id ∈ r.metadata.lineage) :
    Weighed i kind localId key m w metadata id a r current (.ok .stale) m [] w
  | undecided {reason : String} (hne : id ≠ current)
      (hresolver : i.resolver key (metadata.bounded i.config.maxHistory) (some a) r =
        .error reason) :
    Weighed i kind localId key m w metadata id a r current (.error (.resolver reason)) m [] w
  /-- Neither lists the other, and the policy decides. -/
  | settled {resolution : Resolution α} {result : Except (IntakeError StoreError) Outcome}
      {m' : Memory α} {w' : ω} (hne : id ≠ current)
      (hlists : current ∉ metadata.lineage.bound i.config.maxHistory)
      (hunlisted : id ∉ r.metadata.lineage)
      (hresolver : i.resolver key (metadata.bounded i.config.maxHistory) (some a) r =
        .ok (some resolution))
      (hsettled : Settled i kind key (metadata.bounded i.config.maxHistory) r m w resolution result
        m' w') :
    Weighed i kind localId key m w metadata id a r current result m' [] w'
  /-- Neither lists the other, and the policy declines. -/
  | declined {result : Except (IntakeError StoreError) Outcome} {m' : Memory α}
      {notes : List Notification} (hne : id ≠ current)
      (hresolver : i.resolver key (metadata.bounded i.config.maxHistory) (some a) r = .ok none)
      (hcontended : Contended kind localId key (metadata.bounded i.config.maxHistory) (some a) r
        .put m result m' notes) :
    Weighed i kind localId key m w metadata id a r current result m' notes w

/-- A put that meets a plain record goes one of the ways of `Weighed`. -/
theorem weighed_of_met (h : r.IsPlain current b) (hput : metadata.deleted = false)
    (hid : metadata.identity = some id)
    (hmet : Met i kind localId key m w metadata (some a) r result m' notes w') :
    Weighed i kind localId key m w metadata id a r current result m' notes w' := by
  have harrived : i.arrived metadata r.metadata = metadata.bounded i.config.maxHistory :=
    arrived_of_put i r.metadata hput
  have hcarried := Metadata.carried_of_put hput (some a)
  have hoperation := Metadata.operation_of_put hput
  have hbounded : (metadata.bounded i.config.maxHistory).identity = some id := hid
  have hknows : m.knows r (metadata.bounded i.config.maxHistory) = true ↔ id = current := by
    have hlive : (metadata.bounded i.config.maxHistory).deleted = false := hput
    rw [knows_of_isPlain h hbounded, hlive]
    simp
  have hne : m.knows r (metadata.bounded i.config.maxHistory) = false → id ≠ current := by
    intro hunknown hsame
    rw [hknows.2 hsame] at hunknown
    cases hunknown
  have hconcurrent : Offered i m metadata r → id ≠ current ∧
      current ∉ metadata.lineage.bound i.config.maxHistory ∧ id ∉ r.metadata.lineage := by
    rintro (⟨hcompared, hancestry⟩ | ⟨-, -, hmarker⟩)
    · have hdifferent := hne (harrived ▸ hcompared.unknown)
      rw [harrived, Metadata.checkAncestry_concurrent_iff hbounded h.identity hdifferent]
        at hancestry
      exact ⟨hdifferent, hancestry⟩
    · simp [h.unmarked] at hmarker
  -- what is known is the same write, and different writes are looked up in each other's lineage
  cases hmet with
  | replayed hknown => exact .same (hknows.1 (harrived ▸ hknown))
  | merged hdelete => simp [hput] at hdelete
  | contradicted hcompared hviolation =>
    have hdifferent := hne (harrived ▸ hcompared.unknown)
    rw [harrived, Metadata.checkAncestry_error_iff hbounded h.identity hdifferent] at hviolation
    obtain ⟨rfl, hlists, hlisted⟩ := hviolation
    exact .crossed hdifferent hlists hlisted
  | overwritten _ hpayload hcompared hancestry =>
    obtain rfl := Option.some.inj hpayload
    have hdifferent := hne (harrived ▸ hcompared.unknown)
    rw [harrived] at hancestry ⊢
    rw [Metadata.checkAncestry_descendant_iff hbounded h.identity hdifferent] at hancestry
    exact .descended hdifferent hancestry.1 hancestry.2
  | deleted hdelete => simp [hput] at hdelete
  | stale hcompared hancestry =>
    have hdifferent := hne (harrived ▸ hcompared.unknown)
    rw [harrived, Metadata.checkAncestry_ancestor_iff hbounded h.identity hdifferent] at hancestry
    exact .preceded hdifferent hancestry.1 hancestry.2
  | undecided hoffered hresolver =>
    rw [harrived, hcarried] at hresolver
    exact .undecided (hconcurrent hoffered).1 hresolver
  | settled hoffered hresolver hsettled =>
    obtain ⟨hdifferent, hlists, hunlisted⟩ := hconcurrent hoffered
    rw [harrived] at hresolver hsettled
    rw [hcarried] at hresolver
    exact .settled hdifferent hlists hunlisted hresolver hsettled
  | declined hoffered hresolver hcontended =>
    rw [harrived, hcarried] at hresolver hcontended
    rw [hoperation] at hcontended
    exact .declined (hconcurrent hoffered).1 hresolver hcontended
  | disputed hdelete => simp [hput] at hdelete

end Memory

end ReplicaIntake
