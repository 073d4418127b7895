import ReplicaIntake.Proofs.Memory.Markers
import ReplicaIntake.Proofs.Memory.PlainRecords
import ReplicaIntake.Proofs.Policies

/-!
# Writes and what their lineages list

Let `R` relate what a lineage lists to the write that lists it, as being issued earlier does. If all
the data of a store has lineages like that and data like that is taken in, then this is still so
afterwards, unless a policy has decided between two writes and kept the identity of the wrong one:
the lineage that is stored then lists the other write (`sound_taken`).
-/

namespace ReplicaIntake.Memory

variable {α ω : Type} {kind : ItemKind} {localId key : String} {i : Intake α ω} {m m' : Memory α}
  {w w' : ω} {metadata : Metadata} {a : α} {existing : Record α} {id : WriteId} {max : Nat}
  {outcome : Outcome} {notes : List Notification} {issued : List WriteId}
  {R : WriteId → WriteId → Prop}

/-! ## §1 Metadata -/

/-- The metadata is that of a put with the identity `id`, which is one of those issued. What its
lineage lists is related to it by `R`. -/
structure Traced (issued : List WriteId) (R : WriteId → WriteId → Prop) (id : WriteId)
    (metadata : Metadata) : Prop where
  identity : metadata.identity = some id
  known : id ∈ issued
  related : ∀ e ∈ metadata.lineage, R e id
  live : metadata.deleted = false
  unmarked : (metadata.conflict && !metadata.conflictSide) = false

theorem traced_bounded (h : Traced issued R id metadata) (max : Nat) :
    Traced issued R id (metadata.bounded max) where
  identity := h.identity
  known := h.known
  related e he := h.related e (Metadata.mem_of_mem_bound he)
  live := h.live
  unmarked := h.unmarked

theorem traced_asConflictSide (h : Traced issued R id metadata) :
    Traced issued R id metadata.asConflictSide where
  identity := h.identity
  known := h.known
  related := h.related
  live := h.live
  unmarked := rfl

/-- A decision lists what both sides listed and the side that lost. -/
theorem traced_decided {winner loser : Metadata} (hwinner : Traced issued R id winner)
    (hlineage : ∀ e ∈ loser.lineage, R e id) (hidentity : ∀ e, loser.identity = some e → R e id)
    (max : Nat) :
    Traced issued R id
      { (winner.descendFromBoth loser).settled max with deleted := false } where
  identity := hwinner.identity
  known := hwinner.known
  related e he := by
    rcases Metadata.mem_of_mem_settled he with he | he | he
    · exact hwinner.related e he
    · exact hlineage e he
    · exact hidentity e he
  live := rfl
  unmarked := rfl

/-! ## §2 Records -/

/-- The record is traced data or a blank marker. -/
inductive Sound (issued : List WriteId) (R : WriteId → WriteId → Prop) (r : Record α) : Prop
  | data {id : WriteId} {a : α} (hdata : r.content = .data a)
      (htraced : Traced issued R id r.metadata)
  | marker {marker : Marker} (hmarker : r.content = .marker marker)
      (hsource : r.metadata.source = none) (hlineage : r.metadata.lineage = [])

/-- Every record of the store is sound. -/
def AllSound (issued : List WriteId) (R : WriteId → WriteId → Prop) (m : Memory α) : Prop :=
  EveryRecord (fun _ r => Sound issued R r) m

theorem isPlain_of_traced {r : Record α} (h : Traced issued R id r.metadata)
    (hdata : r.content = .data a) : r.IsPlain id a where
  content := hdata
  identity := h.identity
  unmarked := by simp [Record.isMarker, hdata, h.unmarked]
  live := h.live

theorem allSound_write (h : AllSound issued R m) (key : String) (a : α)
    (htraced : Traced issued R id metadata) :
    AllSound issued R (m.write key (.data a) metadata) :=
  everyRecord_write h key (.data rfl htraced)

/-- What is in conflict is kept as the sides of a blank marker. -/
theorem sound_contended {side : Metadata} {operation : Operation}
    {result : Except (IntakeError StoreError) Outcome} (h : AllSound issued R m)
    (hread : m.records.find? key = some existing) (hside : Traced issued R id side)
    (hcontended : Contended kind localId key side (some a) existing operation m result m' notes) :
    AllSound issued R m' := by
  have hwith : ∀ source, AllSound issued R (m.withSide key source side (some a)) :=
    fun source => allSound_write h _ a (traced_asConflictSide hside)
  cases hcontended with
  | noSource => exact h
  | collision => exact h
  | created _ _ hplain hm =>
    rw [hm]
    apply everyRecord_write
    · -- what was stored is the first side
      apply everyRecord_write (hwith _)
      cases h key existing hread with
      | data hdata htraced => exact .data hdata (traced_asConflictSide htraced)
      | marker hmarker => exact absurd hmarker (content_ne_marker hplain _)
    · exact .marker rfl rfl rfl
  | joined _ _ hmarker _ hm =>
    rw [hm]
    apply everyRecord_write (hwith _)
    cases h key existing hread with
    | data hdata => simp [hmarker] at hdata
    | marker _ hsource hlineage => exact .marker rfl hsource hlineage
  | rewritten => exact hwith _
  | flagged => exact hwith _

/-! ## §3 Taking in a put -/

/-- If what the key holds afterwards has the identity of one of two writes, the put `id` or another
one that was there, then the other of them is related to it. -/
def KeepsUpper (R : WriteId → WriteId → Prop) (key : String) (id : WriteId) (m m' : Memory α) :
    Prop :=
  ∀ stored current after kept, m.records.find? key = some stored →
    stored.metadata.identity = some current → current ≠ id → m'.records.find? key = some after →
    after.metadata.identity = some kept →
    (kept = id → R current id) ∧ (kept = current → R id current)

section Taking

variable (htrans : ∀ {x y z}, R x y → R y z → R x z)

include htrans

theorem sound_settled {incoming : Metadata} {resolution : Resolution α}
    (h : AllSound issued R m) (hread : m.records.find? key = some existing)
    (hincoming : Traced issued R id incoming)
    (hdifferent : existing.metadata.sameIdentity incoming = false)
    (hdecided : Resolver.Decided incoming (some a) existing (some resolution))
    (hsettled : Settled i kind key incoming existing m w resolution (.ok outcome) m' w')
    (hupper : outcome = .resolved → KeepsUpper R key id m m') : AllSound issued R m' := by
  cases h key existing hread with
  | marker hmarker hsource hlineage =>
    have hanonymous : existing.metadata.identity = none := by
      simp [Metadata.identity, hsource]
    cases hdecided with
    | replaced =>
      cases hsettled with
      | kept =>
        -- the marker has nothing to add
        apply everyRecord_eraseAll
        exact allSound_write h key _ (traced_decided hincoming (by simp [hlineage])
          (by simp [hanonymous]) _)
    | removed hpayload => cases hpayload
    | merged _ _ hdata => simp [hmarker] at hdata
    | retained hdata => simp [hmarker] at hdata
    | retainedDeletion htombstone => simp [hmarker] at htombstone
  | @data current b hdata htraced =>
    -- over data there are no sides to remove, and what is stored is one of two different writes
    have hsides : existing.sides = [] :=
      sides_of_plain (isPlain_of_traced htraced hdata).unmarked
    have hafter : ∀ (payload : α) (metadata : Metadata),
        ((m.write key (.data payload) metadata).eraseAll existing.sides).records.find? key =
          some ⟨.data payload, m.lastEtag.next, metadata⟩ := by
      intro payload metadata
      rw [hsides, find?_eraseAll, if_neg List.not_mem_nil, find?_write, if_pos rfl]
    have hne : current ≠ id := by
      rw [Metadata.sameIdentity_of_some hincoming.identity, htraced.identity] at hdifferent
      simpa using hdifferent
    -- what is kept is related to all that it lists, because it is the upper one of the two
    have hincomingWins : ∀ payload : α, R current id → AllSound issued R
        ((m.write key (.data payload)
          { (incoming.descendFromBoth existing.metadata).settled i.config.maxHistory with
            deleted := false }).eraseAll existing.sides) := by
      intro payload hbelow
      apply everyRecord_eraseAll
      apply allSound_write h key payload
      apply traced_decided hincoming
      · exact fun e he => htrans (htraced.related e he) hbelow
      · intro e he
        exact Option.some.inj (htraced.identity.symm.trans he) ▸ hbelow
    cases hdecided with
    | replaced =>
      cases hsettled with
      | kept =>
        exact hincomingWins _ ((hupper rfl existing current _ id hread htraced.identity hne
          (hafter _ _) hincoming.identity).1 rfl)
    | merged =>
      cases hsettled with
      | kept =>
        exact hincomingWins _ ((hupper rfl existing current _ id hread htraced.identity hne
          (hafter _ _) hincoming.identity).1 rfl)
    | retained =>
      cases hsettled with
      | kept =>
        have hbelow : R id current := (hupper rfl existing current _ current hread
          htraced.identity hne (hafter _ _) htraced.identity).2 rfl
        apply everyRecord_eraseAll
        apply allSound_write h key
        apply traced_decided htraced
        · exact fun e he => htrans (hincoming.related e he) hbelow
        · intro e he
          exact Option.some.inj (hincoming.identity.symm.trans he) ▸ hbelow
    | removed hpayload => cases hpayload
    | retainedDeletion htombstone => simp [hdata] at htombstone

theorem sound_met (hbuiltIn : i.resolver.BuiltIn) (h : AllSound issued R m)
    (hread : m.records.find? key = some existing) (hsent : Traced issued R id metadata)
    (hmet : Met i kind localId key m w metadata (some a) existing (.ok outcome) m' notes w')
    (hupper : outcome = .resolved → KeepsUpper R key id m m') : AllSound issued R m' := by
  have harrived : Traced issued R id (i.arrived metadata existing.metadata) := by
    rw [arrived_of_put i existing.metadata hsent.live]
    exact traced_bounded hsent _
  have hcarried : metadata.carried (some a) = some a := by
    simp [Metadata.carried, hsent.live]
  cases hmet with
  | replayed => exact h
  | merged hdelete => simp [hsent.live] at hdelete
  | overwritten => exact allSound_write h key _ harrived
  | deleted hdelete => simp [hsent.live] at hdelete
  | stale => exact h
  | settled hoffered hresolver hsettled =>
    rw [hcarried] at hresolver
    exact sound_settled htrans h hread harrived (different_of_unknown hoffered.unknown)
      (hbuiltIn.decided_of_ok hresolver) hsettled hupper
  | declined _ _ hcontended =>
    rw [hcarried] at hcontended
    exact sound_contended h hread harrived hcontended
  | disputed hdelete => simp [hsent.live] at hdelete

/-- Taking in traced data leaves every record sound, if a decision of the policy is kept as the
upper one of the two writes. -/
theorem sound_taken (hbuiltIn : i.resolver.BuiltIn) (h : AllSound issued R m)
    (hsent : Traced issued R id metadata)
    (htaken : Taken i kind localId key m w metadata (some a) (.ok outcome) m' notes w')
    (hupper : outcome = .resolved → KeepsUpper R key id m m') : AllSound issued R m' := by
  cases htaken with
  | created => exact allSound_write h key _ (traced_bounded hsent _)
  | ignored => exact h
  | met hread _ hmet => exact sound_met htrans hbuiltIn h hread hsent hmet hupper

end Taking

/-- A contradiction is found between two writes that have been issued and list each other. -/
theorem crossed_of_taken {violation : CausalityViolation} (h : AllSound issued R m)
    (hsent : Traced issued R id metadata)
    (htaken : Taken i kind localId key m w metadata (some a) (.error (.causality violation)) m'
      notes w') :
    ∃ current, violation = ⟨id, current⟩ ∧ current ∈ issued ∧ R current id ∧ R id current := by
  cases htaken with
  | @met existing _ _ _ _ hread _ hmet =>
    cases h key existing hread with
    | marker hmarker =>
      -- a marker is not compared by ancestry
      cases hmet with
      | contradicted hcompared => exact absurd hmarker (content_ne_marker hcompared.plain _)
      | settled _ _ hsettled => cases hsettled
      | declined _ _ hcontended => cases hcontended
      | disputed _ _ _ hcontended => cases hcontended
    | @data current b hdata htraced =>
      have hplain := isPlain_of_traced htraced hdata
      cases weighed_of_met hplain hsent.live hsent.identity hmet with
      | crossed _ hlists hlisted =>
        exact ⟨current, rfl, htraced.known, hsent.related _ (Metadata.mem_of_mem_bound hlists),
          htraced.related id hlisted⟩
      | settled _ _ _ _ hsettled => cases hsettled
      | declined _ _ hcontended => cases hcontended

end ReplicaIntake.Memory
