import ReplicaIntake.Proofs.Memory.Families
import ReplicaIntake.Proofs.Memory.Resolutions

/-!
# The sides of a conflict are different writes

A write becomes a side of a conflict only if no side knows it, so no two sides have the same
identity (`Apart`). Whatever their lineages repeat, a resolution lists no write twice then
(`nodup_resolutionOf`): their lineages are united, and the sides themselves are appended once.

The sides of a conflict are found under the shadow keys of one family, and no use of another family
touches those, so this holds after every history of admissible uses (`distinct_runAll`).
-/

namespace ReplicaIntake

/-! ## §1 Lineages of resolutions -/

/-- Lineages that are united one after the other have no repetitions. -/
theorem Lineage.nodup_foldl_union (lineages : List Lineage) :
    ∀ {l : Lineage}, l.Nodup → (lineages.foldl (fun l newer => Lineage.union newer l) l).Nodup := by
  induction lineages with
  | nil => exact fun h => h
  | cons newer rest ih => exact fun {l} _ => ih (Lineage.nodup_union newer l)

theorem Backend.nodup_resolvedLineage {sides : List Metadata}
    (h : (sides.filterMap (·.identity)).Nodup) : (resolvedLineage sides).Nodup := by
  refine Lineage.nodup_withNewest ?_ h
  have hunited := Lineage.nodup_foldl_union (sides.map (·.lineage)) List.nodup_nil
  rwa [List.foldl_map] at hunited

namespace Memory

open ShadowKey (IsDiscriminator make)

variable {α ω : Type} {kind : ItemKind} {localId key : String} {i : Intake α ω} {m m' : Memory α}
  {w w' : ω} {metadata : Metadata} {payload : Option α} {existing : Record α} {outcome : Outcome}
  {notes : List Notification}

/-! ## §2 Identities under shadow keys -/

/-- The identity of the record under a key, if there is one. -/
def identityAt (m : Memory α) (q : String) : Option WriteId :=
  (m.records.find? q).bind (·.metadata.identity)

/-- No two shadow keys of `key` hold the same write. -/
def Apart (m : Memory α) (key : String) : Prop :=
  ∀ d d' id, IsDiscriminator d → IsDiscriminator d' → m.identityAt (make key d) = some id →
    m.identityAt (make key d') = some id → d = d'

/-- What is stored under the shadow keys afterwards was there before, under the same ones. -/
theorem apart_of_imp (h : Apart m key)
    (hbefore : ∀ d id, IsDiscriminator d → m'.identityAt (make key d) = some id →
      m.identityAt (make key d) = some id) : Apart m' key := by
  intro d d' id hd hd' hid hid'
  exact h d d' id hd hd' (hbefore d id hd hid) (hbefore d' id hd' hid')

theorem identityAt_of_eraseAll {keys : List String} {q : String} {id : WriteId}
    (h : (m.eraseAll keys).identityAt q = some id) : m.identityAt q = some id := by
  rw [identityAt, find?_eraseAll] at h
  split at h
  · cases h
  · exact h

/-- What is written under the key itself does not concern the shadow keys. -/
theorem identityAt_write_key (content : Content α) (metadata : Metadata) (d : String) :
    (m.write key content metadata).identityAt (make key d) = m.identityAt (make key d) := by
  rw [identityAt, find?_write, if_neg (ShadowKey.make_ne_primary key d)]
  rfl

theorem apart_write_key (h : Apart m key) (content : Content α) (metadata : Metadata) :
    Apart (m.write key content metadata) key :=
  apart_of_imp h fun d _ _ hid => by rwa [identityAt_write_key] at hid

theorem apart_eraseAll (h : Apart m key) (keys : List String) : Apart (m.eraseAll keys) key :=
  apart_of_imp h fun _ _ _ => identityAt_of_eraseAll

theorem apart_versioned (h : Apart m key) : Apart m.versioned key := h

/-- A change within one family does not concern the shadow keys of another one. -/
theorem apart_of_within {other : String} (hkey : IsPrimary key) (hother : IsPrimary other)
    (hne : other ≠ key) (hwithin : Within key m m') (h : Apart m other) : Apart m' other := by
  refine apart_of_imp h fun d id hd hid => ?_
  have hsame : m'.records.find? (make other d) = m.records.find? (make other d) := by
    apply hwithin
    · exact (hkey.ne_shadow hother.nonempty hd).symm
    · intro d' hd' hmake
      exact hne ((ShadowKey.make_inj hother.nonempty hkey.nonempty hd hd').1 hmake).1
  rwa [identityAt, hsame] at hid

/-! ## §3 New sides -/

theorem identityAt_write_shadow (content : Content α) (stored : Metadata) (d₀ d : String) :
    (m.write (make key d₀) content stored).identityAt (make key d) =
      if d = d₀ then stored.identity else m.identityAt (make key d) := by
  rw [identityAt, find?_write]
  by_cases hd : d = d₀
  · rw [if_pos hd, if_pos (by rw [hd])]
    rfl
  · rw [if_neg hd, if_neg (make_ne_of_ne hd)]
    rfl

/-- A side whose identity is under no other shadow key of its family leaves them apart. -/
theorem apart_write_shadow {d₀ : String} (h : Apart m key) (content : Content α) {stored : Metadata}
    (hnew : ∀ d id, IsDiscriminator d → d ≠ d₀ → stored.identity = some id →
      m.identityAt (make key d) ≠ some id) : Apart (m.write (make key d₀) content stored) key := by
  intro d d' id hd hd' hid hid'
  rw [identityAt_write_shadow] at hid hid'
  -- the new side can only meet itself, and the others were apart before
  split at hid <;> split at hid'
  · rename_i hsource hsource'
    rw [hsource, hsource']
  · exact absurd hid' (hnew d' id hd' ‹_› hid)
  · exact absurd hid (hnew d id hd ‹_› hid')
  · exact h d d' id hd hd' hid hid'

/-- A write that is not known has the identity of no side that is stored. -/
theorem identityAt_ne_of_unknown {side : Metadata} (hfamily : Family localId m key)
    (hread : m.records.find? key = some existing) (hunknown : m.knows existing side = false)
    {d : String} {id : WriteId} (hd : IsDiscriminator d) (hid : side.identity = some id) :
    m.identityAt (make key d) ≠ some id := by
  intro hstored
  obtain ⟨r, hr, hidentity⟩ := Option.bind_eq_some_iff.1 hstored
  cases hfamily with
  | calm _ hfree =>
    rw [hfree d hd] at hr
    cases hr
  | torn hread' hmarker _ honly =>
    obtain rfl := Option.some.inj (hread.symm.trans hread')
    -- the side is listed, and then the write would be known
    have hlisted := honly d hd (by simp [hr])
    have hholds : m.holdsSide existing side = true := by
      rw [holdsSide, sides_of_content hmarker, List.any_eq_true]
      exact ⟨make key d, hlisted, by simp [hr, Metadata.sameIdentity_of_some hid, hidentity]⟩
    simp [knows, hholds] at hunknown

/-- A conflict that arises has two sides, the write and the record that does not know it. -/
theorem apart_created {source : String} {side : Metadata} (h : Apart m key)
    (hfamily : Family localId m key) (hread : m.records.find? key = some existing)
    (hplain : existing.isMarker = false) (hunknown : m.knows existing side = false) :
    Apart ((m.withSide key source side payload).withConflict key (make key source)
      (make key localId) existing) key := by
  have hfree : ∀ d, IsDiscriminator d → m.identityAt (make key d) = none := by
    intro d hd
    cases hfamily with
    | calm _ hfree => rw [identityAt, hfree d hd]; rfl
    | torn hread' hmarker _ _ =>
      obtain rfl := Option.some.inj (hread.symm.trans hread')
      exact absurd hmarker (content_ne_marker hplain _)
  rw [withConflict]
  apply apart_write_key
  refine apart_write_shadow (apart_write_shadow h _ ?_) _ ?_
  · intro d id hd _ _
    simp [hfree d hd]
  · intro d id hd _ hid
    rw [identityAt_write_shadow]
    split
    · -- the write is not the record that is there
      intro hsame
      have hincoming : side.identity = some id := hsame
      have hknown : existing.metadata.sameIdentity side = true := by
        rw [Metadata.sameIdentity_of_some hincoming]
        exact beq_iff_eq.2 hid
      simp [knows, hknown] at hunknown
    · simp [hfree d hd]

theorem apart_contended {side : Metadata} {operation : Operation} (h : Apart m key)
    (hfamily : Family localId m key) (hread : m.records.find? key = some existing)
    (hunknown : m.knows existing side = false)
    (hcontended : Contended kind localId key side payload existing operation m (.ok outcome) m'
      notes) : Apart m' key := by
  have hside : ∀ source, Apart (m.withSide key source side payload) key := fun source =>
    apart_write_shadow h _ fun d id hd _ hid =>
      identityAt_ne_of_unknown hfamily hread hunknown hd hid
  cases hcontended with
  | created _ _ hplain hm _ =>
    rw [hm]
    exact apart_created h hfamily hread hplain hunknown
  | joined _ _ _ _ hm =>
    rw [hm]
    exact apart_write_key (hside _) _ _
  | rewritten => exact hside _

/-! ## §4 Uses -/

theorem apart_taken (h : Apart m key) (hfamily : Family localId m key)
    (htaken : Taken i kind localId key m w metadata payload (.ok outcome) m' notes w') :
    Apart m' key := by
  cases htaken with
  | created => exact apart_write_key h _ _
  | ignored => exact h
  | met hread _ hmet =>
    cases hmet with
    | replayed => exact h
    | stale => exact h
    | merged => exact apart_write_key h _ _
    | overwritten => exact apart_write_key h _ _
    | deleted => exact apart_write_key h _ _
    | settled _ _ hsettled =>
      cases hsettled with
      | removed => exact apart_eraseAll (apart_write_key h _ _) _
      | kept => exact apart_eraseAll (apart_write_key h _ _) _
    | declined hoffered _ hcontended =>
      exact apart_contended h hfamily hread hoffered.unknown hcontended
    | disputed _ hunknown _ hcontended =>
      exact apart_contended h hfamily hread hunknown hcontended

theorem apart_written {max : Nat} (h : Apart m key)
    (hwritten : Written localId key payload max m metadata m') : Apart m' key := by
  cases hwritten with
  | stamped => exact apart_write_key h _ _
  | resolved => exact apart_eraseAll (apart_write_key (apart_versioned h) _ _) _

/-- The families of the store belong together, and the sides of each are different writes. -/
structure Distinct (localId : String) (m : Memory α) : Prop where
  orderly : Orderly localId m
  apart : ∀ key, IsPrimary key → Apart m key

theorem distinct_of_within (hkey : IsPrimary key) (h : Distinct localId m)
    (horderly : Orderly localId m') (hwithin : Within key m m') (hapart : Apart m' key) :
    Distinct localId m' where
  orderly := horderly
  apart other hother := by
    by_cases hsame : other = key
    · rw [hsame]
      exact hapart
    · exact apart_of_within hkey hother hsame hwithin (h.apart other hother)

/-- No admissible use brings one write into a conflict twice. -/
theorem distinct_advanced {command : Command α ω} (hlocal : IsDiscriminator localId)
    (hadmissible : Admissible command) (h : Distinct localId m)
    (hadvanced : Advanced kind localId m command m') : Distinct localId m' := by
  have horderly := orderly_advanced hlocal hadmissible h.orderly hadvanced
  have hwritten : ∀ {key payload max metadata m'}, IsPrimary key → Orderly localId m' →
      Written localId key payload max m metadata m' → Distinct localId m' := by
    intro key payload max metadata m' hkey horderly hwritten
    exact distinct_of_within hkey h horderly
      (family_written (h.orderly.families key hkey) hwritten).1
      (apart_written (h.apart key hkey) hwritten)
  cases hadvanced with
  | unchanged => exact h
  | replicated htaken =>
    cases hadmissible with
    | replicate hkey hsources hconflict _ =>
      have hfamily := h.orderly.families _ hkey
      exact distinct_of_within hkey h horderly
        (family_taken hlocal hfamily hsources hconflict htaken).1
        (apart_taken (h.apart _ hkey) hfamily htaken)
  | stored hstamped => cases hadmissible with | putLocal hkey => exact hwritten hkey horderly hstamped
  | deleted hstamped =>
    cases hadmissible with | deleteLocal hkey => exact hwritten hkey horderly hstamped
  | resolved hstamped =>
    cases hadmissible with | resolveLocal hkey => exact hwritten hkey horderly hstamped
  | batched => cases hadmissible

theorem distinct_empty : Distinct localId ({} : Memory α) where
  orderly := orderly_empty
  apart _ _ _ _ _ _ _ hid := by cases hid

theorem distinct_runAll (kind : ItemKind) (hlocal : IsDiscriminator localId)
    {history : List (Command α ω)} (hadmissible : ∀ command ∈ history, Admissible command) (w : ω) :
    Distinct localId (Command.runAll (backend kind localId) history ({}, w)).2.1 := by
  refine runAll_keeps kind localId ?_ w distinct_empty
  intro command hcommand m m' h hadvanced
  exact distinct_advanced hlocal (hadmissible command hcommand) h hadvanced

/-! ## §5 Resolutions -/

/-- The sides that a marker lists are different writes. -/
theorem nodup_identities {marker : Marker} (h : Apart m key)
    (hlisting : Listing localId m key marker) :
    ((m.sidesOf marker.shadows).filterMap (·.identity)).Nodup := by
  have hidentities : (m.sidesOf marker.shadows).filterMap (·.identity) =
      marker.shadows.filterMap m.identityAt := by
    rw [sidesOf_eq_filterMap, List.filterMap_filterMap]
    refine List.filterMap_congr fun shadow _ => ?_
    rw [identityAt]
    cases m.records.find? shadow <;> rfl
  rw [hidentities, List.Nodup, List.pairwise_filterMap]
  refine hlisting.distinct.imp_of_mem ?_
  rintro shadow shadow' hlisted hlisted' hne id hid _ hid' rfl
  -- two shadows that hold one write would be made of one origin
  obtain ⟨d, _, hd, rfl, -, -⟩ := hlisting.sides shadow hlisted
  obtain ⟨d', _, hd', rfl, -, -⟩ := hlisting.sides shadow' hlisted'
  exact hne (h d d' id hd hd' hid hid' ▸ rfl)

/-- A resolution lists nothing twice. -/
theorem nodup_resolutionOf (h : Distinct localId m) (hkey : IsPrimary key)
    (hread : m.records.find? key = some existing) {marker : Marker}
    (hmarker : existing.content = .marker marker) (metadata : Metadata) (max : Nat) :
    (m.resolutionOf localId marker metadata max).lineage.Nodup := by
  have hlisting := (listing_of_marker (h.orderly.families key hkey) hread hmarker).1
  exact Lineage.nodup_bound (Backend.nodup_resolvedLineage
    (nodup_identities (h.apart key hkey) hlisting)) max

end Memory

end ReplicaIntake
