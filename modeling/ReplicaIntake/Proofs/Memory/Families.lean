import ReplicaIntake.Proofs.Memory.Histories

/-!
# Markers and their shadows

The records of a store fall into families: a primary key and the shadow keys made of it. A family
is calm, when there is no conflict and no shadow is stored, or it is torn, when the primary key
holds a marker that lists exactly the shadows that are stored (`Family`).

An operation on a primary key stays within its family (`Within`), and since no shadow key belongs
to two families, it leaves all others as they are. So every use that addresses a primary key keeps
a store orderly (`orderly_advanced`), and what is true of an orderly store is true after every such
history (`integrity_runAll`).
-/

namespace ReplicaIntake.Memory

open ShadowKey (IsDiscriminator make)

variable {α ω : Type} {localId key : String} {m m' : Memory α}

/-! ## §1 Families -/

/-- A key of an item: not empty, and no shadow key. -/
structure IsPrimary (key : String) : Prop where
  nonempty : key ≠ ""
  unsplit : ShadowKey.split key = none

/-- The record is the side of origin `d` of a conflict. The side that was stored first may have been
written by any node. -/
structure SideOf (localId d : String) (r : Record α) : Prop where
  plain : r.isMarker = false
  conflict : r.metadata.conflict = true
  conflictSide : r.metadata.conflictSide = true
  /-- A side that joined the conflict is named after the node it came from. -/
  source : d ≠ localId → r.metadata.source = some d

/-- The marker lists the sides of a conflict under `key`, all of which are stored. -/
structure Listing (localId : String) (m : Memory α) (key : String) (marker : Marker) : Prop where
  /-- There are at least two sides. -/
  several : 2 ≤ marker.shadows.length
  /-- No side is listed twice. -/
  distinct : marker.shadows.Nodup
  /-- The side that was stored first comes first. -/
  first : marker.shadows.head? = some (make key localId)
  /-- What is listed is there, and is a side. -/
  sides : ∀ shadow ∈ marker.shadows, ∃ d side, IsDiscriminator d ∧ shadow = make key d ∧
    m.records.find? shadow = some side ∧ SideOf localId d side

/-- The records under a primary key and its shadow keys belong together. -/
inductive Family (localId : String) (m : Memory α) (key : String) : Prop
  /-- There is no conflict, and no side of one. -/
  | calm (hplain : ∀ r, m.records.find? key = some r → r.isMarker = false)
      (hfree : ∀ d, IsDiscriminator d → m.records.find? (make key d) = none)
  /-- There is a marker, and it lists exactly the sides that are there. -/
  | torn {r : Record α} {marker : Marker} (hread : m.records.find? key = some r)
      (hmarker : r.content = .marker marker) (hlisting : Listing localId m key marker)
      (honly : ∀ d, IsDiscriminator d → m.records.find? (make key d) ≠ none →
        make key d ∈ marker.shadows)

/-- Every key that is in use belongs to a family, and every family belongs together. -/
structure Orderly (localId : String) (m : Memory α) : Prop where
  families : ∀ key, IsPrimary key → Family localId m key
  /-- A key is a primary key or a shadow key of one. -/
  keys : ∀ key, m.records.find? key ≠ none →
    IsPrimary key ∨ ∃ primary d, IsPrimary primary ∧ IsDiscriminator d ∧ key = make primary d

/-- Outside the family of `key` nothing has changed. -/
def Within (key : String) (m m' : Memory α) : Prop :=
  ∀ q, q ≠ key → (∀ d, IsDiscriminator d → q ≠ make key d) →
    m'.records.find? q = m.records.find? q

/-! ## §2 One family at a time -/

theorem within_refl (key : String) (m : Memory α) : Within key m m :=
  fun _ _ _ => rfl

theorem within_write_key (h : Within key m m') (content : Content α) (metadata : Metadata) :
    Within key m (m'.write key content metadata) := by
  intro q hkey hshadow
  rw [find?_write, if_neg hkey]
  exact h q hkey hshadow

theorem within_write_shadow (h : Within key m m') {d : String} (hd : IsDiscriminator d)
    (content : Content α) (metadata : Metadata) :
    Within key m (m'.write (make key d) content metadata) := by
  intro q hkey hshadow
  rw [find?_write, if_neg (hshadow d hd)]
  exact h q hkey hshadow

theorem within_eraseAll (h : Within key m m') {shadows : List String}
    (hshadows : ∀ shadow ∈ shadows, ∃ d, IsDiscriminator d ∧ shadow = make key d) :
    Within key m (m'.eraseAll shadows) := by
  intro q hkey hshadow
  rw [find?_eraseAll, if_neg]
  · exact h q hkey hshadow
  · intro hq
    obtain ⟨d, hd, hmake⟩ := hshadows q hq
    exact hshadow d hd hmake

theorem IsPrimary.ne_shadow (hkey : IsPrimary key) {primary d : String} (hprimary : primary ≠ "")
    (hd : IsDiscriminator d) : key ≠ make primary d := by
  -- a shadow key can be taken apart, a primary key cannot
  rintro rfl
  have hsplit := hkey.unsplit
  rw [ShadowKey.split_make hprimary hd] at hsplit
  cases hsplit

/-- A marker does not list the key that it stands under. -/
theorem Listing.unlisted_key {marker : Marker} (h : Listing localId m key marker) :
    key ∉ marker.shadows := by
  intro hlisted
  obtain ⟨d, _, _, hmake, -⟩ := h.sides key hlisted
  exact ShadowKey.make_ne_primary key d hmake.symm

/-- A family whose primary key holds a marker is torn. -/
theorem listing_of_marker (h : Family localId m key) {r : Record α} {marker : Marker}
    (hread : m.records.find? key = some r) (hmarker : r.content = .marker marker) :
    Listing localId m key marker ∧
      ∀ d, IsDiscriminator d → m.records.find? (make key d) ≠ none →
        make key d ∈ marker.shadows := by
  cases h with
  | calm hplain _ =>
    have hcalm := hplain r hread
    rw [isMarker_of_content hmarker] at hcalm
    cases hcalm
  | torn hread' hmarker' hlisting honly =>
    obtain rfl := Option.some.inj (hread.symm.trans hread')
    obtain rfl := Content.marker.inj (hmarker.symm.trans hmarker')
    exact ⟨hlisting, honly⟩

/-- A family rests on the records of its keys alone. -/
theorem family_congr (hkey : m'.records.find? key = m.records.find? key)
    (hshadows : ∀ d, IsDiscriminator d →
      m'.records.find? (make key d) = m.records.find? (make key d))
    (h : Family localId m key) : Family localId m' key := by
  cases h with
  | calm hplain hfree =>
    refine .calm ?_ ?_
    · intro r hr
      exact hplain r (hkey ▸ hr)
    · intro d hd
      rw [hshadows d hd, hfree d hd]
  | torn hread hmarker hlisting honly =>
    refine .torn (hkey.trans hread) hmarker ?_ ?_
    · refine ⟨hlisting.several, hlisting.distinct, hlisting.first, ?_⟩
      intro shadow hlisted
      obtain ⟨d, side, hd, rfl, hpresent, hside⟩ := hlisting.sides shadow hlisted
      exact ⟨d, side, hd, rfl, (hshadows d hd).trans hpresent, hside⟩
    · intro d hd hpresent
      rw [hshadows d hd] at hpresent
      exact honly d hd hpresent

/-- A change within one family that leaves it together leaves the store orderly: no other family
has a key in common with it. -/
theorem orderly_of_within (hkey : IsPrimary key) (h : Orderly localId m)
    (hwithin : Within key m m') (hfamily : Family localId m' key) : Orderly localId m' := by
  constructor
  · -- every family, the one that changed and the others
    intro other hother
    by_cases hsame : other = key
    · rw [hsame]
      exact hfamily
    · apply family_congr _ _ (h.families other hother)
      · apply hwithin other hsame
        intro d hd
        exact hother.ne_shadow hkey.nonempty hd
      · intro d hd
        apply hwithin
        · exact (hkey.ne_shadow hother.nonempty hd).symm
        · intro d' hd' hmake
          exact hsame ((ShadowKey.make_inj hother.nonempty hkey.nonempty hd hd').1 hmake).1
  · -- every key that is in use
    intro q hq
    by_cases hsame : q = key
    · rw [hsame]
      exact .inl hkey
    · by_cases hshadow : ∃ d, IsDiscriminator d ∧ q = make key d
      · obtain ⟨d, hd, rfl⟩ := hshadow
        exact .inr ⟨key, d, hkey, hd, rfl⟩
      · have hothers : ∀ d, IsDiscriminator d → q ≠ make key d :=
          fun d hd hmake => hshadow ⟨d, hd, hmake⟩
        rw [hwithin q hsame hothers] at hq
        exact h.keys q hq

/-! ## §3 What a write makes of its family -/

theorem make_ne_of_ne {d d' : String} (h : d ≠ d') : make key d ≠ make key d' := by
  rw [Ne, ShadowKey.make_inj_right]
  exact h

/-- What is no marker becomes a side when it is flagged as one. -/
theorem sideOf_flagged {d : String} {content : Content α} (etag : Etag) {metadata : Metadata}
    (hplain : ∀ marker, content ≠ .marker marker)
    (hsource : d ≠ localId → metadata.source = some d) :
    SideOf localId d ⟨content, etag, metadata.asConflictSide⟩ where
  plain := by
    cases content with
    | marker marker => exact absurd rfl (hplain marker)
    | data a => rfl
    | tombstone => rfl
  conflict := rfl
  conflictSide := rfl
  source := hsource

/-- The shadows that the record under `key` lists, if it is a marker. -/
def sidesAt (m : Memory α) (key : String) : List String :=
  ((m.records.find? key).map Record.sides).getD []

theorem sidesAt_of_read {r : Record α} (hread : m.records.find? key = some r) :
    m.sidesAt key = r.sides := by
  simp [sidesAt, hread]

theorem sidesAt_of_absent (habsent : m.records.find? key = none) : m.sidesAt key = [] := by
  simp [sidesAt, habsent]

/-- Data or a tombstone under the primary key, with the listed sides removed, makes the family
calm. -/
theorem family_replace (h : Family localId m key) (payload : Option α) {metadata : Metadata}
    (hflag : metadata.conflict = false) :
    Within key m ((m.write key (.ofPayload payload) metadata).eraseAll (m.sidesAt key)) ∧
      Family localId ((m.write key (.ofPayload payload) metadata).eraseAll (m.sidesAt key))
        key := by
  -- a listed side is a shadow of this key, so removing it stays within the family
  have hshadows : ∀ shadow ∈ m.sidesAt key, ∃ d, IsDiscriminator d ∧ shadow = make key d := by
    intro shadow hlisted
    cases h with
    | calm hplain hfree =>
      -- a plain record lists nothing
      cases hread : m.records.find? key with
      | none => simp [sidesAt_of_absent hread] at hlisted
      | some r => simp [sidesAt_of_read hread, sides_of_plain (hplain r hread)] at hlisted
    | torn hread hmarker hlisting honly =>
      rw [sidesAt_of_read hread, sides_of_content hmarker] at hlisted
      obtain ⟨d, side, hd, hmake, -, -⟩ := hlisting.sides shadow hlisted
      exact ⟨d, hd, hmake⟩
  refine ⟨within_eraseAll (within_write_key (within_refl key m) _ _) hshadows, .calm ?_ ?_⟩
  · -- what stands under the key is plain
    intro r hr
    rw [find?_eraseAll, find?_write, if_pos rfl] at hr
    split at hr
    · -- a marker that lists its own key leaves nothing under it
      cases hr
    · obtain rfl := Option.some.inj hr
      exact isMarker_of_unflagged payload _ hflag
  · -- no shadow of the key is left
    intro d hd
    rw [find?_eraseAll, find?_write, if_neg (ShadowKey.make_ne_primary key d)]
    split
    · rfl
    · -- a shadow that is not listed was not there before
      rename_i hlisted
      cases h with
      | calm hplain hfree => exact hfree d hd
      | torn hread hmarker hlisting honly =>
        rw [sidesAt_of_read hread, sides_of_content hmarker] at hlisted
        cases hpresent : m.records.find? (make key d) with
        | none => rfl
        | some side => exact absurd (honly d hd (by simp [hpresent])) hlisted

/-- Data or a tombstone where there is no marker makes the family calm. -/
theorem family_overwrite (h : Family localId m key)
    (hplain : ∀ r, m.records.find? key = some r → r.isMarker = false) (payload : Option α)
    {metadata : Metadata} (hflag : metadata.conflict = false) :
    Within key m (m.write key (.ofPayload payload) metadata) ∧
      Family localId (m.write key (.ofPayload payload) metadata) key := by
  have hsides : m.sidesAt key = [] := by
    cases hread : m.records.find? key with
    | none => exact sidesAt_of_absent hread
    | some r => rw [sidesAt_of_read hread, sides_of_plain (hplain r hread)]
  have hreplace := family_replace h payload hflag
  rw [hsides] at hreplace
  exact hreplace

/-! ## §4 What a conflict makes of its family -/

/-- A plain record and a write from another node tear a calm family. -/
theorem family_create (hlocal : IsDiscriminator localId) (h : Family localId m key)
    {existing : Record α} (hread : m.records.find? key = some existing)
    (hplain : existing.isMarker = false) {source : String} (hsource : IsDiscriminator source)
    (hforeign : source ≠ localId) {side : Metadata} (hside : side.source = some source)
    (payload : Option α) :
    Within key m ((m.withSide key source side payload).withConflict key (make key source)
        (make key localId) existing) ∧
      Family localId ((m.withSide key source side payload).withConflict key (make key source)
        (make key localId) existing) key := by
  have hne : make key source ≠ make key localId := make_ne_of_ne hforeign
  have hprimary := fun d => ShadowKey.make_ne_primary key d
  refine ⟨?_, ?_⟩
  · -- the three writes are under the two shadows and the key
    apply within_write_key
    apply within_write_shadow _ hlocal
    exact within_write_shadow (within_refl key m) hsource _ _
  · cases h with
    | torn hread' hmarker _ _ =>
      -- in a torn family the record would be a marker
      obtain rfl := Option.some.inj (hread.symm.trans hread')
      rw [isMarker_of_content hmarker] at hplain
      cases hplain
    | calm _ hfree =>
      have hpair := shadows_pair hne.symm
      -- what the two shadows hold afterwards: the record that was there, and the write
      have hstored : ((m.withSide key source side payload).withConflict key (make key source)
          (make key localId) existing).records.find? (make key localId) =
            some ⟨existing.content, m.lastEtag.next.next, existing.metadata.asConflictSide⟩ := by
        rw [find?_withConflict, if_neg (hprimary localId), if_pos rfl, lastEtag_withSide]
      have hnew : ((m.withSide key source side payload).withConflict key (make key source)
          (make key localId) existing).records.find? (make key source) =
            some ⟨.ofPayload payload, m.lastEtag.next, side.asConflictSide⟩ := by
        rw [find?_withConflict, if_neg (hprimary source), if_neg hne, find?_withSide, if_pos rfl]
      refine .torn (by rw [find?_withConflict, if_pos rfl]) rfl ?_ ?_
      · -- the marker lists the two, this node first, and both hold sides
        rw [hpair]
        refine ⟨Nat.le_refl 2, ?_, rfl, ?_⟩
        · simpa using hne.symm
        · intro shadow hlisted
          simp only [List.mem_cons, List.not_mem_nil, or_false] at hlisted
          rcases hlisted with rfl | rfl
          · -- the record that was stored before may be from any node
            exact ⟨localId, _, hlocal, rfl, hstored,
              sideOf_flagged _ (content_ne_marker hplain) (fun h => absurd rfl h)⟩
          · exact ⟨source, _, hsource, rfl, hnew,
              sideOf_flagged _ (ofPayload_ne_marker payload) (fun _ => hside)⟩
      · -- no shadow was stored before, so there are these two
        intro d hd hpresent
        rw [hpair]
        rw [find?_withConflict, if_neg (hprimary d)] at hpresent
        split at hpresent
        · rename_i hd'
          exact hd' ▸ List.mem_cons_self
        · rw [find?_withSide] at hpresent
          split at hpresent
          · rename_i hd'
            exact hd' ▸ List.mem_cons_of_mem _ List.mem_cons_self
          · exact absurd (hfree d hd) hpresent

/-- A side under the shadow of another node keeps a torn family together, once the marker lists
that shadow. -/
theorem listing_withSide {marker listed : Marker} (h : Listing localId m key marker)
    {source : String} (hsource : IsDiscriminator source) {side : Metadata}
    (hside : side.source = some source) (payload : Option α)
    (hkept : ∀ shadow, shadow ≠ key →
      m'.records.find? shadow = (m.withSide key source side payload).records.find? shadow)
    (hseveral : 2 ≤ listed.shadows.length) (hdistinct : listed.shadows.Nodup)
    (hfirst : listed.shadows.head? = some (make key localId))
    (hlisted : ∀ shadow ∈ listed.shadows, shadow ∈ marker.shadows ∨ shadow = make key source) :
    Listing localId m' key listed := by
  refine ⟨hseveral, hdistinct, hfirst, ?_⟩
  -- the new side is flagged as it is stored, and the others are untouched
  intro shadow hshadow
  by_cases hnew : shadow = make key source
  · have hpresent : m'.records.find? shadow =
        some ⟨.ofPayload payload, m.lastEtag.next, side.asConflictSide⟩ := by
      rw [hnew, hkept _ (ShadowKey.make_ne_primary key source), find?_withSide, if_pos rfl]
    exact ⟨source, _, hsource, hnew, hpresent,
      sideOf_flagged _ (ofPayload_ne_marker payload) (fun _ => hside)⟩
  · obtain ⟨d, stored, hd, hmake, hpresent, hstored⟩ :=
      h.sides shadow ((hlisted shadow hshadow).resolve_right hnew)
    refine ⟨d, stored, hd, hmake, ?_, hstored⟩
    rw [hkept shadow (hmake ▸ ShadowKey.make_ne_primary key d), find?_withSide, if_neg hnew,
      hpresent]

/-- A write from another node that joins a conflict keeps its family together. -/
theorem family_contended {kind : ItemKind} {side : Metadata} {payload : Option α}
    {existing : Record α} {operation : Operation} {outcome : Outcome} {notes : List Notification}
    (hlocal : IsDiscriminator localId) (h : Family localId m key)
    (hread : m.records.find? key = some existing)
    (hsources : ∀ source, side.source = some source → IsDiscriminator source)
    (hcontended : Contended kind localId key side payload existing operation m (.ok outcome) m'
      notes) : Within key m m' ∧ Family localId m' key := by
  cases hcontended with
  | created hsource hforeign hplain hm _ =>
    rw [hm]
    exact family_create hlocal h hread hplain (hsources _ hsource) hforeign hsource payload
  | joined hsource hforeign hmarker hnew hm =>
    -- the shadow becomes the last one of the marker
    have hd := hsources _ hsource
    rw [hm]
    obtain ⟨hlisting, honly⟩ := listing_of_marker h hread hmarker
    refine ⟨within_write_key (within_write_shadow (within_refl key m) hd _ _) _ _, ?_⟩
    refine .torn (by rw [find?_write, if_pos rfl]) rfl ?_ ?_
    · apply listing_withSide hlisting hd hsource payload
      · intro shadow hshadow
        rw [find?_write, if_neg hshadow]
      · have hseveral := hlisting.several
        simp only [List.length_append, List.length_singleton]
        omega
      · exact List.nodup_append.2 ⟨hlisting.distinct, by simp,
          fun a ha b hb hab => hnew (List.mem_singleton.1 hb ▸ hab ▸ ha)⟩
      · rw [List.head?_append, hlisting.first]
        rfl
      · intro shadow hshadow
        simpa using hshadow
    · intro d hd' hpresent
      rw [find?_write, if_neg (ShadowKey.make_ne_primary key d), find?_withSide] at hpresent
      split at hpresent
      · rename_i hsame
        exact hsame ▸ List.mem_append_right _ List.mem_cons_self
      · exact List.mem_append_left _ (honly d hd' hpresent)
  | rewritten hsource hforeign hmarker hlisted =>
    -- the marker stays, and the shadow was among its own before
    have hd := hsources _ hsource
    obtain ⟨hlisting, honly⟩ := listing_of_marker h hread hmarker
    refine ⟨within_write_shadow (within_refl key m) hd _ _, ?_⟩
    refine .torn (by rw [find?_withSide, if_neg (ShadowKey.make_ne_primary key _).symm, hread])
      hmarker ?_ ?_
    · exact listing_withSide hlisting hd hsource payload (fun _ _ => rfl) hlisting.several
        hlisting.distinct hlisting.first (fun _ hshadow => .inl hshadow)
    · intro d hd' hpresent
      rw [find?_withSide] at hpresent
      split at hpresent
      · rename_i hsame
        exact hsame ▸ hlisted
      · exact honly d hd' hpresent

/-- What is stored after a decision of the policy carries no flags, and the sides are gone. -/
theorem family_settled {i : Intake α ω} {kind : ItemKind} {incoming : Metadata}
    {existing : Record α} {w w' : ω} {resolution : Resolution α} {outcome : Outcome}
    (h : Family localId m key) (hread : m.records.find? key = some existing)
    (hsettled : Settled i kind key incoming existing m w resolution (.ok outcome) m' w') :
    Within key m m' ∧ Family localId m' key := by
  have hsides := sidesAt_of_read hread
  -- a decision is stored with the flag of conflicts cleared
  cases hsettled with
  | removed metadata =>
    rw [← hsides]
    exact family_replace h none rfl
  | kept metadata payload =>
    rw [← hsides]
    exact family_replace h (some payload) rfl

/-! ## §5 Uses -/

theorem family_met {i : Intake α ω} {kind : ItemKind} {w w' : ω} {metadata : Metadata}
    {payload : Option α} {existing : Record α} {outcome : Outcome} {notes : List Notification}
    (hlocal : IsDiscriminator localId) (h : Family localId m key)
    (hread : m.records.find? key = some existing)
    (hsources : ∀ source, metadata.source = some source → IsDiscriminator source)
    (hflag : metadata.conflict = false)
    (hmet : Met i kind localId key m w metadata payload existing (.ok outcome) m' notes w') :
    Within key m m' ∧ Family localId m' key := by
  have hunchanged : Within key m m ∧ Family localId m key := ⟨within_refl key m, h⟩
  -- over a plain record, what is stored makes the family calm
  have hover : ∀ (stored : Option α) {metadata : Metadata}, existing.isMarker = false →
      metadata.conflict = false → Within key m (m.write key (.ofPayload stored) metadata) ∧
        Family localId (m.write key (.ofPayload stored) metadata) key := by
    intro stored metadata hplain hflag
    apply family_overwrite h _ stored hflag
    intro r hr
    obtain rfl := Option.some.inj (hread.symm.trans hr)
    exact hplain
  cases hmet with
  | replayed => exact hunchanged
  | stale => exact hunchanged
  | merged _ _ hplain _ =>
    apply hover none hplain
    simpa [Intake.mergedTombstone] using hflag
  | overwritten _ _ hcompared _ =>
    apply hover (some _) hcompared.plain
    simpa using hflag
  | deleted _ hcompared _ =>
    apply hover none hcompared.plain
    simpa using hflag
  | settled _ _ hsettled => exact family_settled h hread hsettled
  | declined _ _ hcontended =>
    exact family_contended hlocal h hread (by simpa using hsources) hcontended
  | disputed _ _ _ hcontended =>
    exact family_contended hlocal h hread (by simpa using hsources) hcontended

theorem family_taken {i : Intake α ω} {kind : ItemKind} {w w' : ω} {metadata : Metadata}
    {payload : Option α} {outcome : Outcome} {notes : List Notification}
    (hlocal : IsDiscriminator localId) (h : Family localId m key)
    (hsources : ∀ source, metadata.source = some source → IsDiscriminator source)
    (hflag : metadata.conflict = false)
    (htaken : Taken i kind localId key m w metadata payload (.ok outcome) m' notes w') :
    Within key m m' ∧ Family localId m' key := by
  cases htaken with
  | created _ _ _ habsent =>
    apply family_overwrite h _ (some _)
    · exact hflag
    · intro r hr
      simp [habsent] at hr
  | ignored => exact ⟨within_refl key m, h⟩
  | met hread _ hmet => exact family_met hlocal h hread hsources hflag hmet

/-- A local write carries no flags, and a resolution removes the sides. -/
theorem family_written {payload : Option α} {max : Nat} {metadata : Metadata}
    (h : Family localId m key) (hwritten : Written localId key payload max m metadata m') :
    Within key m m' ∧ Family localId m' key := by
  have hversioned : Family localId m.versioned key := by
    apply family_congr _ _ h
    · rw [records_versioned]
    · intro d _
      rw [records_versioned]
  cases hwritten with
  | stamped hfree hmetadata =>
    apply family_overwrite hversioned
    · intro r hr
      rw [records_versioned] at hr
      rw [hr] at hfree
      -- a record of the family that holds no marker does not claim to be one
      cases h with
      | calm hplain _ => exact hplain r hr
      | torn hread hmarker _ _ =>
        obtain rfl := Option.some.inj (hr.symm.trans hread)
        simp [marker?_of_content hmarker] at hfree
    · rw [hmetadata]
      cases m.records.find? key <;> rfl
  | resolved hread hmarker hmetadata =>
    -- what is removed is what the marker lists
    have hsides := sidesAt_of_read (m := m.versioned) hread
    rw [sides_of_content hmarker] at hsides
    rw [← hsides]
    apply family_replace hversioned
    rw [hmetadata]
    rfl

/-- The use addresses a primary key, and an incoming write names its node by a single path segment
and carries no flags of conflicts. -/
inductive Admissible : Command α ω → Prop
  | replicate {i : Intake α ω} {key : String} {metadata : Metadata} {payload : Option α}
      (hkey : IsPrimary key)
      (hsources : ∀ source, metadata.source = some source → IsDiscriminator source)
      (hconflict : metadata.conflict = false) (hside : metadata.conflictSide = false) :
    Admissible (.replicate i key metadata payload)
  | putLocal {key : String} {payload : α} {max : Nat} (hkey : IsPrimary key) :
    Admissible (.putLocal key payload max)
  | deleteLocal {key : String} {max : Nat} (hkey : IsPrimary key) :
    Admissible (.deleteLocal key max)
  /-- The end of a conflict. -/
  | resolveLocal {key : String} {payload : Option α} {max : Nat} (hkey : IsPrimary key) :
    Admissible (.resolveLocal key payload max)
  | get {key : String} : Admissible (.get key)

/-- No admissible use, whether it succeeds or fails, brings the store into disorder. -/
theorem orderly_advanced {kind : ItemKind} {command : Command α ω}
    (hlocal : IsDiscriminator localId) (hadmissible : Admissible command)
    (h : Orderly localId m) (hadvanced : Advanced kind localId m command m') :
    Orderly localId m' := by
  cases hadvanced with
  | unchanged => exact h
  | replicated htaken =>
    cases hadmissible with
    | replicate hkey hsources hconflict _ =>
      obtain ⟨hwithin, hfamily⟩ :=
        family_taken hlocal (h.families _ hkey) hsources hconflict htaken
      exact orderly_of_within hkey h hwithin hfamily
  | stored hwritten =>
    cases hadmissible with
    | putLocal hkey =>
      obtain ⟨hwithin, hfamily⟩ := family_written (h.families _ hkey) hwritten
      exact orderly_of_within hkey h hwithin hfamily
  | deleted hwritten =>
    cases hadmissible with
    | deleteLocal hkey =>
      obtain ⟨hwithin, hfamily⟩ := family_written (h.families _ hkey) hwritten
      exact orderly_of_within hkey h hwithin hfamily
  | resolved hwritten =>
    cases hadmissible with
    | resolveLocal hkey =>
      obtain ⟨hwithin, hfamily⟩ := family_written (h.families _ hkey) hwritten
      exact orderly_of_within hkey h hwithin hfamily
  | batched => cases hadmissible

/-- The store without records is orderly. -/
theorem orderly_empty : Orderly localId ({} : Memory α) where
  families _ _ := .calm (fun r hr => by cases hr) (fun _ _ => rfl)
  keys _ hkey := absurd rfl hkey

/-! ## §6 Integrity -/

/-- Markers and shadow keys match each other. -/
structure Integrity (localId : String) (m : Memory α) : Prop where
  /-- Every marker, under whatever key, lists the sides of a conflict. -/
  markers : ∀ key r marker, m.records.find? key = some r → r.content = .marker marker →
    Listing localId m key marker
  /-- Every shadow key that is in use is listed by the marker under its primary key. -/
  shadows : ∀ key primary d, ShadowKey.split key = some (primary, d) →
    m.records.find? key ≠ none → ∃ r marker, m.records.find? primary = some r ∧
      r.content = .marker marker ∧ key ∈ marker.shadows

/-- A shadow that is stored is a side that the marker under its primary key lists. -/
theorem listed_of_orderly (h : Orderly localId m) {primary d : String}
    (hprimary : IsPrimary primary) (hd : IsDiscriminator d) {r : Record α}
    (hread : m.records.find? (make primary d) = some r) :
    r.isMarker = false ∧ ∃ conflict marker, m.records.find? primary = some conflict ∧
      conflict.content = .marker marker ∧ make primary d ∈ marker.shadows := by
  have hpresent : m.records.find? (make primary d) ≠ none := by simp [hread]
  cases h.families primary hprimary with
  | calm _ hfree => exact absurd (hfree d hd) hpresent
  | torn hconflict hmarker hlisting honly =>
    have hlisted := honly d hd hpresent
    obtain ⟨d', side, -, -, hside, hsideOf⟩ := hlisting.sides _ hlisted
    obtain rfl := Option.some.inj (hread.symm.trans hside)
    exact ⟨hsideOf.plain, _, _, hconflict, hmarker, hlisted⟩

theorem integrity_of_orderly (h : Orderly localId m) : Integrity localId m := by
  constructor
  · intro key r marker hread hmarker
    rcases h.keys key (by simp [hread]) with hkey | ⟨primary, d, hprimary, hd, rfl⟩
    · exact (listing_of_marker (h.families key hkey) hread hmarker).1
    · -- no shadow holds a marker
      have hside := (listed_of_orderly h hprimary hd hread).1
      exact absurd hmarker (content_ne_marker hside marker)
  · intro key primary d hsplit hpresent
    obtain ⟨r, hread⟩ := Option.ne_none_iff_exists'.1 hpresent
    rcases h.keys key hpresent with hkey | ⟨primary', d', hprimary, hd, rfl⟩
    · rw [hkey.unsplit] at hsplit
      cases hsplit
    · rw [ShadowKey.split_make hprimary.nonempty hd] at hsplit
      obtain ⟨rfl, rfl⟩ : primary' = primary ∧ d' = d := by simpa using hsplit
      exact (listed_of_orderly h hprimary hd hread).2

/-- After every history of admissible uses, whatever the policies and triggers, markers and shadow
keys match each other. -/
theorem integrity_runAll (kind : ItemKind) (hlocal : IsDiscriminator localId)
    (history : List (Command α ω)) (hadmissible : ∀ command ∈ history, Admissible command) (w : ω) :
    Integrity localId (Command.runAll (backend kind localId) history ({}, w)).2.1 := by
  apply integrity_of_orderly
  apply runAll_keeps kind localId
  · intro command hcommand m m' h hadvanced
    exact orderly_advanced hlocal (hadmissible command hcommand) h hadvanced
  · exact orderly_empty

/-- Two writes of `k` dispute, a third node joins them, and a conflict of `l` is ended. -/
def disputesOfKL : List (Command String Unit) :=
  [.replicate {} "k" (.ofId "a" 1) (some "a1"), .replicate {} "k" (.ofId "b" 1) (some "b1"),
    .replicate {} "k" { Metadata.ofId "c" 1 with deleted := true } none,
    .putLocal "l" "here" 50, .replicate {} "l" (.ofId "a" 2) (some "a2"),
    .resolveLocal "l" (some "both") 50]

/-- The marker of `k` lists its three sides, and no shadow of `l` is left. -/
theorem integrity_of_disputes :
    Integrity "L" (Command.runAll (backend .document "L") disputesOfKL ({}, ())).2.1 ∧
      (Command.runAll (backend .document "L") disputesOfKL ({}, ())).2.1.records.keys =
        ["k", "k/conflicts/L", "k/conflicts/b", "k/conflicts/c", "l"] := by
  have hk : IsPrimary "k" := ⟨by decide, by decide +kernel⟩
  have hl : IsPrimary "l" := ⟨by decide, by decide +kernel⟩
  have hname : ∀ {d source : String}, IsDiscriminator d → some d = some source →
      IsDiscriminator source := by
    rintro d _ hd ⟨rfl⟩
    exact hd
  refine ⟨integrity_runAll .document ⟨by decide, by decide +kernel⟩ disputesOfKL ?_ (),
    by decide +kernel⟩
  simp only [disputesOfKL, List.forall_mem_cons, List.not_mem_nil, false_implies, implies_true,
    and_true]
  exact ⟨.replicate hk (fun _ => hname ⟨by decide, by decide +kernel⟩) rfl rfl,
    .replicate hk (fun _ => hname ⟨by decide, by decide +kernel⟩) rfl rfl,
    .replicate hk (fun _ => hname ⟨by decide, by decide +kernel⟩) rfl rfl,
    .putLocal hl, .replicate hl (fun _ => hname ⟨by decide, by decide +kernel⟩) rfl rfl,
    .resolveLocal hl⟩

end ReplicaIntake.Memory
