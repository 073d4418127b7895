import ReplicaIntake.Proofs.Memory.Edits
import ReplicaIntake.Proofs.Memory.Families

/-!
# Keys that are named like shadows

The uses of a key touch the key and the shadows of its origins, which are this node and the nodes
that the writes of the key name (`Names`). Two items have no name in common as long as every origin
is one path segment (`odd_origin_of_names`). An intake does not ask for that: a write may name its
node by any text. If the text is empty or holds a slash, the shadow made of it can be the key of
another item, or a shadow of one. A conflict then stores its side there whatever there was, and the
end of the conflict removes it (`kept_unless_misnamed`, `slashed_source_replaces_item`).
-/

namespace ReplicaIntake.Memory

open ShadowKey (IsDiscriminator make)

variable {α ω : Type} {kind : ItemKind} {localId key other q : String} {m m' : Memory α}
  {history history' : List (Command α ω)} {command : Command α ω}

/-- The origin takes part in the uses of `key`: it is this node, or a write of `key` names it. -/
def IsOrigin (localId : String) (history : List (Command α ω)) (key d : String) : Prop :=
  d = localId ∨ ∃ i metadata payload, .replicate i key metadata payload ∈ history ∧
    metadata.source = some d

/-- The text names an item or a shadow that its uses can touch. -/
def Names (localId : String) (history : List (Command α ω)) (key q : String) : Prop :=
  q = key ∨ ∃ d, IsOrigin localId history key d ∧ q = make key d

theorem isOrigin_mono {d : String} (hsub : history ⊆ history')
    (h : IsOrigin localId history key d) : IsOrigin localId history' key d := by
  rcases h with hlocal | ⟨i, metadata, payload, hmem, hsource⟩
  · exact .inl hlocal
  · exact .inr ⟨i, metadata, payload, hsub hmem, hsource⟩

/-! ## §1 Names in common -/

/-- Two items have a name in common only through an origin that is not one path segment. -/
theorem odd_origin_of_names (hkey : IsPrimary key) (hother : IsPrimary other) (hne : other ≠ key)
    (h : Names localId history key q) (h' : Names localId history' other q) :
    ∃ d, ¬ IsDiscriminator d ∧ (IsOrigin localId history key d ∧ q = make key d ∨
      IsOrigin localId history' other d ∧ q = make other d) := by
  rcases h with rfl | ⟨d, horigin, rfl⟩
  · rcases h' with rfl | ⟨d', horigin', hmake⟩
    · exact absurd rfl hne
    · -- a primary key is no shadow of a path segment
      exact ⟨d', fun hd' => hkey.ne_shadow hother.nonempty hd' hmake, .inr ⟨horigin', hmake⟩⟩
  · by_cases hd : IsDiscriminator d
    · rcases h' with hmake | ⟨d', horigin', hmake⟩
      · exact absurd hmake.symm (hother.ne_shadow hkey.nonempty hd)
      · refine ⟨d', fun hd' => ?_, .inr ⟨horigin', hmake⟩⟩
        exact hne ((ShadowKey.make_inj hother.nonempty hkey.nonempty hd' hd).1 hmake.symm).1
    · exact ⟨d, hd, .inl ⟨horigin, rfl⟩⟩

/-! ## §2 What uses touch -/

/-- What a use stores is under a name of its key. -/
theorem names_of_stores {content : Content α} {stored : Metadata} (hcommand : command ∈ history)
    (hkey : command.key? = some key) (hstores : Stores localId m command q content stored) :
    Names localId history key q := by
  cases hstores with
  | incoming => exact .inl (Option.some.inj hkey)
  | side hsource =>
    obtain rfl := Option.some.inj hkey
    exact .inr ⟨_, .inr ⟨_, _, _, hcommand, hsource⟩, rfl⟩
  | moved =>
    obtain rfl := Option.some.inj hkey
    exact .inr ⟨localId, .inl rfl, rfl⟩
  | marked => exact .inl (Option.some.inj hkey)
  | extended => exact .inl (Option.some.inj hkey)
  | made _ hkey' => exact .inl (Option.some.inj (hkey'.symm.trans hkey))

/-- Every marker lists shadows of origins of its key. -/
def ListsOrigins (localId : String) (history : List (Command α ω)) (key : String) (r : Record α) :
    Prop :=
  ∀ shadow ∈ r.sides, ∃ d, IsOrigin localId history key d ∧ shadow = make key d

theorem listsOrigins_plain (history : List (Command α ω)) (key : String) {r : Record α}
    (hplain : r.marker? = none) : ListsOrigins localId history key r := by
  intro shadow hlisted
  simp [Record.sides, hplain] at hlisted

theorem listsOrigins_stored (hcommand : command ∈ history)
    (h : EveryRecord (ListsOrigins localId history) m) (q : String) (content : Content α)
    (stored : Metadata) (etag : Etag) (hstores : Stores localId m command q content stored) :
    ListsOrigins localId history q ⟨content, etag, stored⟩ := by
  have hpayload : ∀ payload : Option α,
      (⟨.ofPayload payload, etag, stored⟩ : Record α).marker? = none := by
    intro payload
    cases payload <;> rfl
  -- only a marker lists anything: a new one two shadows, a longer one one more
  cases hstores with
  | incoming => exact listsOrigins_plain history q (hpayload _)
  | side => exact listsOrigins_plain history _ (hpayload _)
  | made => exact listsOrigins_plain history q (hpayload _)
  | @moved _ _ _ _ existing _ hplain =>
    have hcontent : existing.marker? = none := marker?_of_plain hplain
    exact listsOrigins_plain history _ hcontent
  | marked hsource =>
    intro shadow hlisted
    simp only [Record.sides, Record.marker?, Option.map_some, Option.getD_some, List.mem_cons,
      List.not_mem_nil, or_false] at hlisted
    rcases hlisted with rfl | rfl
    · exact ⟨localId, .inl rfl, rfl⟩
    · exact ⟨_, .inr ⟨_, _, _, hcommand, hsource⟩, rfl⟩
  | extended hsource hread hmarker =>
    intro shadow hlisted
    simp only [Record.sides, Record.marker?, Option.map_some, Option.getD_some, List.mem_append,
      List.mem_singleton] at hlisted
    rcases hlisted with hlisted | rfl
    · exact h q _ hread shadow (by rwa [sides_of_content hmarker])
    · exact ⟨_, .inr ⟨_, _, _, hcommand, hsource⟩, rfl⟩

theorem listsOrigins_runAll (kind : ItemKind) (localId : String)
    (hsingle : ∀ command ∈ history, command.IsSingle) (w : ω) :
    EveryRecord (ListsOrigins localId history)
      (Command.runAll (backend kind localId) history ({}, w)).2.1 := by
  apply runAll_keeps kind localId
  · intro command hcommand m m' h hadvanced
    exact everyRecord_advanced (hsingle command hcommand) h (listsOrigins_stored hcommand h)
      hadvanced
  · intro key r hread
    cases hread

/-- What is no name of the key that a use is about keeps its record. -/
theorem find?_of_not_named (h : EveryRecord (ListsOrigins localId history) m)
    (hkey : command.key? = some key) (hsingle : command.IsSingle)
    (hadvanced : Advanced kind localId m command m')
    (hq : ¬ Names localId (history ++ [command]) key q) :
    m'.records.find? q = m.records.find? q := by
  apply find?_of_untouched (edited_advanced hsingle hadvanced)
  · intro content stored hstores
    exact hq (names_of_stores (List.mem_append_right _ List.mem_cons_self) hkey hstores)
  · rintro ⟨key', r, hkey', hread, hlisted⟩
    obtain rfl := Option.some.inj (hkey.symm.trans hkey')
    obtain ⟨d, horigin, rfl⟩ := h key r hread q hlisted
    exact hq (.inr ⟨d, isOrigin_mono (List.subset_append_left _ _) horigin, rfl⟩)

/-! ## §3 What becomes of a name in common -/

/-- A write that ends up in a conflict is stored under the shadow of its node, whatever that key
held. -/
theorem side_of_conflict {i : Intake α ω} {metadata : Metadata} {payload : Option α} {w w' : ω}
    {summary : ConflictSummary} {created : Bool} {notes : List Notification} {source : String}
    (hsource : metadata.source = some source)
    (htaken : Taken i kind localId key m w metadata payload (.ok (.conflict summary created)) m'
      notes w') :
    ∃ side, m'.records.find? (make key source) = some side ∧ side.etag = m.lastEtag.next ∧
      side.metadata.identity = metadata.identity ∧ side.metadata.conflictSide = true := by
  cases htaken with
  | @met existing _ _ _ _ _ _ hmet =>
    have harrived : (i.arrived metadata existing.metadata).asConflictSide.identity =
        metadata.identity := Intake.identity_arrived i metadata existing.metadata
    cases hmet with
    | settled _ _ hsettled => cases hsettled
    | declined _ _ hcontended =>
      exact ⟨_, side_of_contended (by simpa using hsource) hcontended, rfl, harrived, rfl⟩
    | disputed _ _ _ hcontended =>
      exact ⟨_, side_of_contended (by simpa using hsource) hcontended, rfl, harrived, rfl⟩

/-- There is a marker under the key once a write has contended. -/
theorem marker_of_contended {side : Metadata} {payload : Option α} {existing : Record α}
    {operation : Operation} {outcome : Outcome} {notes : List Notification}
    (hread : m.records.find? key = some existing)
    (hcontended : Contended kind localId key side payload existing operation m (.ok outcome) m'
      notes) : ∃ r marker, m'.records.find? key = some r ∧ r.content = .marker marker := by
  obtain ⟨source, hsource, -⟩ := foreign_of_contended hcontended
  obtain ⟨r, marker, hafter, hmarker, -⟩ := listed_of_contended hread hsource hcontended
  exact ⟨r, marker, hafter, hmarker⟩

/-- A use that leaves no marker where one was removes all that the marker listed. -/
theorem removed_of_ended {r : Record α} {shadow : String} (hkey : command.key? = some key)
    (hread : m.records.find? key = some r) (hlisted : shadow ∈ r.sides)
    (hended : ∀ r', m'.records.find? key = some r' → r'.marker? = none)
    (hadvanced : Advanced kind localId m command m') : m'.records.find? shadow = none := by
  obtain ⟨marker, hmarker⟩ : ∃ marker, r.content = .marker marker := by
    cases hcontent : r.marker? with
    | none => simp [Record.sides, hcontent] at hlisted
    | some marker => exact ⟨marker, content_of_marker? hcontent⟩
  have hconflict : r.isMarker = true := isMarker_of_content hmarker
  have hstays : ∀ {r' marker'}, m'.records.find? key = some r' → r'.content ≠ .marker marker' := by
    intro r' marker' hread' hmarker'
    have hnone := hended r' hread'
    rw [marker?_of_content hmarker'] at hnone
    cases hnone
  -- a conflict ends by a local resolution or a decision of a policy, and both end with this
  have hcleared : ∀ m₁ : Memory α, (m₁.eraseAll r.sides).records.find? shadow = none := by
    intro m₁
    rw [find?_eraseAll, if_pos hlisted]
  have hwritten : ∀ {payload max metadata}, Written localId key payload max m metadata m' →
      m'.records.find? shadow = none := by
    intro payload max metadata hwritten
    cases hwritten with
    | stamped hfree => simp [hread, marker?_of_content hmarker] at hfree
    | resolved hread' hmarker' =>
      obtain rfl := Option.some.inj (hread.symm.trans hread')
      rw [← sides_of_content hmarker']
      exact hcleared _
  -- every other way of a use leaves the marker or puts another in its place
  cases hadvanced with
  | unchanged => exact absurd hmarker (hstays hread)
  | replicated htaken =>
    obtain rfl := Option.some.inj hkey
    cases htaken with
    | created _ _ _ habsent => simp [hread] at habsent
    | ignored _ habsent => simp [hread] at habsent
    | met hread' _ hmet =>
      obtain rfl := Option.some.inj (hread.symm.trans hread')
      cases hmet with
      | replayed => exact absurd hmarker (hstays hread)
      | merged _ _ hplain => simp [hconflict] at hplain
      | overwritten _ _ hcompared => exact absurd hcompared.plain (by simp [hconflict])
      | deleted _ hcompared => exact absurd hcompared.plain (by simp [hconflict])
      | stale => exact absurd hmarker (hstays hread)
      | settled _ _ hsettled =>
        cases hsettled with
        | removed => exact hcleared _
        | kept => exact hcleared _
      | declined _ _ hcontended =>
        obtain ⟨r', marker', hread', hmarker'⟩ := marker_of_contended hread hcontended
        exact absurd hmarker' (hstays hread')
      | disputed _ _ _ hcontended =>
        obtain ⟨r', marker', hread', hmarker'⟩ := marker_of_contended hread hcontended
        exact absurd hmarker' (hstays hread')
  | stored hwrite =>
    obtain rfl := Option.some.inj hkey
    exact hwritten hwrite
  | deleted hwrite =>
    obtain rfl := Option.some.inj hkey
    exact hwritten hwrite
  | resolved hwrite =>
    obtain rfl := Option.some.inj hkey
    exact hwritten hwrite
  | batched => cases hkey

/-! ## §4 Other items -/

/-- After every history of single uses, a further use of one item keeps the record of every other
item and all shadows that its marker lists, unless an origin of one of the two items is not a path
segment and makes just that name. The name is not spared then: a write that ends up in a conflict is
stored under the shadow of its node, and a use that ends a conflict removes every shadow that was
listed, whatever these keys held. -/
theorem kept_unless_misnamed (kind : ItemKind) (localId : String) {history : List (Command α ω)}
    (hsingle : ∀ command ∈ history, command.IsSingle) (w : ω) {command : Command α ω} {key : String}
    (hcommand : command.key? = some key) :
    let before := (Command.runAll (backend kind localId) history ({}, w)).2
    let use := command.run (backend kind localId) before
    (∀ other, IsPrimary key → IsPrimary other → other ≠ key → ∀ q,
      (q = other ∨ ∃ r, before.1.records.find? other = some r ∧ q ∈ r.sides) →
      use.2.1.records.find? q = before.1.records.find? q ∨
      ∃ d, ¬ IsDiscriminator d ∧
        (IsOrigin localId (history ++ [command]) key d ∧ q = make key d ∨
          IsOrigin localId history other d ∧ q = make other d)) ∧
    (∀ i metadata payload summary created source,
      command = .replicate i key metadata payload → metadata.source = some source →
      use.1 = .outcome (.ok (.conflict summary created)) →
      ∃ side, use.2.1.records.find? (make key source) = some side ∧
        side.etag = before.1.lastEtag.next ∧ side.metadata.identity = metadata.identity ∧
        side.metadata.conflictSide = true) ∧
    (∀ r, before.1.records.find? key = some r →
      (∀ r', use.2.1.records.find? key = some r' → r'.marker? = none) →
      ∀ shadow ∈ r.sides, use.2.1.records.find? shadow = none) := by
  intro before use
  -- whatever a marker lists is made of an origin that the history has brought
  have horigins := listsOrigins_runAll kind localId hsingle w
  have hadvanced : Advanced kind localId before.1 command use.2.1 :=
    run_advanced kind localId command before.1 before.2
  have hsingle' : command.IsSingle := by
    cases command with
    | batch => cases hcommand
    | _ => trivial
  refine ⟨?_, ?_, ?_⟩
  · -- another item: a name of both items is made of an odd origin, and others are not touched
    intro other hkey hother hne q hq
    by_cases hnamed : Names localId (history ++ [command]) key q
    · have hnamed' : Names localId history other q := by
        rcases hq with rfl | ⟨r, hread, hlisted⟩
        · exact .inl rfl
        · exact .inr (horigins other r hread q hlisted)
      exact .inr (odd_origin_of_names hkey hother hne hnamed hnamed')
    · exact .inl (find?_of_not_named horigins hcommand hsingle' hadvanced hnamed)
  · -- a conflict stores the write under the shadow of its node
    rintro i metadata payload summary created source rfl hsource hanswer
    obtain ⟨result, m', notes, w', htaken, hrun⟩ :=
      run_replicate kind localId i key metadata payload before
    have huse : use = (.outcome result, committed i before.1 m' notes w' result) := hrun
    rw [huse] at hanswer ⊢
    obtain rfl := Reply.outcome.inj hanswer
    exact side_of_conflict hsource htaken
  · -- the end of a conflict removes what was listed
    intro r hread hended shadow hlisted
    exact removed_of_ended hcommand hread hlisted hended hadvanced

/-- Two writes of `l` dispute, and `k` is stored. -/
def disputeOfL : List (Command String Unit) :=
  [.replicate {} "l" (.ofId "a" 1) (some "a1"), .replicate {} "l" (.ofId "b" 1) (some "b1"),
    .replicate {} "k" (.ofId "a" 2) (some "a2")]

/-- A conflict of `k` does not touch the sides of `l`. -/
theorem sides_of_l_kept :
    let before := (Command.runAll (backend .document "L") disputeOfL ({}, ())).2
    let use := (Command.replicate {} "k" (.ofId "c" 1) (some "c1")).run (backend .document "L") before
    use.1 = .outcome (.ok (.conflict ⟨⟨8⟩, ["k/conflicts/L", "k/conflicts/c"]⟩ true)) ∧
      ∀ q ∈ ["l", "l/conflicts/L", "l/conflicts/b"],
        use.2.1.records.find? q = before.1.records.find? q := by
  intro before use
  have hsegment : ∀ d ∈ ["L", "a", "b", "c"], IsDiscriminator d := by
    simp only [List.forall_mem_cons, List.not_mem_nil, false_implies, implies_true, and_true]
    refine ⟨⟨?_, ?_⟩, ⟨?_, ?_⟩, ⟨?_, ?_⟩, ?_, ?_⟩ <;> decide +kernel
  -- nobody but `L`, `a`, `b` and `c` has a part in this
  have horigin : ∀ history ⊆ disputeOfL ++ [.replicate {} "k" (.ofId "c" 1) (some "c1")],
      ∀ key d, IsOrigin "L" history key d → IsDiscriminator d := by
    rintro history hsub key d (rfl | ⟨i, metadata, payload, hmem, hsource⟩)
    · exact hsegment _ (by decide)
    · have hmem' := hsub hmem
      simp only [disputeOfL, List.cons_append, List.nil_append, List.mem_cons, List.not_mem_nil,
        or_false, Command.replicate.injEq] at hmem'
      obtain ⟨-, -, rfl, -⟩ | ⟨-, -, rfl, -⟩ | ⟨-, -, rfl, -⟩ | ⟨-, -, rfl, -⟩ := hmem' <;>
        exact hsegment d (by cases hsource; decide)
  have hsingle : ∀ command ∈ disputeOfL, command.IsSingle := by simp [disputeOfL, Command.IsSingle]
  have hkey : (Command.replicate {} "k" (.ofId "c" 1) (some "c1") : Command String Unit).key? =
      some "k" := rfl
  obtain ⟨hkept, -, -⟩ := kept_unless_misnamed .document "L" hsingle () hkey
  have hread : before.1.records.find? "l" =
      some ⟨.marker ⟨["l/conflicts/L", "l/conflicts/b"]⟩, ⟨4⟩, { conflict := true }⟩ := by
    decide +kernel
  refine ⟨rfl, fun q hq => ?_⟩
  have hname : q = "l" ∨ ∃ r, before.1.records.find? "l" = some r ∧ q ∈ r.sides := by
    rcases List.mem_cons.1 hq with rfl | hlisted
    · exact .inl rfl
    · exact .inr ⟨_, hread, hlisted⟩
  rcases hkept "l" ⟨by decide, by decide +kernel⟩ ⟨by decide, by decide +kernel⟩ (by decide) q hname
    with hsame | ⟨d, hodd, ⟨horigin', -⟩ | ⟨horigin', -⟩⟩
  · exact hsame
  · exact absurd (horigin _ (List.Subset.refl _) _ d horigin') hodd
  · exact absurd (horigin _ (List.subset_append_left _ _) _ d horigin') hodd

/-- An item with a key that is no shadow key, and `k`. -/
def itemBesideK : List (Command String Unit) :=
  [.putLocal "k/conflicts/a/b" "x1" 50, .replicate {} "k" (.ofId "z" 1) (some "z1")]

/-- It is not so that a use of one item leaves all others as they are: a write whose node is named
with a slash becomes a side of `k` in the place of another item. -/
theorem slashed_source_replaces_item :
    ¬ ∀ (history : List (Command String Unit)) (command : Command String Unit) (key other : String),
      (∀ c ∈ history, c.IsSingle ∧ ∀ q, c.key? = some q → IsPrimary q) →
      command.key? = some key → IsPrimary key → IsPrimary other → other ≠ key →
      let before := (Command.runAll (backend .document "L") history ({}, ())).2
      (command.run (backend .document "L") before).2.1.records.find? other =
        before.1.records.find? other := by
  intro h
  have hitem : IsPrimary "k/conflicts/a/b" := ⟨by decide, by decide +kernel⟩
  have hk : IsPrimary "k" := ⟨by decide, by decide +kernel⟩
  have hkept := h itemBesideK (.replicate {} "k" (.ofId "a/b" 1) (some "b1")) "k" "k/conflicts/a/b"
    (by simp [itemBesideK, Command.IsSingle, Command.key?, hitem, hk]) rfl hk hitem (by decide)
  revert hkept
  decide +kernel

end ReplicaIntake.Memory
