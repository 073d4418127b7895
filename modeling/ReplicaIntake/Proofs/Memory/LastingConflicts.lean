import ReplicaIntake.Proofs.Memory.Etags
import ReplicaIntake.Proofs.Memory.Namesakes

/-!
# Conflicts last until they are resolved

While no policy decides and no local resolution is made, a key that holds a marker keeps it. A use
of another item does not come near it, a local write of the key is refused, and a write that is
taken in is known, or is refused, or replaces the side of its node, or adds one shadow to the list
(`lengthened_run`). So over a whole history the list only grows at its end, and the marker is
untouched as long as it does not grow (`conflict_lasts`).
-/

namespace ReplicaIntake.Memory

open ShadowKey (IsDiscriminator make)

variable {α ω : Type} {kind : ItemKind} {localId key : String} {m m' : Memory α}
  {r r' r'' : Record α} {marker : Marker}

/-- The use is about an item and ends no conflict: it takes in a write without a policy, from a node
that is named by a path segment, or it is a local put or deletion, or it reads. -/
inductive Unsettling : Command α ω → Prop
  | replicate {i : Intake α ω} {key : String} {metadata : Metadata} {payload : Option α}
      (hkey : IsPrimary key) (hresolver : i.resolver = Resolver.chain [])
      (hsources : ∀ source, metadata.source = some source → IsDiscriminator source) :
    Unsettling (.replicate i key metadata payload)
  | putLocal {key : String} {payload : α} {max : Nat} (hkey : IsPrimary key) :
    Unsettling (.putLocal key payload max)
  | deleteLocal {key : String} {max : Nat} (hkey : IsPrimary key) :
    Unsettling (.deleteLocal key max)
  | get {key : String} : Unsettling (.get key)

/-- The record is a marker that has come of the marker `r`: it is `r`, or it lists more shadows
after those of `r`. -/
structure Outgrown (r r' : Record α) : Prop where
  marker : ∃ marker, r'.content = .marker marker
  shadows : r.sides <+: r'.sides
  metadata : r'.metadata = r.metadata
  /-- What does not grow is not written. -/
  same : r'.sides = r.sides → r' = r

theorem outgrown_refl (hmarker : r.content = .marker marker) : Outgrown r r where
  marker := ⟨marker, hmarker⟩
  shadows := List.prefix_rfl
  metadata := rfl
  same _ := rfl

theorem outgrown_trans (h : Outgrown r r') (h' : Outgrown r' r'') : Outgrown r r'' where
  marker := h'.marker
  shadows := h.shadows.trans h'.shadows
  metadata := h'.metadata.trans h.metadata
  same hsame := by
    -- the list in between is neither shorter nor longer
    have hlength : r'.sides.length ≤ r.sides.length := hsame ▸ h'.shadows.length_le
    have hfirst : r.sides = r'.sides := h.shadows.eq_of_length_le hlength
    rw [h'.same (hsame.trans hfirst), h.same hfirst.symm]

/-! ## §1 One use -/

/-- What a use makes of the record `r` under a key in conflict: it keeps it, or it takes in a write
of the key whose shadow was not listed and lists that last. -/
inductive Lengthened (key : String) (r : Record α) (m' : Memory α) : Command α ω → Prop
  | kept {command : Command α ω} (hread : m'.records.find? key = some r) :
    Lengthened key r m' command
  | joined {i : Intake α ω} {metadata : Metadata} {payload : Option α} {source : String}
      {etag : Etag} (hsource : metadata.source = some source) (hnew : make key source ∉ r.sides)
      (hread : m'.records.find? key =
        some ⟨.marker ⟨r.sides ++ [make key source]⟩, etag, r.metadata⟩) :
    Lengthened key r m' (.replicate i key metadata payload)

/-- Without a policy, a write that is taken in at a key in conflict is listed last or keeps the
marker. -/
theorem lengthened_of_taken {i : Intake α ω} {metadata : Metadata} {payload : Option α} {w w' : ω}
    {outcome : Outcome} {notes : List Notification} (hresolver : i.resolver = Resolver.chain [])
    (hread : m.records.find? key = some r) (hmarker : r.content = .marker marker)
    (htaken : Taken i kind localId key m w metadata payload (.ok outcome) m' notes w') :
    Lengthened key r m' (.replicate i key metadata payload) := by
  cases htaken with
  | created _ _ _ habsent => simp [hread] at habsent
  | ignored => exact .kept hread
  | met hread' _ hmet =>
    obtain rfl := Option.some.inj (hread.symm.trans hread')
    rcases met_of_marker hresolver (isMarker_of_content hmarker) hmet with
      ⟨-, -, rfl, -, -⟩ | ⟨-, -, hcontended⟩
    · exact .kept hread
    · cases hcontended with
      | created _ _ hplain => exact absurd hmarker (content_ne_marker hplain marker)
      | joined hsource _ hlisted hnew hm =>
        rw [← sides_of_content hlisted] at hnew hm
        have hlonger := congrArg (fun m => m.records.find? key) hm
        rw [find?_write, if_pos rfl] at hlonger
        exact .joined (by simpa using hsource) hnew hlonger
      | rewritten =>
        -- only the side of the node is written, so the etag of the marker stays too
        apply Lengthened.kept
        rw [find?_withSide, if_neg (ShadowKey.make_ne_primary key _).symm, hread]

/-- One use on the key of a conflict. -/
theorem lengthened_run {command : Command α ω} (hcommand : Unsettling command)
    (hkey : command.key? = some key) (hread : m.records.find? key = some r)
    (hmarker : r.content = .marker marker) (w : ω) :
    Lengthened key r (command.run (backend kind localId) (m, w)).2.1 command := by
  have hheld : (m.records.find? key).bind (·.marker?) = some marker := by
    simp [hread, marker?_of_content hmarker]
  cases hcommand with
  | @replicate i _ metadata payload _ hresolver _ =>
    obtain rfl := Option.some.inj hkey
    obtain ⟨result, m', notes, w', htaken, hrun⟩ :=
      run_replicate kind localId i _ metadata payload (m, w)
    rw [hrun]
    cases result with
    | ok outcome => exact lengthened_of_taken hresolver hread hmarker htaken
    | error e => exact .kept hread
  | @putLocal _ payload max =>
    obtain rfl := Option.some.inj hkey
    simp only [Command.run, putLocal_of_marker kind localId payload max w hheld]
    exact .kept hread
  | @deleteLocal _ max =>
    obtain rfl := Option.some.inj hkey
    simp only [Command.run, deleteLocal_of_marker kind localId max w hheld]
    exact .kept hread
  | get => cases hkey

/-! ## §2 Points of a history -/

variable (kind localId)

/-- The store and the world after the first `n` uses of a history. -/
def afterUses (history : List (Command α ω)) (w : ω) (n : Nat) : Memory α × ω :=
  (Command.runAll (backend kind localId) (history.take n) ({}, w)).2

variable {kind localId} {history : List (Command α ω)} {w : ω}

theorem afterUses_succ {n : Nat} {command : Command α ω} (hcommand : history[n]? = some command) :
    afterUses kind localId history w (n + 1) =
      (command.run (backend kind localId) (afterUses kind localId history w n)).2 := by
  have htake : history.take (n + 1) = history.take n ++ [command] := by
    rw [List.take_add_one, hcommand, Option.toList_some]
  simp only [afterUses, htake, runAll_append, Command.runAll]

theorem afterUses_end {n : Nat} (hend : history[n]? = none) :
    afterUses kind localId history w (n + 1) = afterUses kind localId history w n := by
  have htake : history.take (n + 1) = history.take n := by
    rw [List.take_add_one, hend, Option.toList_none, List.append_nil]
  rw [afterUses, htake, afterUses]

/-- Every origin in a history of such uses is a path segment. -/
theorem segment_of_origin (hlocal : IsDiscriminator localId)
    (hhistory : ∀ command ∈ history, Unsettling command) {d : String}
    (horigin : IsOrigin localId history key d) : IsDiscriminator d := by
  rcases horigin with rfl | ⟨i, metadata, payload, hmem, hsource⟩
  · exact hlocal
  · cases hhistory _ hmem with
    | replicate _ _ hsources => exact hsources d hsource

theorem Unsettling.single {command : Command α ω} (h : Unsettling command) : command.IsSingle := by
  cases h <;> trivial

theorem Unsettling.primary {command : Command α ω} (h : Unsettling command)
    (hkey : command.key? = some key) : IsPrimary key := by
  cases h with
  | get => cases hkey
  | replicate hprimary => exact Option.some.inj hkey ▸ hprimary
  | putLocal hprimary => exact Option.some.inj hkey ▸ hprimary
  | deleteLocal hprimary => exact Option.some.inj hkey ▸ hprimary

/-- The next use lengthens the list of a conflict or keeps the marker, whichever key it is about. -/
theorem lengthened_succ (hlocal : IsDiscriminator localId)
    (hhistory : ∀ command ∈ history, Unsettling command) (hkey : IsPrimary key) {n : Nat}
    {command : Command α ω} (hcommand : history[n]? = some command)
    (hread : (afterUses kind localId history w n).1.records.find? key = some r)
    (hmarker : r.content = .marker marker) :
    Lengthened key r (afterUses kind localId history w (n + 1)).1 command := by
  have hmem : command ∈ history := List.mem_of_getElem? hcommand
  have hsettles : Unsettling command := hhistory command hmem
  rw [afterUses_succ hcommand]
  cases hq : command.key? with
  | none =>
    -- a use that is about no key reads
    cases hsettles with
    | get => exact .kept hread
    | _ => cases hq
  | some q =>
    by_cases hsame : q = key
    · exact lengthened_run hsettles (hq.trans (congrArg some hsame)) hread hmarker _
    · have hbefore : ∀ c ∈ history.take n ++ [command], Unsettling c := by
        intro c hc
        rcases List.mem_append.1 hc with hc | hc
        · exact hhistory c (List.mem_of_mem_take hc)
        · exact List.mem_singleton.1 hc ▸ hsettles
      have horigins : EveryRecord (ListsOrigins localId (history.take n))
          (afterUses kind localId history w n).1 :=
        listsOrigins_runAll kind localId
          (fun c hc => (hbefore c (List.mem_append_left _ hc)).single) w
      have hadvanced := run_advanced kind localId command
        (afterUses kind localId history w n).1 (afterUses kind localId history w n).2
      apply Lengthened.kept
      refine (find?_of_not_named horigins hq hsettles.single hadvanced ?_).trans hread
      -- the key would have to be a shadow of the other item
      intro hnamed
      have hself : Names localId history key key := .inl rfl
      obtain ⟨d, hodd, ⟨horigin, -⟩ | ⟨-, hmake⟩⟩ :=
        odd_origin_of_names (hsettles.primary hq) hkey (Ne.symm hsame) hnamed hself
      · exact hodd (segment_of_origin hlocal hbefore horigin)
      · exact ShadowKey.make_ne_primary key d hmake.symm

/-! ## §3 Whole histories -/

theorem outgrown_of_lengthened {command : Command α ω} (hmarker : r.content = .marker marker)
    (h : Lengthened key r m' command) : ∃ r', m'.records.find? key = some r' ∧ Outgrown r r' := by
  cases h with
  | kept hread => exact ⟨r, hread, outgrown_refl hmarker⟩
  | joined hsource hnew hread =>
    refine ⟨_, hread, ⟨⟨_, rfl⟩, List.prefix_append _ _, rfl, fun hsame => ?_⟩⟩
    -- the list is longer by one
    have hlength := congrArg List.length hsame
    simp [Record.sides, Record.marker?] at hlength

theorem outgrown_later (hlocal : IsDiscriminator localId)
    (hhistory : ∀ command ∈ history, Unsettling command) (hkey : IsPrimary key) {i : Nat}
    (hread : (afterUses kind localId history w i).1.records.find? key = some r)
    (hmarker : r.content = .marker marker) (n : Nat) :
    ∃ r', (afterUses kind localId history w (i + n)).1.records.find? key = some r' ∧
      Outgrown r r' := by
  -- on the number of uses in between; past the end of the history there are none
  induction n with
  | zero => exact ⟨r, hread, outgrown_refl hmarker⟩
  | succ n ih =>
    obtain ⟨r', hread', hgrown⟩ := ih
    obtain ⟨marker', hmarker'⟩ := hgrown.marker
    cases hcommand : history[i + n]? with
    | none =>
      rw [← Nat.add_assoc, afterUses_end hcommand]
      exact ⟨r', hread', hgrown⟩
    | some command =>
      obtain ⟨r'', hread'', hgrown'⟩ := outgrown_of_lengthened hmarker'
        (lengthened_succ hlocal hhistory hkey hcommand hread' hmarker')
      exact ⟨r'', hread'', outgrown_trans hgrown hgrown'⟩

/-- Uses by themselves are turns of a store. -/
theorem turns_of_uses (kind : ItemKind) (localId : String) (history : List (Command α ω))
    (s : Memory α × ω) : Turn.runAll (backend kind localId) (history.map .use) s =
      Command.runAll (backend kind localId) history s := by
  induction history generalizing s with
  | nil => rfl
  | cons command rest ih => simp only [List.map_cons, Turn.runAll, Turn.run, Command.runAll, ih]

theorem stored_uses (n : Nat) :
    stored kind localId (history.map .use) w n = (afterUses kind localId history w n).1 := by
  rw [stored, overlay_runAll, ← List.map_take, turns_of_uses, afterUses]

/-- A record that was written after another one has a larger etag, as long as fewer than 2^64
records are written. -/
theorem same_or_later (turns : List (Turn α ω))
    (hcount : (written (changed kind localId turns w turns.length)).length < 2 ^ 64) {i j : Nat}
    (hij : i ≤ j) (hread : (stored kind localId turns w i).records.find? key = some r)
    (hread' : (stored kind localId turns w j).records.find? key = some r') :
    r' = r ∨ r.etag.value < r'.etag.value := by
  obtain ⟨later, hlater, hevolved⟩ := evolved_between kind localId turns w hij
  rw [hevolved.records] at hread'
  rcases written_or_untouched hread' with hwritten | ⟨hbefore, -⟩
  · exact .inr (etag_lt_of_later kind localId turns w hcount hlater hevolved hread hwritten)
  · exact .inl (Option.some.inj (hbefore.symm.trans hread))

/-- A local write of a key in conflict is refused, and nothing is changed, not even a count. -/
theorem run_refused (kind : ItemKind) (localId : String) {s : Memory α × ω}
    (hread : s.1.records.find? key = some r) (hmarker : r.content = .marker marker) :
    (∀ payload max, (Command.putLocal key payload max).run (backend kind localId) s =
      (.written (.error (.conflicted key marker.shadows)), s)) ∧
    ∀ max, (Command.deleteLocal key max).run (backend kind localId) s =
      (.written (.error (.conflicted key marker.shadows)), s) := by
  obtain ⟨m, w⟩ := s
  have hheld : (m.records.find? key).bind (·.marker?) = some marker := by
    rw [hread]
    exact marker?_of_content hmarker
  constructor
  · intro payload max
    simp only [Command.run, putLocal_of_marker kind localId payload max w hheld]
    rfl
  · intro max
    simp only [Command.run, deleteLocal_of_marker kind localId max w hheld]

/-- In a history of uses that end no conflict, a key that holds a marker holds one at every later
point. The list of shadows there begins with the earlier list, the metadata is the same, and the
record is the same one unless the list is longer. A single use adds one shadow at most, which was
not listed. The etag differs exactly if the list does, and is larger then, as long as fewer than
2^64 records are written. A local put or deletion of the key is refused at every such point, and
leaves the store and its counts as they are. -/
theorem conflict_lasts (kind : ItemKind) {localId : String} (hlocal : IsDiscriminator localId)
    {history : List (Command α ω)} (hhistory : ∀ command ∈ history, Unsettling command) (w : ω)
    {key : String} (hkey : IsPrimary key) {i j : Nat} (hij : i ≤ j) {r : Record α} {marker : Marker}
    (hread : (afterUses kind localId history w i).1.records.find? key = some r)
    (hmarker : r.content = .marker marker) :
    ∃ r' marker', (afterUses kind localId history w j).1.records.find? key = some r' ∧
      r'.content = .marker marker' ∧
      marker.shadows <+: marker'.shadows ∧ r'.metadata = r.metadata ∧
      (marker'.shadows = marker.shadows → r' = r) ∧
      (j = i + 1 → marker'.shadows ≠ marker.shadows →
        ∃ intake metadata payload source,
          history[i]? = some (.replicate intake key metadata payload) ∧
          metadata.source = some source ∧ make key source ∉ marker.shadows ∧
          marker'.shadows = marker.shadows ++ [make key source]) ∧
      ((written (changed kind localId (history.map .use) w history.length)).length < 2 ^ 64 →
        (r'.etag ≠ r.etag ↔ marker'.shadows ≠ marker.shadows) ∧
        (marker'.shadows ≠ marker.shadows → r.etag.value < r'.etag.value)) ∧
      (∀ payload max, (Command.putLocal key payload max).run (backend kind localId)
          (afterUses kind localId history w j) =
        (.written (.error (.conflicted key marker'.shadows)),
          afterUses kind localId history w j)) ∧
      ∀ max, (Command.deleteLocal key max).run (backend kind localId)
          (afterUses kind localId history w j) =
        (.written (.error (.conflicted key marker'.shadows)),
          afterUses kind localId history w j) := by
  obtain ⟨n, rfl⟩ := Nat.exists_eq_add_of_le hij
  -- `n` uses later there is a marker that has outgrown this one
  obtain ⟨r', hread', hgrown⟩ := outgrown_later hlocal hhistory hkey hread hmarker n
  obtain ⟨marker', hmarker'⟩ := hgrown.marker
  -- what `Outgrown` says of sides is said of the two markers
  have hshadows : marker.shadows <+: marker'.shadows := by
    rw [← sides_of_content hmarker, ← sides_of_content hmarker']
    exact hgrown.shadows
  have hsame : marker'.shadows = marker.shadows → r' = r := by
    rw [← sides_of_content hmarker, ← sides_of_content hmarker']
    exact hgrown.same
  refine ⟨r', marker', hread', hmarker', hshadows, hgrown.metadata, hsame, ?_, ?_,
    run_refused kind localId hread' hmarker'⟩
  · -- one use lengthens the list by one shadow, and only a write with another origin does
    intro hnext hlonger
    obtain rfl : n = 1 := by omega
    cases hcommand : history[i]? with
    | none =>
      -- past the end of the history nothing changes
      rw [afterUses_end hcommand] at hread'
      obtain rfl := Option.some.inj (hread.symm.trans hread')
      exact absurd (congrArg (·.shadows) (Content.marker.inj (hmarker'.symm.trans hmarker))) hlonger
    | some command =>
      cases lengthened_succ hlocal hhistory hkey hcommand hread hmarker with
      | kept hkept =>
        obtain rfl := Option.some.inj (hkept.symm.trans hread')
        exact absurd (congrArg (·.shadows) (Content.marker.inj (hmarker'.symm.trans hmarker)))
          hlonger
      | joined hsource hnew hjoined =>
        obtain rfl := Option.some.inj (hjoined.symm.trans hread')
        obtain rfl := Content.marker.inj hmarker'
        rw [sides_of_content hmarker] at hnew
        exact ⟨_, _, _, _, rfl, hsource, hnew, by rw [sides_of_content hmarker]⟩
  · -- the store hands out etags in order, so a record that differs has a larger one
    intro hcount
    have hlater : r' = r ∨ r.etag.value < r'.etag.value := by
      apply same_or_later (history.map .use) (by rwa [List.length_map]) hij
      · rw [stored_uses]
        exact hread
      · rw [stored_uses]
        exact hread'
    have hlarger : marker'.shadows ≠ marker.shadows → r.etag.value < r'.etag.value := by
      intro hlonger
      refine hlater.resolve_left ?_
      rintro rfl
      exact hlonger (congrArg (·.shadows) (Content.marker.inj (hmarker'.symm.trans hmarker)))
    refine ⟨⟨fun hetag hunchanged => hetag ?_, fun hlonger hetag => ?_⟩, hlarger⟩
    · -- with the same list it is the same record, etag and all
      rw [hsame hunchanged]
    · have hlt := hlarger hlonger
      rw [hetag] at hlt
      exact UInt64.lt_irrefl _ hlt

/-- Two writes of `k` dispute; then come a local put, a third node, a repetition, a later write of
the second node, and a write of another item. -/
def disputeGoesOn : List (Command String Unit) :=
  [.replicate {} "k" (.ofId "a" 1) (some "a1"), .replicate {} "k" (.ofId "b" 1) (some "b1"),
    .putLocal "k" "here" 50, .replicate {} "k" (.ofId "c" 1) (some "c1"),
    .replicate {} "k" (.ofId "b" 1) (some "b1"), .replicate {} "k" (.ofId "b" 2) (some "b2"),
    .putLocal "l" "there" 50]

/-- The marker that the second write left lists the third node in the end and has a larger etag,
and local puts are refused with the three sides. -/
theorem dispute_lists_third :
    (∀ command ∈ disputeGoesOn, Unsettling command) ∧
    ∃ r', (afterUses .document "L" disputeGoesOn () 7).1.records.find? "k" = some r' ∧
      r'.metadata = { conflict := true } ∧ 4 < r'.etag.value ∧
      ∀ payload max, (Command.putLocal "k" payload max).run (backend .document "L")
          (afterUses .document "L" disputeGoesOn () 7) =
        (.written (.error (.conflicted "k" ["k/conflicts/L", "k/conflicts/b", "k/conflicts/c"])),
          afterUses .document "L" disputeGoesOn () 7) := by
  have hk : IsPrimary "k" := ⟨by decide, by decide +kernel⟩
  have hl : IsPrimary "l" := ⟨by decide, by decide +kernel⟩
  have hsegment : ∀ {d source : String}, IsDiscriminator d → some d = some source →
      IsDiscriminator source := by
    rintro d _ hd ⟨rfl⟩
    exact hd
  have hunsettling : ∀ command ∈ disputeGoesOn, Unsettling command := by
    simp only [disputeGoesOn, List.forall_mem_cons, List.not_mem_nil, false_implies, implies_true,
      and_true]
    exact ⟨.replicate hk rfl fun _ => hsegment ⟨by decide, by decide +kernel⟩,
      .replicate hk rfl fun _ => hsegment ⟨by decide, by decide +kernel⟩, .putLocal hk,
      .replicate hk rfl fun _ => hsegment ⟨by decide, by decide +kernel⟩,
      .replicate hk rfl fun _ => hsegment ⟨by decide, by decide +kernel⟩,
      .replicate hk rfl fun _ => hsegment ⟨by decide, by decide +kernel⟩, .putLocal hl⟩
  have hfirst : (afterUses .document "L" disputeGoesOn () 2).1.records.find? "k" =
      some ⟨.marker ⟨["k/conflicts/L", "k/conflicts/b"]⟩, ⟨4⟩, { conflict := true }⟩ := by
    decide +kernel
  have hlast : ((afterUses .document "L" disputeGoesOn () 7).1.records.find? "k").map (·.content) =
      some (.marker ⟨["k/conflicts/L", "k/conflicts/b", "k/conflicts/c"]⟩) := by
    decide +kernel
  obtain ⟨r', marker', hread, hmarker, -, hmetadata, -, -, hetag, hput, -⟩ :=
    conflict_lasts .document ⟨by decide, by decide +kernel⟩ hunsettling () hk (by decide : 2 ≤ 7)
      hfirst rfl
  rw [hread, Option.map_some, hmarker] at hlast
  obtain rfl : marker' = ⟨["k/conflicts/L", "k/conflicts/b", "k/conflicts/c"]⟩ := by
    simpa using hlast
  exact ⟨hunsettling, r', hread, hmetadata, (hetag (by decide +kernel)).2 (by decide), hput⟩

end ReplicaIntake.Memory
