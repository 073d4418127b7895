import Mathlib.Data.List.Induction
import ReplicaIntake.Proofs.CounterTotals
import ReplicaIntake.Proofs.Policies
import ReplicaIntake.Proofs.Memory.Histories

/-!
# Runs of counter puts

A store of counters takes in puts of one key, and its policy merges concurrent counters. The counter
that is stored is the least upper bound of its *contributions*: the payload that was stored outright
last, and what was merged into it since (`Standing`). But it is stored under the identity of the
write that was merged last, and a put that descends from that identity replaces it whole. Such a put
is only bound to dominate the last contribution, so it loses what it does not dominate of the
others (`totals_kept_iff`).
-/

namespace ReplicaIntake.Memory

variable {ω : Type}

/-! ## §1 Puts and contributions -/

/-- A replicated put of a counter. -/
structure Publication where
  metadata : Metadata
  totals : Counter
  isPut : metadata.deleted = false

/-- The use of a store that takes the put in. -/
def Publication.command (i : Intake Counter ω) (key : String) (x : Publication) :
    Command Counter ω :=
  .replicate i key x.metadata (some x.totals)

/-- The contributions after one more put, according to the reply: a put that is stored outright is
the only one, and a put that is merged is one more. -/
def contribute (contributions : List Counter) (totals : Counter) : Reply Counter → List Counter
  | .outcome (.ok .created) => [totals]
  | .outcome (.ok .overwritten) => [totals]
  | .outcome (.ok .resolved) => contributions ++ [totals]
  | _ => contributions

/-- The contributions to the stored counter after puts with the given replies. -/
def contributions (puts : List Publication) (replies : List (Reply Counter)) : List Counter :=
  (puts.zip replies).foldl (fun seen p => contribute seen p.1.totals p.2) []

/-- The replies to the puts, and what they leave of the store and the world. -/
def published (i : Intake Counter ω) (localId key : String) (s : Memory Counter × ω)
    (puts : List Publication) : List (Reply Counter) × (Memory Counter × ω) :=
  Command.runAll (backend .counter localId) (puts.map (Publication.command i key)) s

theorem published_concat (i : Intake Counter ω) (localId key : String) (s : Memory Counter × ω)
    (puts : List Publication) (x : Publication) :
    published i localId key s (puts ++ [x]) =
      ((published i localId key s puts).1 ++
        [((x.command i key).run (backend .counter localId)
          (published i localId key s puts).2).1],
      ((x.command i key).run (backend .counter localId) (published i localId key s puts).2).2) := by
  rw [published, List.map_append, runAll_append]
  rfl

theorem contributions_concat (i : Intake Counter ω) (localId key : String)
    (s : Memory Counter × ω) (puts : List Publication) (x : Publication) :
    contributions (puts ++ [x]) (published i localId key s (puts ++ [x])).1 =
      contribute (contributions puts (published i localId key s puts).1) x.totals
        ((x.command i key).run (backend .counter localId)
          (published i localId key s puts).2).1 := by
  -- there is a reply to each put, so the lists can be put together part by part
  have hlength : puts.length = (published i localId key s puts).1.length := by
    rw [published, length_runAll, List.length_map]
  rw [published_concat, contributions, List.zip_append hlength, List.foldl_append]
  rfl

/-! ## §2 What is stored -/

/-- The counter under `key`, if one is stored. -/
def counterAt (m : Memory Counter) (key : String) : Option Counter :=
  (m.records.find? key).bind Record.data?

/-- The counter that was stored under `key`, if any, is at most the one that is stored now. -/
def TotalsKept (key : String) (m m' : Memory Counter) : Prop :=
  ∀ before, counterAt m key = some before → ∃ after, counterAt m' key = some after ∧ before ≤ after

instance (key : String) (m m' : Memory Counter) : Decidable (TotalsKept key m m') :=
  decidable_of_iff ((counterAt m key).all fun before =>
    (counterAt m' key).any fun after => decide (before ≤ after)) (by
      simp [TotalsKept, Option.all_eq_true, Option.any_eq_true])

/-- What the store holds under `key` after the given puts: nothing, or the least upper bound of the
contributions, under the identity of the put that contributed last. -/
inductive Standing (key : String) (puts : List Publication) (m : Memory Counter) :
    List Counter → Prop
  | absent (habsent : m.records.find? key = none) : Standing key puts m []
  | stored {r : Record Counter} {counter : Counter} {earlier : List Counter} {last : Publication}
      (hread : m.records.find? key = some r) (hdata : r.content = .data counter)
      (hlast : last ∈ puts) (hid : last.metadata.identity ≠ none)
      (hidentity : r.metadata.identity = last.metadata.identity)
      (hbound : ∀ bound, counter ≤ bound ↔ ∀ c ∈ earlier ++ [last.totals], c ≤ bound) :
    Standing key puts m (earlier ++ [last.totals])

theorem counterAt_of_read {m : Memory Counter} {key : String} {r : Record Counter}
    {counter : Counter} (hread : m.records.find? key = some r) (hdata : r.content = .data counter) :
    counterAt m key = some counter := by
  simp [counterAt, hread, Record.data?, hdata]

/-- What is replaced is kept if the new counter is at least the old one, and only then. -/
theorem totalsKept_iff {m m' : Memory Counter} {key : String} {before after : Counter}
    (h : counterAt m key = some before) (h' : counterAt m' key = some after) :
    TotalsKept key m m' ↔ before ≤ after := by
  constructor
  · intro hkept
    obtain ⟨after', hafter, hle⟩ := hkept before h
    obtain rfl := Option.some.inj (h'.symm.trans hafter)
    exact hle
  · intro hle before' hbefore
    obtain rfl := Option.some.inj (h.symm.trans hbefore)
    exact ⟨after, h', hle⟩

theorem totalsKept_refl (key : String) (m : Memory Counter) : TotalsKept key m m :=
  fun before h => ⟨before, h, Counter.le_refl before⟩

/-- More puts do not change what stands. -/
theorem standing_mono {key : String} {puts : List Publication} {m : Memory Counter}
    {contributions : List Counter} (h : Standing key puts m contributions) (x : Publication) :
    Standing key (puts ++ [x]) m contributions := by
  cases h with
  | absent habsent => exact .absent habsent
  | stored hread hdata hlast hid hidentity hbound =>
    exact .stored hread hdata (List.mem_append_left _ hlast) hid hidentity hbound

/-! ## §3 One put -/

/-- What a put can lead to when the key holds a counter or nothing and the policy merges
counters. -/
inductive Deposited (i : Intake Counter ω) (key : String) (x : Publication) (m : Memory Counter) :
    Except (IntakeError StoreError) Outcome → Memory Counter → Prop
  /-- The put is known, older than what is stored, or refused. -/
  | unchanged {result : Except (IntakeError StoreError) Outcome} (hcreated : result ≠ .ok .created)
      (hover : result ≠ .ok .overwritten) (hmerged : result ≠ .ok .resolved) :
    Deposited i key x m result m
  /-- The put is stored under an absent key. -/
  | created (hid : x.metadata.identity ≠ none) (habsent : m.records.find? key = none) :
    Deposited i key x m (.ok .created)
      (m.write key (.data x.totals) (x.metadata.bounded i.config.maxHistory))
  /-- The put lists the stored identity and replaces the counter. -/
  | overwritten {existing : Record Counter} (hid : x.metadata.identity ≠ none)
      (hread : m.records.find? key = some existing)
      (hlisted : ∀ current, existing.metadata.identity = some current →
        current ∈ x.metadata.lineage) :
    Deposited i key x m (.ok .overwritten)
      (m.write key (.data x.totals) (i.arrived x.metadata existing.metadata))
  /-- The put is merged into the counter, which takes on its identity. -/
  | merged {existing : Record Counter} {counter : Counter} {metadata : Metadata}
      (hid : x.metadata.identity ≠ none) (hread : m.records.find? key = some existing)
      (hdata : existing.content = .data counter)
      (hidentity : metadata.identity = x.metadata.identity) :
    Deposited i key x m (.ok .resolved) (m.write key (.data (counter.merge x.totals)) metadata)

theorem deposited_of_met {i : Intake Counter ω} {localId key : String} {x : Publication}
    {m m' : Memory Counter} {w w' : ω} {existing : Record Counter} {counter : Counter}
    {result : Except (IntakeError StoreError) Outcome} {notes : List Notification}
    (hresolver : i.resolver = Resolver.mergeCounters) (hid : x.metadata.identity ≠ none)
    (hread : m.records.find? key = some existing) (hdata : existing.content = .data counter)
    (hmet : Met i .counter localId key m w x.metadata (some x.totals) existing result m' notes w') :
    Deposited i key x m result m' := by
  have hput := x.isPut
  -- the policy decides whenever it is asked
  have hdecision : i.resolver key (i.arrived x.metadata existing.metadata)
      (x.metadata.carried (some x.totals)) existing =
        .ok (some (.keep ((i.arrived x.metadata existing.metadata).descendFromBoth
          existing.metadata) (counter.merge x.totals))) := by
    have hcarried : x.metadata.carried (some x.totals) = some x.totals := by
      simp [Metadata.carried, hput]
    rw [hresolver, hcarried]
    exact Resolver.mergeCounters_data hdata
  cases hmet with
  | replayed _ => exact .unchanged (by simp) (by simp) (by simp)
  | merged hdelete _ _ _ => simp [hput] at hdelete
  | contradicted _ _ => exact .unchanged (by simp) (by simp) (by simp)
  | overwritten _ hpayload _ hancestry =>
    -- the comparison looked the stored identity up in the bounded lineage
    obtain rfl := Option.some.inj hpayload
    apply Deposited.overwritten hid hread
    intro current hcurrent
    have hlisted := Metadata.listed_of_descendant hancestry hcurrent
    rw [Intake.lineage_arrived] at hlisted
    exact Metadata.mem_of_mem_bound hlisted
  | deleted hdelete _ _ => simp [hput] at hdelete
  | stale _ _ => exact .unchanged (by simp) (by simp) (by simp)
  | undecided _ hfailed => simp [hdecision] at hfailed
  | settled _ hresolved hsettled =>
    -- what the policy decided is to keep the merged counter
    obtain rfl := Option.some.inj (Except.ok.inj (hdecision.symm.trans hresolved))
    have hsides : existing.sides = [] := by
      simp [Record.sides, Record.marker?, hdata]
    cases hsettled with
    | kept metadata payload hfire =>
      rw [hsides]
      apply Deposited.merged hid hread hdata
      exact Intake.identity_arrived i x.metadata _
    | refused metadata payload hfire =>
      -- counters run no triggers
      simp [ItemKind.runsTriggers, fire] at hfire
  | declined _ hdeclined _ => simp [hdecision] at hdeclined
  | disputed hdelete _ _ _ => simp [hput] at hdelete

theorem deposited_of_taken {i : Intake Counter ω} {localId key : String} {x : Publication}
    {m m' : Memory Counter} {w w' : ω} {result : Except (IntakeError StoreError) Outcome}
    {notes : List Notification} (hresolver : i.resolver = Resolver.mergeCounters)
    (hdata : ∀ r, m.records.find? key = some r → ∃ counter, r.content = .data counter)
    (htaken : Taken i .counter localId key m w x.metadata (some x.totals) result m' notes w') :
    Deposited i key x m result m' := by
  cases htaken with
  | missingPayload _ hnone => cases hnone
  | missingIdentity _ _ => exact .unchanged (by simp) (by simp) (by simp)
  | created _ hpayload hid habsent =>
    obtain rfl := Option.some.inj hpayload
    exact .created hid habsent
  | ignored hdelete _ => simp [x.isPut] at hdelete
  | met hread hid hmet =>
    obtain ⟨counter, hcounter⟩ := hdata _ hread
    exact deposited_of_met hresolver (hid x.isPut) hread hcounter hmet

/-- A put that stores nothing contributes nothing. -/
theorem contribute_of_unchanged (seen : List Counter) (totals : Counter)
    {result : Except (IntakeError StoreError) Outcome} (hcreated : result ≠ .ok .created)
    (hover : result ≠ .ok .overwritten) (hmerged : result ≠ .ok .resolved) :
    contribute seen totals (.outcome result) = seen := by
  cases result with
  | error e => rfl
  | ok outcome =>
    cases outcome with
    | created => exact absurd rfl hcreated
    | overwritten => exact absurd rfl hover
    | resolved => exact absurd rfl hmerged
    | _ => rfl

/-- A counter that has just been stored outright is its own only contribution. -/
theorem standing_outright {key : String} (puts : List Publication) {x : Publication}
    (hid : x.metadata.identity ≠ none) (m : Memory Counter) {metadata : Metadata}
    (hidentity : metadata.identity = x.metadata.identity) :
    Standing key (puts ++ [x]) (m.write key (.data x.totals) metadata) [x.totals] := by
  have hread : (m.write key (.data x.totals) metadata).records.find? key =
      some ⟨.data x.totals, m.lastEtag.next, metadata⟩ := by
    rw [find?_write, if_pos rfl]
  have hmem : x ∈ puts ++ [x] := List.mem_append_right _ List.mem_cons_self
  show Standing key (puts ++ [x]) _ ([] ++ [x.totals])
  refine .stored hread rfl hmem hid hidentity ?_
  intro bound
  rw [List.nil_append, List.forall_mem_singleton]

/-- What stands after a put: its payload counts among the contributions if it was stored. -/
theorem standing_deposited {i : Intake Counter ω} {key : String} {puts : List Publication}
    {x : Publication} {m m' : Memory Counter} {seen : List Counter}
    {result : Except (IntakeError StoreError) Outcome} (h : Standing key puts m seen)
    (hdeposited : Deposited i key x m result m') :
    Standing key (puts ++ [x]) m' (contribute seen x.totals (.outcome result)) := by
  cases hdeposited with
  | unchanged hcreated hover hmerged =>
    rw [contribute_of_unchanged seen x.totals hcreated hover hmerged]
    exact standing_mono h x
  | created hid _ => exact standing_outright puts hid m rfl
  | overwritten hid _ _ => exact standing_outright puts hid m (Intake.identity_arrived _ _ _)
  | @merged existing counter metadata hid hread hdata hidentity =>
    cases h with
    | absent habsent => simp [hread] at habsent
    | stored hread' hdata' _ _ _ hbound =>
      obtain rfl := Option.some.inj (hread.symm.trans hread')
      obtain rfl := Content.data.inj (hdata.symm.trans hdata')
      have hread'' : (m.write key (.data (counter.merge x.totals)) metadata).records.find? key =
          some ⟨.data (counter.merge x.totals), m.lastEtag.next, metadata⟩ := by
        rw [find?_write, if_pos rfl]
      have hmem : x ∈ puts ++ [x] := List.mem_append_right _ List.mem_cons_self
      refine .stored hread'' rfl hmem hid hidentity ?_
      -- the merged counter is the least upper bound of one contribution more
      intro bound
      simp only [Counter.merge_le_iff, hbound bound, List.forall_mem_append,
        List.forall_mem_singleton]

/-- A put keeps the totals unless it replaces a counter into which something was merged, before the
last contribution, that the put does not dominate. -/
theorem kept_iff_of_deposited {i : Intake Counter ω} {key : String} {puts : List Publication}
    {x : Publication} {m m' : Memory Counter} {seen : List Counter}
    {result : Except (IntakeError StoreError) Outcome} (h : Standing key puts m seen)
    (hdominates : ∀ y ∈ puts, ∀ id ∈ x.metadata.lineage, y.metadata.identity = some id →
      y.totals ≤ x.totals)
    (hdeposited : Deposited i key x m result m') :
    TotalsKept key m m' ↔
      ¬ (result = .ok .overwritten ∧ ∃ c ∈ seen.dropLast, ¬ c ≤ x.totals) := by
  have hstored : ∀ (stored : Counter) (metadata : Metadata),
      counterAt (m.write key (.data stored) metadata) key = some stored := by
    intro stored metadata
    simp [counterAt, Record.data?]
  cases hdeposited with
  | unchanged _ hover _ =>
    exact iff_of_true (totalsKept_refl key m) (fun h => hover h.1)
  | created _ habsent =>
    refine iff_of_true ?_ (by simp)
    intro before hbefore
    simp [counterAt, habsent] at hbefore
  | merged _ hread hdata _ =>
    refine iff_of_true ?_ (by simp)
    rw [totalsKept_iff (counterAt_of_read hread hdata) (hstored _ _)]
    exact Counter.le_merge_left _ _
  | overwritten _ hread hlisted =>
    cases h with
    | absent habsent => simp [hread] at habsent
    | @stored r counter earlier last hread' hdata hlast hid hidentity hbound =>
      obtain rfl := Option.some.inj (hread.symm.trans hread')
      -- the put lists the identity of the last contribution, and so dominates it
      obtain ⟨id, hid'⟩ := Option.ne_none_iff_exists'.1 hid
      have hlastLe : last.totals ≤ x.totals :=
        hdominates last hlast id (hlisted id (hidentity.trans hid')) hid'
      rw [totalsKept_iff (counterAt_of_read hread hdata) (hstored _ _), hbound x.totals,
        List.forall_mem_append, List.forall_mem_singleton, List.dropLast_concat]
      -- so the earlier contributions alone decide
      constructor
      · rintro ⟨hearlier, -⟩ ⟨-, c, hc, hnot⟩
        exact hnot (hearlier c hc)
      · intro h
        refine ⟨?_, hlastLe⟩
        intro c hc
        cases Decidable.em (c ≤ x.totals) with
        | inl hle => exact hle
        | inr hnot => exact absurd ⟨rfl, c, hc, hnot⟩ h

/-! ## §4 Runs -/

/-- The way a put goes, once it is committed. -/
theorem run_deposited {i : Intake Counter ω} {key : String} {puts : List Publication}
    {seen : List Counter} (hresolver : i.resolver = Resolver.mergeCounters) (localId : String)
    (x : Publication) {s : Memory Counter × ω} (h : Standing key puts s.1 seen) :
    ∃ result, ((x.command i key).run (backend .counter localId) s).1 = .outcome result ∧
      Deposited i key x s.1 result
        ((x.command i key).run (backend .counter localId) s).2.1 := by
  have hdata : ∀ r, s.1.records.find? key = some r → ∃ counter, r.content = .data counter := by
    intro r hread
    cases h with
    | absent habsent => simp [hread] at habsent
    | stored hread' hdata _ _ _ _ =>
      obtain rfl := Option.some.inj (hread.symm.trans hread')
      exact ⟨_, hdata⟩
  obtain ⟨result, m', notes, w', htaken, hrun⟩ :=
    run_replicate .counter localId i key x.metadata (some x.totals) s
  have hdeposited := deposited_of_taken hresolver hdata htaken
  have hcommand : (x.command i key).run (backend .counter localId) s =
      (.outcome result, committed i s.1 m' notes w' result) := hrun
  rw [hcommand]
  refine ⟨result, rfl, ?_⟩
  -- a failure commits nothing, whatever the contents were by then
  cases result with
  | ok outcome => exact hdeposited
  | error e => exact .unchanged (by simp) (by simp) (by simp)

/-- What stands after a run of puts that starts without a counter. -/
theorem standing_published {i : Intake Counter ω} {key : String}
    (hresolver : i.resolver = Resolver.mergeCounters) (localId : String) {m : Memory Counter}
    (habsent : m.records.find? key = none) (w : ω) (puts : List Publication) :
    Standing key puts (published i localId key (m, w) puts).2.1
      (contributions puts (published i localId key (m, w) puts).1) := by
  induction puts using List.reverseRecOn with
  | nil => exact .absent habsent
  | append_singleton puts x ih =>
    obtain ⟨result, hreply, hdeposited⟩ := run_deposited hresolver localId x ih
    rw [contributions_concat, hreply, published_concat]
    exact standing_deposited ih hdeposited

/-- At every point of every run of puts to one key whose policy merges counters, the next put `x`
keeps the totals unless it is stored outright over a counter into which something was merged, before
the last contribution, that it does not dominate. The put need only dominate those of the puts
before it whose identities its lineage lists. -/
theorem totals_kept_iff {i : Intake Counter ω} (hresolver : i.resolver = Resolver.mergeCounters)
    (localId key : String) {m : Memory Counter} (habsent : m.records.find? key = none) (w : ω)
    {puts : List Publication} {x : Publication}
    (hdominates : ∀ y ∈ puts, ∀ id ∈ x.metadata.lineage, y.metadata.identity = some id →
      y.totals ≤ x.totals) :
    let before := published i localId key (m, w) puts
    let next := (x.command i key).run (backend .counter localId) before.2
    TotalsKept key before.2.1 next.2.1 ↔
      ¬ (next.1 = .outcome (.ok .overwritten) ∧
        ∃ c ∈ (contributions puts before.1).dropLast, ¬ c ≤ x.totals) := by
  intro before next
  have hstanding := standing_published hresolver localId habsent w puts
  obtain ⟨result, hreply, hdeposited⟩ := run_deposited hresolver localId x hstanding
  have hreply' : next.1 = .outcome result := hreply
  rw [hreply', Reply.outcome.injEq]
  exact kept_iff_of_deposited hstanding hdominates hdeposited

/-- Each identity is published with one payload, and a payload dominates those of the identities
that its lineage lists. -/
structure SoundlyPublished (puts : List Publication) : Prop where
  /-- Puts of one identity have one payload. -/
  once : ∀ x ∈ puts, ∀ y ∈ puts, x.metadata.identity ≠ none →
    x.metadata.identity = y.metadata.identity → x.totals = y.totals
  /-- Nothing is taken back. -/
  dominating : ∀ x ∈ puts, ∀ y ∈ puts, ∀ id ∈ x.metadata.lineage,
    y.metadata.identity = some id → y.totals ≤ x.totals

/-- Five that `a` has added. -/
def fiveOfA : Publication := ⟨.ofId "a" 1, { increments := .ofList [("a", 5)] }, rfl⟩

/-- Three that `b` has added without knowing of `a`. -/
def threeOfB : Publication := ⟨.ofId "b" 1, { increments := .ofList [("b", 3)] }, rfl⟩

/-- A fourth that `b` has added after its first three. -/
def fourOfB : Publication :=
  ⟨{ Metadata.ofId "b" 2 with lineage := [⟨"b", 1⟩] }, { increments := .ofList [("b", 4)] }, rfl⟩

/-- The policy merges counters. -/
def merging : Intake Counter Unit := { resolver := .mergeCounters }

/-- The fourth of `b` loses the five of `a`, which were merged in before the last contribution. -/
theorem fourth_of_b_loses_five_of_a :
    let before := published merging "L" "k" ({}, ()) [fiveOfA, threeOfB]
    ¬ TotalsKept "k" before.2.1 ((fourOfB.command merging "k").run (backend .counter "L")
      before.2).2.1 := by
  intro before hkept
  refine (totals_kept_iff rfl "L" "k" rfl () (by decide +kernel)).1 hkept ⟨?_, ?_⟩
  · rfl
  · exact ⟨fiveOfA.totals, by decide +kernel, by decide +kernel⟩

/-- It is not so that soundly published puts never lose totals. -/
theorem merged_totals_lost :
    ¬ ∀ (puts : List Publication) (x : Publication), SoundlyPublished (puts ++ [x]) →
      let before := published merging "L" "k" ({}, ()) puts
      TotalsKept "k" before.2.1
        ((x.command merging "k").run (backend .counter "L") before.2).2.1 := by
  intro h
  have hsound : SoundlyPublished ([fiveOfA, threeOfB] ++ [fourOfB]) :=
    ⟨by decide +kernel, by decide +kernel⟩
  exact absurd (h [fiveOfA, threeOfB] fourOfB hsound) (by decide +kernel)

end ReplicaIntake.Memory
