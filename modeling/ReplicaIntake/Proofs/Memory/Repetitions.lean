import ReplicaIntake.Proofs.Memory.Flags
import ReplicaIntake.Proofs.Memory.Redeliveries

/-!
# Writes that are delivered twice in a row

Whatever taking in a write leads to, the store remembers the write by then (`Remembers`): the record
has its identity, or it lists the write, or one side of the conflict has its identity. So the same
write is passed over when it comes again at once (`passesOver_again`).

A policy that lets the stored write win keeps the incoming one as the newest entry of the lineage,
and for that there has to be room for one entry.
-/

namespace ReplicaIntake

variable {α ω : Type}

/-- The metadata that a decision asks to store. -/
def Resolution.metadata : Resolution α → Metadata
  | .keep metadata _ => metadata
  | .remove metadata => metadata

/-- A built-in policy lets the incoming write win, or a stored one that is no marker. -/
theorem Resolver.metadata_of_decided {incoming : Metadata} {payload : Option α}
    {existing : Record α} {resolution : Resolution α}
    (h : Resolver.Decided incoming payload existing (some resolution)) :
    resolution.metadata = incoming.descendFromBoth existing.metadata ∨
      resolution.metadata = existing.metadata.descendFromBoth incoming ∧
        ∀ marker, existing.content ≠ .marker marker := by
  cases h with
  | replaced => exact .inl rfl
  | removed => exact .inl rfl
  | merged => exact .inl rfl
  | retained hdata => exact .inr ⟨rfl, by simp [hdata]⟩
  | retainedDeletion htombstone => exact .inr ⟨rfl, by simp [htombstone]⟩

theorem Config.pos_of_validate {c c' : Config} (h : c.validate = .ok c') : 0 < c.maxHistory := by
  unfold Config.validate at h
  split at h
  · cases h
  · exact Nat.pos_of_ne_zero ‹_›

namespace Memory

variable {kind : ItemKind} {localId key : String} {i : Intake α ω} {m m' : Memory α} {w w' : ω}
  {metadata : Metadata} {payload : Option α} {existing : Record α} {id : WriteId}
  {outcome : Outcome} {notes : List Notification}

/-! ## §1 What is remembered -/

/-- What the key holds tells of the write that it has been taken in. -/
inductive Remembers (i : Intake α ω) (key : String) (metadata : Metadata) (id : WriteId)
    (m : Memory α) : Prop
  /-- The record is the write itself. -/
  | same {r : Record α} (hread : m.records.find? key = some r)
      (hsame : r.metadata.identity = some id)
  /-- The record is another write, which lists this one. -/
  | listed {r : Record α} {current : WriteId} (hread : m.records.find? key = some r)
      (hplain : r.isMarker = false) (hcurrent : r.metadata.identity = some current)
      (hne : id ≠ current) (hlisted : id ∈ r.metadata.lineage)
      (hunlisted : current ∉ metadata.lineage.bound i.config.maxHistory)
  /-- One side of the conflict is the write. -/
  | side {r : Record α} {marker : Marker} (hread : m.records.find? key = some r)
      (hmarker : r.content = .marker marker) (hheld : Holds m marker id)

/-- A write that is remembered is passed over. -/
theorem passesOver_of_remembers {s : Memory α × ω} (h : Remembers i key metadata id s.1)
    (hid : metadata.identity = some id) (hpayload : metadata.deleted = false → payload ≠ none) :
    PassesOver kind localId i key metadata payload s := by
  cases h with
  | same hread hsame =>
    exact passesOver_of_known hread hid hpayload (knows_of_same (by simpa using hid) hsame)
  | listed hread hplain hcurrent hne hlisted hunlisted =>
    exact passesOver_of_listed hread hplain hcurrent hid hne hpayload hlisted hunlisted
  | side hread hmarker hheld =>
    exact passesOver_of_known hread hid hpayload
      (knows_of_holds hmarker (by simpa using hid) hheld)

/-! ## §2 What each way out leaves -/

theorem remembers_write (m : Memory α) (content : Content α) {stored : Metadata}
    (hstored : stored.identity = some id) :
    Remembers i key metadata id (m.write key content stored) :=
  .same ((find?_write ..).trans (if_pos rfl)) hstored

/-- A write that has contended is one side of the conflict. -/
theorem remembers_of_contended {side : Metadata} {operation : Operation}
    (hread : m.records.find? key = some existing) (hid : side.identity = some id)
    (hcontended : Contended kind localId key side payload existing operation m (.ok outcome) m'
      notes) : Remembers i key metadata id m' := by
  have hsource := Metadata.source_of_identity hid
  obtain ⟨conflict, marker, hconflict, hmarker, hlisted⟩ :=
    listed_of_contended hread hsource hcontended
  exact .side hconflict hmarker ⟨_, hlisted, _, side_of_contended hsource hcontended, hid⟩

/-- A decision that is stored leaves a record of what the policy asked for. -/
theorem read_of_settled {incoming : Metadata} {resolution : Resolution α}
    (hown : key ∉ existing.sides)
    (hsettled : Settled i kind key incoming existing m w resolution (.ok outcome) m' w') :
    ∃ stored : Record α, m'.records.find? key = some stored ∧ stored.isMarker = false ∧
      stored.metadata.identity = resolution.metadata.identity ∧
      stored.metadata.lineage = (resolution.metadata.settled i.config.maxHistory).lineage := by
  cases hsettled with
  | removed metadata =>
    refine ⟨⟨.ofPayload none, m.lastEtag.next,
      { metadata.settled i.config.maxHistory with deleted := true }⟩, ?_,
      isMarker_of_unflagged none _ rfl, rfl, rfl⟩
    rw [find?_eraseAll, if_neg hown, find?_write, if_pos rfl]
    rfl
  | kept metadata payload =>
    refine ⟨⟨.ofPayload (some payload), m.lastEtag.next,
      { metadata.settled i.config.maxHistory with deleted := false }⟩, ?_,
      isMarker_of_unflagged (some payload) _ rfl, rfl, rfl⟩
    rw [find?_eraseAll, if_neg hown, find?_write, if_pos rfl]
    rfl

theorem remembers_of_settled {resolution : Resolution α} (hroom : 0 < i.config.maxHistory)
    (hgenuine : Genuine key existing) (hown : key ∉ existing.sides)
    (hid : metadata.identity = some id) (hoffered : Offered i m metadata existing)
    (hdecided : Resolver.Decided (i.arrived metadata existing.metadata)
      (metadata.carried payload) existing (some resolution))
    (hsettled : Settled i kind key (i.arrived metadata existing.metadata) existing m w resolution
      (.ok outcome) m' w') : Remembers i key metadata id m' := by
  have hidentity : (i.arrived metadata existing.metadata).identity = some id := by
    simpa using hid
  obtain ⟨stored, hread, hplain, hkept, hlineage⟩ := read_of_settled hown hsettled
  rcases Resolver.metadata_of_decided hdecided with hwinner | ⟨hwinner, hcontent⟩
  · -- the incoming write is stored under its own identity
    refine .same hread ?_
    rw [hkept, hwinner, Metadata.identity_descendFromBoth, hidentity]
  · cases hoffered with
    | conflicted _ _ hmarker => simp [plain_of_genuine hgenuine hcontent] at hmarker
    | concurrent hcompared hancestry =>
      obtain ⟨current, hcurrent⟩ := Metadata.identity_of_concurrent hancestry
      have hne : id ≠ current := by
        rintro rfl
        simp [Metadata.checkAncestry_of_same hidentity hcurrent] at hancestry
      rw [Metadata.checkAncestry_concurrent_iff hidentity hcurrent hne, Intake.lineage_arrived]
        at hancestry
      -- the stored write has won, and now lists the incoming one
      refine .listed hread hplain ?_ hne ?_ hancestry.1
      · rw [hkept, hwinner, Metadata.identity_descendFromBoth, hcurrent]
      · rw [hlineage, hwinner]
        exact Metadata.loser_mem_settled hroom hidentity

/-- A write that meets a record is passed over, or it is remembered afterwards. -/
theorem noop_or_remembers_of_met (hbuiltIn : i.resolver.BuiltIn) (hroom : 0 < i.config.maxHistory)
    (hgenuine : Genuine key existing) (hown : key ∉ existing.sides)
    (hread : m.records.find? key = some existing) (hid : metadata.identity = some id)
    (hmet : Met i kind localId key m w metadata payload existing (.ok outcome) m' notes w') :
    (outcome.isNoop = true ∧ m' = m ∧ notes = [] ∧ w' = w) ∨ Remembers i key metadata id m' := by
  have hidentity : (i.arrived metadata existing.metadata).identity = some id := by
    simpa using hid
  cases hmet with
  | replayed => exact .inl ⟨rfl, rfl, rfl, rfl⟩
  | stale => exact .inl ⟨rfl, rfl, rfl, rfl⟩
  | merged => exact .inr (remembers_write m _ hidentity)
  | overwritten => exact .inr (remembers_write m _ hidentity)
  | deleted => exact .inr (remembers_write m _ hidentity)
  | settled hoffered hresolver hsettled =>
    exact .inr (remembers_of_settled hroom hgenuine hown hid hoffered
      (hbuiltIn.decided_of_ok hresolver) hsettled)
  | declined _ _ hcontended => exact .inr (remembers_of_contended hread hidentity hcontended)
  | disputed _ _ _ hcontended => exact .inr (remembers_of_contended hread hidentity hcontended)

/-! ## §3 The same write once more -/

/-- Taking in a write succeeds by passing it over, or the store remembers it afterwards. -/
theorem passed_or_remembers_of_taken {s : Memory α × ω} (hbuiltIn : i.resolver.BuiltIn)
    (hroom : 0 < i.config.maxHistory) (hgenuine : EveryRecord Genuine s.1)
    (hown : ∀ r, s.1.records.find? key = some r → key ∉ r.sides)
    (hid : metadata.identity = some id)
    (htaken : Taken i kind localId key s.1 s.2 metadata payload (.ok outcome) m' notes w') :
    (outcome.isNoop = true ∧ committed i s.1 m' notes w' (.ok outcome) = s) ∨
      Remembers i key metadata id m' := by
  cases htaken with
  | created => exact .inr (remembers_write s.1 _ hid)
  | ignored => exact .inl ⟨rfl, rfl⟩
  | @met existing _ _ _ _ hread _ hmet =>
    rcases noop_or_remembers_of_met hbuiltIn hroom (hgenuine key existing hread)
      (hown existing hread) hread hid hmet with ⟨hnoop, rfl, rfl, rfl⟩ | hremembers
    · exact .inl ⟨hnoop, rfl⟩
    · exact .inr hremembers

/-- After every history that takes in no flagged write, a write that is taken in under a built-in
policy is passed over when it comes again at once: it is answered as one that changes nothing, and
neither the store nor the world changes. -/
theorem passesOver_again (kind : ItemKind) (localId : String) {history : List (Command α ω)}
    (hunflagged : ∀ command ∈ history, command.IsUnflagged) (w : ω) {i : Intake α ω}
    {config : Config} (hvalid : i.config.validate = .ok config) (hbuiltIn : i.resolver.BuiltIn)
    (key : String) {metadata : Metadata} {id : WriteId} (hid : metadata.identity = some id)
    (payload : Option α) :
    let before := (Command.runAll (backend kind localId) history ({}, w)).2
    let first := (Command.replicate i key metadata payload).run (backend kind localId) before
    ∀ outcome, first.1 = .outcome (.ok outcome) →
      PassesOver kind localId i key metadata payload first.2 := by
  intro before first outcome hfirst
  -- a put without payload would have been refused
  have hpayload : metadata.deleted = false → payload ≠ none := by
    rintro hput rfl
    have hrefused : first.1 = .outcome (.error .missingPayload) :=
      congrArg Prod.fst (run_missingPayload kind localId i key hput before)
    simp [hrefused] at hfirst
  obtain ⟨result, m', notes, w', htaken, hrun⟩ :=
    run_replicate kind localId i key metadata payload before
  have hanswer : first = (.outcome result, committed i before.1 m' notes w' result) := hrun
  obtain rfl : result = .ok outcome := by
    rw [hanswer] at hfirst
    exact Reply.outcome.inj hfirst
  have hgenuine : EveryRecord Genuine before.1 := genuine_runAll kind localId hunflagged w
  have hown : ∀ r, before.1.records.find? key = some r → key ∉ r.sides := by
    intro r hread
    cases hmarker : r.marker? with
    | none => simp [Record.sides, hmarker]
    | some marker =>
      have hcontent := content_of_marker? hmarker
      rw [sides_of_content hcontent]
      exact unlisted_runAll kind localId (fun c hc => (hunflagged c hc).single) w hread hcontent
  rcases passed_or_remembers_of_taken hbuiltIn (Config.pos_of_validate hvalid) hgenuine hown hid
    htaken with ⟨hnoop, hsame⟩ | hremembers
  · -- nothing has changed, so the same happens again
    rw [hanswer, hsame]
    exact ⟨outcome, hnoop, by rw [hrun, hsame]⟩
  · rw [hanswer]
    exact passesOver_of_remembers hremembers hid hpayload

/-- The stored write always wins. -/
def keepStored : Intake String Unit := { resolver := .preferLocal }

/-- A write of `a` that nothing knows of. -/
def firstOfA : List (Command String Unit) :=
  [.replicate {} "k" (.ofId "a" 1) (some "a1")]

/-- A write of `b` that loses against that of `a` is passed over the next time. -/
theorem losing_put_passed_over :
    PassesOver .document "L" keepStored "k" (.ofId "b" 1) (some "b1")
      ((Command.replicate keepStored "k" (.ofId "b" 1) (some "b1")).run (backend .document "L")
        (Command.runAll (backend .document "L") firstOfA ({}, ())).2).2 := by
  have hunflagged : ∀ command ∈ firstOfA, command.IsUnflagged := by
    intro command hcommand
    obtain rfl := List.mem_singleton.1 hcommand
    rfl
  have hvalid : keepStored.config.validate = .ok keepStored.config := rfl
  exact passesOver_again .document "L" hunflagged () hvalid .preferLocal "k" rfl (some "b1")
    .resolved rfl

end Memory

end ReplicaIntake
