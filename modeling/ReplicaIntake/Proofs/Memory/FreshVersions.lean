import ReplicaIntake.Proofs.Memory.Exchanges
import ReplicaIntake.Proofs.Memory.Resolutions
import ReplicaIntake.Proofs.Memory.StoredMetadata

/-!
# Local writes and the versions that they are given

A local write lists the write that it replaces, and its version is the next one of the store. So it
descends from that write if the version is new to it. The store counts its versions itself, and
whatever it holds names only versions of its own that it has given out, if that is so of all that is
brought to it (`namedUpTo_runAll`).

A store that starts anew under its old name counts from the beginning. When its peers bring back
what it wrote before, the count is behind what the store holds, and a local write is given an
identity that is in use.

- `local_write_descends_iff`: after every history, when a local write descends from what it replaces
  and when other stores take it, and that this is so while the count is not behind.
- `identity_given_again`: a store that was handed back its first write gives the identity of that
  write to the next one.
-/

namespace ReplicaIntake

variable {α ω : Type}

/-! ## §1 What metadata names -/

/-- A resolution is made on top of the sides and of what they list. -/
theorem Backend.mem_resolvedLineage {sides : List Metadata} {e : WriteId} :
    e ∈ resolvedLineage sides ↔ ∃ side ∈ sides, side.identity = some e ∨ e ∈ side.lineage := by
  -- the lineages are united one by one, onto whatever has been united before
  have hunited : ∀ l : Lineage, e ∈ sides.foldl (fun l side => Lineage.union side.lineage l) l ↔
      e ∈ l ∨ ∃ side ∈ sides, e ∈ side.lineage := by
    induction sides with
    | nil => simp
    | cons side rest ih =>
      intro l
      rw [List.foldl_cons, ih, Lineage.mem_union]
      simp only [List.mem_cons, exists_eq_or_imp]
      tauto
  rw [resolvedLineage, Lineage.mem_withNewest, hunited, List.mem_filterMap]
  constructor
  · rintro ((he | ⟨side, hside, he⟩) | ⟨side, hside, he⟩)
    · cases he
    · exact ⟨side, hside, .inr he⟩
    · exact ⟨side, hside, .inl he⟩
  · rintro ⟨side, hside, he | he⟩
    · exact .inr ⟨side, hside, he⟩
    · exact .inl (.inr ⟨side, hside, he⟩)

namespace Metadata

/-- The identity of the write and the entries of its lineage are all as `Q` says. -/
def NamesOnly (Q : WriteId → Prop) (metadata : Metadata) : Prop :=
  ∀ e, metadata.identity = some e ∨ e ∈ metadata.lineage → Q e

variable {Q : WriteId → Prop} {metadata existing winner loser : Metadata} {i : Intake α ω}

theorem namesOnly_mono {Q' : WriteId → Prop} (h : metadata.NamesOnly Q) (hQ : ∀ e, Q e → Q' e) :
    metadata.NamesOnly Q' := fun e he => hQ e (h e he)

theorem namesOnly_arrived (h : metadata.NamesOnly Q) : (i.arrived metadata existing).NamesOnly Q := by
  rintro e (he | he)
  · exact h e (.inl (by simpa using he))
  · rw [Intake.lineage_arrived] at he
    exact h e (.inr (mem_of_mem_bound he))

theorem namesOnly_bounded (h : metadata.NamesOnly Q) (max : Nat) :
    (metadata.bounded max).NamesOnly Q := by
  rintro e (he | he)
  · exact h e (.inl he)
  · exact h e (.inr (mem_of_mem_bound he))

/-- A marker names nothing. -/
theorem namesOnly_conflictMarker (existing : Metadata) : existing.conflictMarker.NamesOnly Q := by
  rintro e (he | he) <;> cases he

theorem namesOnly_decided (hwinner : winner.NamesOnly Q) (hloser : loser.NamesOnly Q) (max : Nat) :
    ((winner.descendFromBoth loser).settled max).NamesOnly Q := by
  rintro e (he | he)
  · exact hwinner e (.inl he)
  · rcases mem_of_mem_settled he with he | he | he
    · exact hwinner e (.inr he)
    · exact hloser e (.inr he)
    · exact hloser e (.inl he)

theorem namesOnly_mergedTombstone (hincoming : metadata.NamesOnly Q)
    (hexisting : existing.NamesOnly Q) : (i.mergedTombstone metadata existing).NamesOnly Q := by
  rintro e (he | he)
  · exact hincoming e (.inl he)
  · rcases Lineage.mem_union.1 (mem_of_mem_bound he) with he | he
    · rcases List.mem_append.1 (mem_of_mem_bound he) with he | he
      · exact hincoming e (.inr he)
      · exact hincoming e (.inl (Option.mem_toList.1 he))
    · rcases List.mem_append.1 he with he | he
      · exact hexisting e (.inr he)
      · exact hexisting e (.inl (Option.mem_toList.1 he))

theorem namesOnly_stamp {previous : Option Metadata} {node : String} {version : UInt64}
    (hprevious : ∀ p, previous = some p → p.NamesOnly Q) (hnew : Q ⟨node, version⟩) (max : Nat) :
    (stamp previous node version max).NamesOnly Q := by
  rintro e (he | he)
  · rw [Memory.identity_stamp] at he
    exact Option.some.inj he ▸ hnew
  · cases previous with
    | none => cases he
    | some p =>
      rcases mem_of_mem_stamp he with he | he
      · exact hprevious p rfl e (.inr he)
      · exact hprevious p rfl e (.inl he)

end Metadata

namespace Memory

variable {kind : ItemKind} {localId key : String} {i : Intake α ω} {m m' : Memory α} {w w' : ω}
  {metadata : Metadata} {payload : Option α} {existing : Record α} {Q : WriteId → Prop}
  {result : Except (IntakeError StoreError) Outcome} {notes : List Notification}

open Metadata

/-! ## §2 One use -/

/-- All records of the store name only what `Q` allows. -/
def AllName (Q : WriteId → Prop) (m : Memory α) : Prop :=
  EveryMetadata (fun _ metadata => metadata.NamesOnly Q) m

/-- A built-in policy stores metadata that descends from the two writes. -/
theorem namesOnly_resolution {incoming : Metadata} {resolution : Resolution α}
    (hincoming : incoming.NamesOnly Q) (hexisting : existing.metadata.NamesOnly Q)
    (hdecided : Resolver.Decided incoming payload existing (some resolution)) (max : Nat) :
    (resolution.metadata.settled max).NamesOnly Q := by
  rcases Resolver.metadata_of_decided hdecided with hwinner | ⟨hwinner, -⟩
  · rw [hwinner]
    exact namesOnly_decided hincoming hexisting _
  · rw [hwinner]
    exact namesOnly_decided hexisting hincoming _

/-- What is stored names only what was stored or brought. A policy of another kind might store
metadata of its own. -/
theorem allName_taken (hbuiltIn : i.resolver.BuiltIn) (h : AllName Q m)
    (hnames : metadata.NamesOnly Q)
    (htaken : Taken i kind localId key m w metadata payload result m' notes w') :
    AllName Q m' := by
  refine everyMetadata_taken h (fun _ => namesOnly_bounded hnames _) ?_ htaken
  intro existing hread
  have harrived : (i.arrived metadata existing.metadata).NamesOnly Q := namesOnly_arrived hnames
  have hexisting : existing.metadata.NamesOnly Q := h key existing hread
  exact {
    arrived := harrived
    merged := fun _ => namesOnly_mergedTombstone harrived hexisting
    decided := fun _ _ hresolver =>
      namesOnly_resolution harrived hexisting (hbuiltIn.decided_of_ok hresolver) _
    side := fun _ _ => harrived
    moved := hexisting
    marked := namesOnly_conflictMarker existing.metadata }

/-- A local write names what was there, and itself. -/
theorem allName_written {max : Nat} (h : AllName Q m)
    (hnew : Q ⟨localId, m.versioned.lastVersion⟩)
    (hwritten : Written localId key payload max m metadata m') : AllName Q m' := by
  refine everyMetadata_written h ?_ hwritten
  cases hwritten with
  | stamped _ hmetadata =>
    rw [hmetadata]
    refine namesOnly_stamp (fun p hp => ?_) hnew max
    obtain ⟨r, hread, rfl⟩ := Option.map_eq_some_iff.1 hp
    exact h key r hread
  | @resolved existing marker _ hread hmarker hmetadata =>
    rw [hmetadata]
    rintro e (he | he)
    · exact Option.some.inj he ▸ hnew
    · -- the sides are records of the store
      obtain ⟨side, hside, hnamed⟩ := Backend.mem_resolvedLineage.1 (mem_of_mem_bound he)
      rw [sidesOf_eq_filterMap] at hside
      obtain ⟨shadow, -, hshadow⟩ := List.mem_filterMap.1 hside
      obtain ⟨r, hr, rfl⟩ := Option.map_eq_some_iff.1 hshadow
      exact h shadow r hr e hnamed

theorem lastVersion_written {max : Nat}
    (hwritten : Written localId key payload max m metadata m') :
    m'.lastVersion = m.lastVersion + 1 := by
  cases hwritten with
  | stamped => rfl
  | resolved => exact lastVersion_eraseAll _ _

/-! ## §3 Histories -/

/-- Of the versions of `localId` the write is one up to `last`. -/
def UpTo (localId : String) (last : UInt64) (e : WriteId) : Prop :=
  e.source = localId → e.version ≤ last

/-- The use is a single one, and a write that it takes in names, of the versions of the store, only
those up to `last`, and meets a built-in policy. -/
def InCount (localId : String) (last : UInt64) : Command α ω → Prop
  | .replicate i _ metadata _ => i.resolver.BuiltIn ∧ metadata.NamesOnly (UpTo localId last)
  | .batch _ _ => False
  | _ => True

/-- Whatever the store holds names only versions of its own that it has given out. -/
def NamedUpTo (localId : String) (m : Memory α) : Prop := AllName (UpTo localId m.lastVersion) m

/-- While there is room for one more version, it is a later one. -/
theorem lt_versioned (hroom : m.lastVersion.toNat + 1 < UInt64.size) :
    m.lastVersion < m.versioned.lastVersion ∧
      m.versioned.lastVersion.toNat = m.lastVersion.toNat + 1 := by
  have hone : (1 : UInt64).toNat = 1 := rfl
  have hnext : m.versioned.lastVersion.toNat = m.lastVersion.toNat + 1 := by
    show (m.lastVersion + 1).toNat = _
    rw [UInt64.toNat_add, hone]
    exact Nat.mod_eq_of_lt hroom
  refine ⟨UInt64.lt_iff_toNat_lt.2 ?_, hnext⟩
  omega

theorem namedUpTo_written {max : Nat} (hroom : m.lastVersion.toNat + 1 < UInt64.size)
    (h : NamedUpTo localId m) (hwritten : Written localId key payload max m metadata m') :
    NamedUpTo localId m' ∧ m'.lastVersion.toNat = m.lastVersion.toNat + 1 := by
  obtain ⟨hlater, hnext⟩ := lt_versioned hroom
  have hlast : m'.lastVersion = m.versioned.lastVersion := lastVersion_written hwritten
  refine ⟨?_, hlast ▸ hnext⟩
  rw [NamedUpTo, hlast]
  refine allName_written ?_ (fun _ => UInt64.le_refl _) hwritten
  -- what was within the count before is so now
  exact fun q r hread => namesOnly_mono (h q r hread)
    fun e he hsource => UInt64.le_trans (he hsource) (UInt64.le_of_lt hlater)

/-- A use that is in count leaves the store so, and gives out at most one version. -/
theorem namedUpTo_advanced {command : Command α ω} (hroom : m.lastVersion.toNat + 1 < UInt64.size)
    (hcount : InCount localId m.lastVersion command) (h : NamedUpTo localId m)
    (hadvanced : Advanced kind localId m command m') :
    NamedUpTo localId m' ∧ m'.lastVersion.toNat ≤ m.lastVersion.toNat + 1 := by
  cases hadvanced with
  | unchanged => exact ⟨h, Nat.le_succ _⟩
  | replicated htaken =>
    rw [NamedUpTo, lastVersion_taken htaken]
    exact ⟨allName_taken hcount.1 h hcount.2 htaken, Nat.le_succ _⟩
  | stored hwritten => exact (namedUpTo_written hroom h hwritten).imp_right Nat.le_of_eq
  | deleted hwritten => exact (namedUpTo_written hroom h hwritten).imp_right Nat.le_of_eq
  | resolved hwritten => exact (namedUpTo_written hroom h hwritten).imp_right Nat.le_of_eq
  | batched => exact hcount.elim

/-- Every use in the history is in count when it comes: the writes that are brought name only
versions of this store that it has given out by then. -/
def KeepsCount (kind : ItemKind) (localId : String) (w : ω) (history : List (Command α ω)) : Prop :=
  ∀ before command rest, history = before ++ command :: rest →
    InCount localId (Command.runAll (backend kind localId) before ({}, w)).2.1.lastVersion command

theorem KeepsCount.before {kind : ItemKind} {w : ω} {first second : List (Command α ω)}
    (h : KeepsCount kind localId w (first ++ second)) : KeepsCount kind localId w first := by
  rintro before command rest rfl
  exact h before command (rest ++ second) (by simp)

/-- Uses that are in count whenever they come keep the count. -/
theorem keepsCount_of_inCount {kind : ItemKind} {w : ω} {history : List (Command α ω)}
    (h : ∀ command ∈ history, ∀ last, InCount localId last command) :
    KeepsCount kind localId w history := by
  rintro before command rest rfl
  exact h command (by simp) _

/-- What is of other nodes alone is in count whenever it comes. -/
theorem namesOnly_of_foreign {last : UInt64}
    (hid : ∀ e, metadata.identity = some e → e.source ≠ localId)
    (hlineage : ∀ e ∈ metadata.lineage, e.source ≠ localId) :
    metadata.NamesOnly (UpTo localId last) := by
  rintro e (he | he) hsource
  · exact absurd hsource (hid e he)
  · exact absurd hsource (hlineage e he)

/-- After a history that keeps the count, whatever the store holds names only versions of its own
that it has given out. -/
theorem namedUpTo_runAll (kind : ItemKind) (localId : String) (w : ω)
    {history : List (Command α ω)} (hcount : KeepsCount kind localId w history)
    (hroom : history.length < UInt64.size) :
    NamedUpTo localId (Command.runAll (backend kind localId) history ({}, w)).2.1 ∧
      (Command.runAll (backend kind localId) history ({}, w)).2.1.lastVersion.toNat ≤
        history.length := by
  -- on the history so far: the last use starts from a store that is in count
  induction history using List.reverseRecOn with
  | nil =>
    refine ⟨?_, Nat.le_refl 0⟩
    intro q r hread
    cases hread
  | append_singleton before command ih =>
    rw [List.length_append, List.length_singleton] at hroom ⊢
    obtain ⟨hnamed, hlast⟩ := ih hcount.before (Nat.lt_of_succ_lt hroom)
    have hadvanced := run_advanced kind localId command
      (Command.runAll (backend kind localId) before ({}, w)).2.1
      (Command.runAll (backend kind localId) before ({}, w)).2.2
    obtain ⟨hnamed', hlast'⟩ :=
      namedUpTo_advanced (by omega) (hcount before command [] rfl) hnamed hadvanced
    rw [runAll_append]
    exact ⟨hnamed', Nat.le_trans hlast' (Nat.succ_le_succ hlast)⟩

/-! ## §4 Local writes -/

/-- A local write of a payload, or a deletion when there is none. -/
def writeLocal (key : String) (payload : Option α) (max : Nat) : Command α ω :=
  match payload with
  | some a => .putLocal key a max
  | none => .deleteLocal key max

/-- What a local write stores in place of a record is a stamp of it. -/
theorem metadata_of_written {s : Memory α × ω} {max : Nat}
    (hread : s.1.records.find? key = some existing)
    (hwritten : ((writeLocal key payload max).run (backend kind localId) s).1 =
      .written (.ok (some metadata))) :
    metadata = { Metadata.stamp (some existing.metadata) localId s.1.versioned.lastVersion max with
      deleted := payload.isNone } := by
  cases payload with
  | some a =>
    cases hmarker : existing.marker? with
    | some marker =>
      -- over a marker the write would have been refused
      have hanswer := putLocal_of_marker kind localId a max s.2 (by rw [hread]; exact hmarker)
      simp only [writeLocal, Command.run, hanswer] at hwritten
      cases hwritten
    | none =>
      have hanswer := putLocal_of_free kind localId a max s.2 (by rw [hread]; exact hmarker)
      rw [hread] at hanswer
      simp only [writeLocal, Command.run, hanswer] at hwritten
      cases hwritten
      rfl
  | none =>
    cases hmarker : existing.marker? with
    | some marker =>
      have hanswer := deleteLocal_of_marker kind localId max s.2 (by rw [hread]; exact hmarker)
      simp only [writeLocal, Command.run, hanswer] at hwritten
      cases hwritten
    | none =>
      have hanswer := deleteLocal_of_free kind localId max s.2 hread hmarker
      simp only [writeLocal, Command.run, hanswer] at hwritten
      cases hwritten
      rfl

/-- A local write lists the write that it replaces, also after its lineage has been bounded again. -/
theorem mem_bound_stamp (node : String) (version : UInt64) {previous : Metadata}
    {current : WriteId} {max max' : Nat} (hmax : 0 < max) (hmax' : 0 < max')
    (hcurrent : previous.identity = some current) :
    current ∈ (Metadata.stamp (some previous) node version max).lineage.bound max' := by
  have hone : [current].length ≤ max' := hmax'
  have hlineage : (Metadata.stamp (some previous) node version max).lineage =
      previous.lineage.append current max := by
    simp only [Metadata.stamp, hcurrent]
  rw [hlineage, Lineage.append_eq _ _ hmax, Lineage.bound_append _ hone]
  exact List.mem_append_right _ List.mem_cons_self

/-- Wherever the write that a local write replaces is stored, with whatever lineage, the local write
takes its place, if what is stored there names only earlier versions of the node. -/
theorem adopts_stamp (kind : ItemKind) (localId : String) {node : String} {version : UInt64}
    {previous : Metadata} {current : WriteId} {max : Nat} {s : Memory α × ω} {held : Record α}
    (hmax : 0 < max) (hroom : 0 < i.config.maxHistory)
    (hcurrent : previous.identity = some current)
    (hmetadata : metadata = { Metadata.stamp (some previous) node version max with
      deleted := payload.isNone })
    (hread : s.1.records.find? key = some held) (hplain : held.isMarker = false)
    (hheld : held.metadata.identity = some current) (hbefore : held.metadata.NamesBefore node version) :
    Adopts kind localId i key metadata payload held s := by
  have hid : metadata.identity = some ⟨node, version⟩ := by
    rw [hmetadata]
    exact identity_stamp (some previous) node version max
  -- the write that was replaced stays listed under the bound of the other store
  have hlisted : current ∈ metadata.lineage.bound i.config.maxHistory := by
    rw [hmetadata]
    exact mem_bound_stamp node version hmax hroom hcurrent
  -- it comes as a deletion exactly if it brings nothing, so it is well formed
  have hdeleted : metadata.deleted = payload.isNone := by
    rw [hmetadata]
  have hpayload : metadata.deleted = false → payload ≠ none := by
    rintro hput rfl
    rw [hdeleted] at hput
    cases hput
  obtain ⟨result, m', notes, w', htaken, hrun⟩ :=
    run_replicate kind localId i key metadata payload s
  have hmet := taken_of_read hread (by simp [hid]) hpayload htaken
  obtain ⟨rfl, hstored⟩ := adopted_of_met hplain hheld hbefore hid hdeleted hlisted hmet
  rw [Adopts, hrun]
  exact ⟨rfl, hstored⟩

/-- After every history, a local write or deletion over a record with an identity gets the next
version of the store. It descends from the record, and the record precedes it, exactly if the record
neither has that identity nor lists it. Other stores that hold the write that was replaced, and name
only earlier versions of this store there, take the local write in its place. While whatever is
brought to the store names only versions of it that it has given out, all of this is so: the record
and its copies name only earlier ones. -/
theorem local_write_descends_iff (kind : ItemKind) (localId : String)
    (history : List (Command α ω)) (w : ω) {key : String} {r : Record α} {current : WriteId}
    (hread : (Command.runAll (backend kind localId) history ({}, w)).2.1.records.find? key = some r)
    (hcurrent : r.metadata.identity = some current) (payload : Option α) {max : Nat} (hmax : 0 < max)
    {metadata : Metadata} (hwritten : ((writeLocal key payload max).run (backend kind localId)
      (Command.runAll (backend kind localId) history ({}, w)).2).1 =
        .written (.ok (some metadata))) :
    let next := (Command.runAll (backend kind localId) history ({}, w)).2.1.lastVersion + 1
    let Descends := metadata.checkAncestry r.metadata = .ok .descendant ∧
      r.metadata.checkAncestry metadata = .ok .ancestor
    metadata.identity = some ⟨localId, next⟩ ∧
      (Descends ↔ current ≠ ⟨localId, next⟩ ∧ ⟨localId, next⟩ ∉ r.metadata.lineage) ∧
      (∀ (otherKind : ItemKind) (otherId : String) (i : Intake α ω) (other : Memory α × ω)
        (held : Record α), 0 < i.config.maxHistory → other.1.records.find? key = some held →
        held.isMarker = false → held.metadata.identity = some current →
        held.metadata.NamesBefore localId next →
        Adopts otherKind otherId i key metadata payload held other) ∧
      (KeepsCount kind localId w history → history.length + 1 < UInt64.size →
        Descends ∧ r.metadata.NamesBefore localId next) := by
  intro next Descends
  -- the metadata that was answered is the stamp over the record
  have hmetadata := metadata_of_written hread hwritten
  have hid : metadata.identity = some ⟨localId, next⟩ := by
    rw [hmetadata]
    exact identity_stamp (some r.metadata) localId next max
  have hlisted : current ∈ metadata.lineage := by
    rw [hmetadata]
    exact Metadata.mem_of_mem_bound (mem_bound_stamp localId next hmax hmax hcurrent)
  have hdescends : Descends ↔ current ≠ ⟨localId, next⟩ ∧ ⟨localId, next⟩ ∉ r.metadata.lineage := by
    by_cases hsame : current = ⟨localId, next⟩
    · -- the identity was given out before, and equal identities are a replay
      have hcheck := Metadata.checkAncestry_of_same hid (hsame ▸ hcurrent)
      simp [Descends, hsame, hcheck]
    · -- the record is listed, so all depends on what it lists
      show metadata.checkAncestry r.metadata = .ok .descendant ∧
        r.metadata.checkAncestry metadata = .ok .ancestor ↔ _
      rw [Metadata.checkAncestry_descendant_iff hid hcurrent (Ne.symm hsame),
        Metadata.checkAncestry_ancestor_iff hcurrent hid hsame]
      simp [hlisted, hsame]
  refine ⟨hid, hdescends, ?_, ?_⟩
  · -- the other stores
    intro otherKind otherId i other held hroom hheld hplain hcopy hbefore
    exact adopts_stamp otherKind otherId hmax hroom hcurrent hmetadata hheld hplain hcopy hbefore
  · -- the next version is later than all that the record can name
    intro hcount hlength
    obtain ⟨hnamed, hlast⟩ :=
      namedUpTo_runAll kind localId w hcount (Nat.lt_of_succ_lt hlength)
    have hlater := (lt_versioned (Nat.lt_of_le_of_lt (Nat.succ_le_succ hlast) hlength)).1
    have hbefore : r.metadata.NamesBefore localId next := fun e he hsource =>
      UInt64.lt_of_le_of_lt (hnamed key r hread e he hsource) hlater
    exact ⟨hdescends.2 ⟨hbefore.ne hcurrent, hbefore.unlisted⟩, hbefore⟩

/-- A write of `a` has come to the store. -/
def broughtByA : List (Command String Unit) := [.replicate {} "k" (.ofId "a" 1) (some "a1")]

/-- It does not name this store. -/
theorem keepsCount_broughtByA : KeepsCount .document "L" () broughtByA := by
  refine keepsCount_of_inCount (List.forall_mem_singleton.2 fun last => ⟨.chain (by simp), ?_⟩)
  refine namesOnly_of_foreign ?_ (by simp [Metadata.ofId])
  rintro _ ⟨rfl⟩
  decide

/-- The first local write over it descends from it. -/
theorem first_of_l_descends :
    let metadata := { Metadata.ofId "L" 1 with lineage := [⟨"a", 1⟩] }
    metadata.checkAncestry (.ofId "a" 1) = .ok .descendant ∧
      (Metadata.ofId "a" 1).checkAncestry metadata = .ok .ancestor := by
  have hread : (Command.runAll (backend .document "L") broughtByA ({}, ())).2.1.records.find? "k" =
      some ⟨.data "a1", ⟨1⟩, .ofId "a" 1⟩ := by
    decide +kernel
  exact ((local_write_descends_iff .document "L" broughtByA () hread rfl (some "l1")
    (by decide : 0 < 50) rfl).2.2.2 keepsCount_broughtByA (by decide)).1

/-- It is not so that a local write always gets a fresh identity: a store that was handed back its
first write gives the identity of that write to the next one. -/
theorem identity_given_again :
    ¬ ∀ (history : List (Command String Unit)) (key : String) (r : Record String)
        (current : WriteId) (payload : Option String) (max : Nat) (metadata : Metadata),
      let before := (Command.runAll (backend .document "L") history ({}, ())).2
      (∀ command ∈ history, command.IsSingle) → before.1.records.find? key = some r →
      r.metadata.identity = some current → 0 < max →
      ((writeLocal key payload max).run (backend .document "L") before).1 =
        .written (.ok (some metadata)) →
      metadata.checkAncestry r.metadata = .ok .descendant ∧
        r.metadata.checkAncestry metadata = .ok .ancestor := by
  intro h
  have hread : (Command.runAll (backend .document "L")
      [.replicate ({} : Intake String Unit) "k" (.ofId "L" 1) (some "l1")] ({}, ())).2.1.records.find?
        "k" = some ⟨.data "l1", ⟨1⟩, .ofId "L" 1⟩ := by
    decide +kernel
  have hdescends := (h _ "k" _ ⟨"L", 1⟩ (some "l2") 50
    { Metadata.ofId "L" 1 with lineage := [⟨"L", 1⟩] } (by simp [Command.IsSingle]) hread rfl
    (by decide) rfl).1
  cases hdescends

end Memory

end ReplicaIntake
