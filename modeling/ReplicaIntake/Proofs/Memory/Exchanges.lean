import Mathlib.Data.List.Induction
import Mathlib.Data.List.Nodup
import ReplicaIntake.Proofs.Memory.Provenance

/-!
# Stores that exchange their data

Stores with local identifiers of their own write locally and send each other what they hold. Local
writes never use a version twice (`counted_ran`), and what a local write lists has been issued
before it. So as long as every decision of a policy is kept under the identity that was issued
later, whatever a lineage lists was issued before the write that lists it, and no two writes list
each other.

A decision need not be kept so. A policy that lets the earlier of two writes win stores it with a
lineage that lists the later one, while another store may have decided the other way round. When the
two records meet, each lists the other, although no version has been used twice
(`earlier_kept_before_contradiction`).
-/

namespace ReplicaIntake

variable {α ω : Type}

/-! ## §1 Exchanges -/

/-- Stores in memory, each under its local identifier, and the identities that their local writes
were given, in the order of the writes. -/
structure Network (α ω : Type) where
  stores : String → Memory α × ω
  issued : List WriteId

/-- What can happen between stores. -/
inductive Exchange (α ω : Type) where
  /-- A store writes locally. -/
  | write (node key : String) (payload : α) (max : Nat)
  /-- A store sends the data that it holds under a key to the intake of another one. -/
  | send (source target key : String) (intake : Intake α ω)

/-- The identity that a local write was given, if it was written. -/
def Reply.issued : Reply α → List WriteId
  | .written (.ok (some metadata)) => metadata.identity.toList
  | _ => []

/-- The network with another store in place of that of `node`. -/
def Network.replace (s : Network α ω) (node : String) (store : Memory α × ω) : Network α ω where
  stores q := if q = node then store else s.stores q
  issued := s.issued

/-- The network after more identities were issued. -/
def Network.issue (s : Network α ω) (ids : List WriteId) : Network α ω :=
  { s with issued := s.issued ++ ids }

namespace Exchange

/-- The policy of the intake that takes part is a built-in one. -/
def BuiltIn : Exchange α ω → Prop
  | .write _ _ _ _ => True
  | .send _ _ _ intake => intake.resolver.BuiltIn

/-- The reply of the store that writes or receives, if any does, and the network afterwards. -/
def run (kind : ItemKind) (s : Network α ω) : Exchange α ω → Option (Reply α) × Network α ω
  | .write node key payload max =>
    let (reply, store) :=
      (Command.putLocal key payload max).run (Memory.backend kind node) (s.stores node)
    (some reply, (s.replace node store).issue reply.issued)
  | .send source target key intake =>
    match (s.stores source).1.records.find? key with
    | some ⟨.data a, _, metadata⟩ =>
      let (reply, store) := (Command.replicate intake key metadata (some a)).run
        (Memory.backend kind target) (s.stores target)
      (some reply, s.replace target store)
    | _ => (none, s)

/-- The network after the given exchanges between empty stores. -/
def runAll (kind : ItemKind) (w : String → ω) (exchanges : List (Exchange α ω)) : Network α ω :=
  exchanges.foldl (fun s e => (e.run kind s).2) ⟨fun node => ({}, w node), []⟩

theorem runAll_concat (kind : ItemKind) (w : String → ω) (exchanges : List (Exchange α ω))
    (e : Exchange α ω) :
    runAll kind w (exchanges ++ [e]) = (e.run kind (runAll kind w exchanges)).2 := by
  simp only [runAll, List.foldl_append, List.foldl_cons, List.foldl_nil]

end Exchange

namespace Memory

variable {kind : ItemKind} {s s' : Network α ω} {issued : List WriteId} {x y z : WriteId}
  {node key : String}

@[simp] theorem stores_replace (s : Network α ω) (node : String) (store : Memory α × ω)
    (q : String) :
    (s.replace node store).stores q = if q = node then store else s.stores q := rfl

@[simp] theorem issued_replace (s : Network α ω) (node : String) (store : Memory α × ω) :
    (s.replace node store).issued = s.issued := rfl

@[simp] theorem stores_issue (s : Network α ω) (ids : List WriteId) :
    (s.issue ids).stores = s.stores := rfl

@[simp] theorem issued_issue (s : Network α ω) (ids : List WriteId) :
    (s.issue ids).issued = s.issued ++ ids := rfl

theorem replace_self (s : Network α ω) (node : String) :
    s.replace node (s.stores node) = s := by
  have hstores : (s.replace node (s.stores node)).stores = s.stores := by
    funext q
    rw [stores_replace]
    split
    · rename_i hq
      rw [hq]
    · rfl
  calc s.replace node (s.stores node)
      = ⟨(s.replace node (s.stores node)).stores, s.issued⟩ := rfl
    _ = s := by rw [hstores]

/-! ## §2 The order of issue -/

/-- The first of the two writes was issued before the second. -/
def Before (issued : List WriteId) (x y : WriteId) : Prop :=
  y ∈ issued ∧ issued.idxOf x < issued.idxOf y

instance (issued : List WriteId) (x y : WriteId) : Decidable (Before issued x y) :=
  inferInstanceAs (Decidable (y ∈ issued ∧ issued.idxOf x < issued.idxOf y))

theorem mem_of_before (h : Before issued x y) : x ∈ issued :=
  List.idxOf_lt_length_iff.1 (Nat.lt_trans h.2 (List.idxOf_lt_length_iff.2 h.1))

theorem before_trans (hxy : Before issued x y) (hyz : Before issued y z) : Before issued x z :=
  ⟨hyz.1, Nat.lt_trans hxy.2 hyz.2⟩

theorem before_asymm (hxy : Before issued x y) : ¬ Before issued y x :=
  fun hyx => Nat.lt_asymm hxy.2 hyx.2

/-- Of two writes that have been issued, one was issued first. -/
theorem before_or_before (hx : x ∈ issued) (hy : y ∈ issued) (hne : x ≠ y) :
    Before issued x y ∨ Before issued y x := by
  have hindex : issued.idxOf x ≠ issued.idxOf y := fun h => hne ((List.idxOf_inj hx).1 h)
  rcases Nat.lt_or_gt_of_ne hindex with hlt | hgt
  · exact .inl ⟨hy, hlt⟩
  · exact .inr ⟨hx, hgt⟩

theorem before_concat (z : WriteId) (h : Before issued x y) : Before (issued ++ [z]) x y := by
  refine ⟨List.mem_append_left _ h.1, ?_⟩
  rw [List.idxOf_append_of_mem (mem_of_before h), List.idxOf_append_of_mem h.1]
  exact h.2

theorem before_new (hx : x ∈ issued) (hz : z ∉ issued) : Before (issued ++ [z]) x z := by
  refine ⟨List.mem_append_right _ List.mem_cons_self, ?_⟩
  rw [List.idxOf_append_of_mem hx, List.idxOf_append_of_notMem hz]
  exact Nat.lt_of_lt_of_le (List.idxOf_lt_length_iff.2 hx) (Nat.le_add_right _ _)

/-! ## §3 One exchange -/

/-- What one exchange can lead to: the reply, and the network afterwards. -/
inductive Ran (kind : ItemKind) (s : Network α ω) :
    Exchange α ω → Option (Reply α) → Network α ω → Prop
  /-- A local write is refused. -/
  | refused (node key : String) (payload : α) (max : Nat) (error : StoreError) :
    Ran kind s (.write node key payload max) (some (.written (.error error))) s
  /-- A local write is stored under the next version of its store. -/
  | written {node key : String} (payload : α) (max : Nat) {metadata : Metadata}
      (hfree : ((s.stores node).1.records.find? key).bind (·.marker?) = none)
      (hmetadata : metadata = .stamp (((s.stores node).1.records.find? key).map (·.metadata)) node
        (s.stores node).1.versioned.lastVersion max) :
    Ran kind s (.write node key payload max) (some (.written (.ok (some metadata))))
      ((s.replace node ((s.stores node).1.versioned.write key (.data payload) metadata,
        (s.stores node).2)).issue [⟨node, (s.stores node).1.versioned.lastVersion⟩])
  /-- There is no data to send. -/
  | withheld (source target key : String) (intake : Intake α ω) :
    Ran kind s (.send source target key intake) none s
  | answered {source target key : String} {intake : Intake α ω} {sent : Record α} {a : α}
      {result : Except (IntakeError StoreError) Outcome} {m' : Memory α}
      {notes : List Notification} {w' : ω}
      (hsent : (s.stores source).1.records.find? key = some sent) (hdata : sent.content = .data a)
      (htaken : Taken intake kind target key (s.stores target).1 (s.stores target).2 sent.metadata
        (some a) result m' notes w') :
    Ran kind s (.send source target key intake) (some (.outcome result))
      (s.replace target (committed intake (s.stores target).1 m' notes w' result))

theorem identity_stamp (previous : Option Metadata) (node : String) (version : UInt64)
    (max : Nat) : (Metadata.stamp previous node version max).identity = some ⟨node, version⟩ := by
  cases previous <;> rfl

theorem ran_write (kind : ItemKind) (s : Network α ω) (node key : String) (payload : α)
    (max : Nat) :
    Ran kind s (.write node key payload max) ((Exchange.write node key payload max).run kind s).1
      ((Exchange.write node key payload max).run kind s).2 := by
  cases hfree : ((s.stores node).1.records.find? key).bind (·.marker?) with
  | some marker =>
    have hanswer := putLocal_of_marker kind node payload max (s.stores node).2 hfree
    have hsame : (s.replace node (s.stores node)).issue [] = s := by
      rw [replace_self]
      simp [Network.issue]
    simp only [Exchange.run, Command.run, hanswer, Reply.issued, Except.map]
    rw [hsame]
    exact .refused node key payload max _
  | none =>
    have hanswer := putLocal_of_free kind node payload max (s.stores node).2 hfree
    simp only [Exchange.run, Command.run, hanswer, Reply.issued, Except.map, identity_stamp,
      Option.toList_some]
    exact .written payload max hfree rfl

theorem ran_send (kind : ItemKind) (s : Network α ω) (source target key : String)
    (intake : Intake α ω) :
    Ran kind s (.send source target key intake)
      ((Exchange.send source target key intake).run kind s).1
      ((Exchange.send source target key intake).run kind s).2 := by
  cases hsent : (s.stores source).1.records.find? key with
  | none =>
    simp only [Exchange.run, hsent]
    exact .withheld source target key intake
  | some sent =>
    obtain ⟨content, etag, metadata⟩ := sent
    cases content with
    | data a =>
      obtain ⟨result, m', notes, w', htaken, hrun⟩ :=
        run_replicate kind target intake key metadata (some a) (s.stores target)
      simp only [Exchange.run, hsent, hrun]
      exact .answered hsent rfl htaken
    -- only data is sent
    | marker marker =>
      simp only [Exchange.run, hsent]
      exact .withheld source target key intake
    | tombstone =>
      simp only [Exchange.run, hsent]
      exact .withheld source target key intake

/-- An exchange goes one of the ways of `Ran`. -/
theorem run_ran (kind : ItemKind) (s : Network α ω) (e : Exchange α ω) :
    Ran kind s e (e.run kind s).1 (e.run kind s).2 := by
  cases e with
  | write node key payload max => exact ran_write kind s node key payload max
  | send source target key intake => exact ran_send kind s source target key intake

/-! ## §4 Versions are not used twice -/

theorem lastVersion_eraseAll (m : Memory α) (keys : List String) :
    (m.eraseAll keys).lastVersion = m.lastVersion := by
  induction keys generalizing m with
  | nil => rfl
  | cons key rest ih => exact ih (m.erase key)

theorem lastVersion_contended {localId : String} {side : Metadata} {payload : Option α}
    {existing : Record α} {operation : Operation} {m m' : Memory α}
    {result : Except (IntakeError StoreError) Outcome} {notes : List Notification}
    (hcontended : Contended kind localId key side payload existing operation m result m' notes) :
    m'.lastVersion = m.lastVersion := by
  cases hcontended with
  | created _ _ _ hm =>
    rw [hm]
    rfl
  | joined _ _ _ _ hm =>
    rw [hm]
    rfl
  | _ => rfl

theorem lastVersion_met {i : Intake α ω} {localId : String} {m m' : Memory α} {w w' : ω}
    {metadata : Metadata} {payload : Option α} {existing : Record α}
    {result : Except (IntakeError StoreError) Outcome} {notes : List Notification}
    (hmet : Met i kind localId key m w metadata payload existing result m' notes w') :
    m'.lastVersion = m.lastVersion := by
  cases hmet with
  | settled _ _ hsettled =>
    cases hsettled with
    | removed => exact lastVersion_eraseAll _ _
    | kept => exact lastVersion_eraseAll _ _
    | refused => rfl
  | declined _ _ hcontended => exact lastVersion_contended hcontended
  | disputed _ _ _ hcontended => exact lastVersion_contended hcontended
  | _ => rfl

/-- Taking in a write gives out no version. -/
theorem lastVersion_taken {i : Intake α ω} {localId : String} {m m' : Memory α} {w w' : ω}
    {metadata : Metadata} {payload : Option α}
    {result : Except (IntakeError StoreError) Outcome} {notes : List Notification}
    (htaken : Taken i kind localId key m w metadata payload result m' notes w') :
    m'.lastVersion = m.lastVersion := by
  cases htaken with
  | met _ _ hmet => exact lastVersion_met hmet
  | _ => rfl

/-- How many versions the store of `node` has given out. -/
def count (s : Network α ω) (node : String) : Nat := (s.stores node).1.lastVersion.toNat

/-- Every identity was issued once, by a store that has counted at least so far, and no store has
counted further than there are identities. -/
structure Counted (s : Network α ω) : Prop where
  nodup : s.issued.Nodup
  counted : ∀ id ∈ s.issued, id.version.toNat ≤ count s id.source
  bounded : ∀ node, count s node ≤ s.issued.length

/-- While there is room, the next version of a store is one more than its last. -/
theorem toNat_versioned (h : Counted s) (hroom : s.issued.length + 1 < UInt64.size)
    (node : String) : (s.stores node).1.versioned.lastVersion.toNat = count s node + 1 := by
  have hbound := h.bounded node
  have hone : (1 : UInt64).toNat = 1 := rfl
  show ((s.stores node).1.lastVersion + 1).toNat = _
  rw [UInt64.toNat_add, hone]
  -- the store has counted no further than there are identities, so the sum does not wrap
  exact Nat.mod_eq_of_lt (Nat.lt_of_le_of_lt (Nat.succ_le_succ hbound) hroom)

theorem fresh_of_counted (h : Counted s) (hroom : s.issued.length + 1 < UInt64.size)
    (node : String) :
    (⟨node, (s.stores node).1.versioned.lastVersion⟩ : WriteId) ∉ s.issued := by
  intro hissued
  have hcounted := h.counted _ hissued
  simp only [toNat_versioned h hroom] at hcounted
  omega

theorem counted_ran {e : Exchange α ω} {reply : Option (Reply α)} (h : Counted s)
    (hroom : s.issued.length + 1 < UInt64.size) (hran : Ran kind s e reply s') : Counted s' := by
  cases hran with
  | refused => exact h
  | withheld => exact h
  | @answered source target key intake sent a result m' notes w' _ _ htaken =>
    have hcount : ∀ q, count (s.replace target
        (committed intake (s.stores target).1 m' notes w' result)) q = count s q := by
      -- an intake gives out no version, whether it commits or refuses
      intro q
      simp only [count, stores_replace]
      split
      · rename_i hq
        cases result with
        | ok outcome => rw [hq, ← lastVersion_taken htaken]; rfl
        | error error => rw [hq]; rfl
      · rfl
    exact ⟨h.nodup, fun id hid => hcount id.source ▸ h.counted id hid,
      fun q => hcount q ▸ h.bounded q⟩
  | @written node key payload max metadata =>
    have hcount : ∀ q, count ((s.replace node ((s.stores node).1.versioned.write key
        (.data payload) metadata, (s.stores node).2)).issue
          [⟨node, (s.stores node).1.versioned.lastVersion⟩]) q =
        if q = node then count s node + 1 else count s q := by
      -- only the store that writes counts on
      intro q
      rw [← toNat_versioned h hroom node]
      simp only [count, stores_issue, stores_replace]
      split <;> rfl
    have hnodup := h.nodup.concat (fresh_of_counted h hroom node)
    rw [List.concat_eq_append] at hnodup
    refine ⟨hnodup, ?_, ?_⟩
    · intro id hid
      rw [hcount]
      rcases List.mem_append.1 hid with hid | hid
      · -- the identities that were there have been counted before
        have hcounted := h.counted id hid
        split
        · rename_i hnode
          rw [hnode] at hcounted
          omega
        · exact hcounted
      · rw [List.mem_singleton.1 hid, if_pos rfl]
        exact Nat.le_of_eq (toNat_versioned h hroom node)
    · intro q
      have hbound := h.bounded q
      have hbound' := h.bounded node
      rw [hcount, issued_issue, List.length_append, List.length_singleton, issued_replace]
      split <;> omega

/-! ## §5 Lineages list what was issued before -/

/-- Every record of every store is sound. -/
def Follows (R : WriteId → WriteId → Prop) (s : Network α ω) : Prop :=
  ∀ node, AllSound s.issued R (s.stores node).1

theorem follows_replace {R : WriteId → WriteId → Prop} (h : Follows R s) {node : String}
    {store : Memory α × ω} (hstore : AllSound s.issued R store.1) :
    Follows R (s.replace node store) := by
  intro q
  rw [stores_replace]
  split
  · exact hstore
  · exact h q

theorem sound_mono {R R' : WriteId → WriteId → Prop} {issued' : List WriteId} {r : Record α}
    (hissued : ∀ id ∈ issued, id ∈ issued') (hR : ∀ {x y}, R x y → R' x y)
    (h : Sound issued R r) : Sound issued' R' r := by
  cases h with
  | data hdata htraced =>
    exact .data hdata ⟨htraced.identity, hissued _ htraced.known,
      fun e he => hR (htraced.related e he), htraced.live, htraced.unmarked⟩
  | marker hmarker hsource hlineage => exact .marker hmarker hsource hlineage

/-- A stamp lists what was there, so it is sound if that and its lineage are related to it. -/
theorem traced_stamp {R R' : WriteId → WriteId → Prop} {m : Memory α} {version : UInt64}
    (h : AllSound issued R m) (hfree : (m.records.find? key).bind (·.marker?) = none)
    (hnew : ∀ {e id}, id ∈ issued → (e = id ∨ R e id) → R' e ⟨node, version⟩) (max : Nat) :
    Traced (issued ++ [⟨node, version⟩]) R' ⟨node, version⟩
      (.stamp ((m.records.find? key).map (·.metadata)) node version max) := by
  -- a stamp lists the record below it and what that lists
  have hrelated : ∀ e ∈ (Metadata.stamp ((m.records.find? key).map (·.metadata)) node version
      max).lineage, R' e ⟨node, version⟩ := by
    intro e he
    cases hread : m.records.find? key with
    | none =>
      rw [hread] at he
      cases he
    | some existing =>
      rw [hread] at he hfree
      cases h key existing hread with
      | marker hmarker =>
        rw [Option.bind_some, marker?_of_content hmarker] at hfree
        cases hfree
      | @data id _ _ htraced =>
        rcases Metadata.mem_of_mem_stamp he with hlisted | hidentity
        · exact hnew htraced.known (.inr (htraced.related e hlisted))
        · exact hnew htraced.known
            (.inl (Option.some.inj (hidentity.symm.trans htraced.identity)))
  refine ⟨identity_stamp _ _ _ _, List.mem_append_right _ List.mem_cons_self, hrelated, ?_, ?_⟩ <;>
    cases (m.records.find? key).map (·.metadata) <;> rfl

/-- What a local write lists is related to it, and what was sound stays so. -/
theorem follows_written {R R' : WriteId → WriteId → Prop} (h : Follows R s) {payload : α}
    {max : Nat} {metadata : Metadata}
    (hfree : ((s.stores node).1.records.find? key).bind (·.marker?) = none)
    (hmetadata : metadata = .stamp (((s.stores node).1.records.find? key).map (·.metadata)) node
      (s.stores node).1.versioned.lastVersion max)
    (hR : ∀ {x y}, R x y → R' x y)
    (hnew : ∀ {e id}, id ∈ s.issued → (e = id ∨ R e id) →
      R' e ⟨node, (s.stores node).1.versioned.lastVersion⟩) :
    Follows R' ((s.replace node ((s.stores node).1.versioned.write key (.data payload) metadata,
      (s.stores node).2)).issue [⟨node, (s.stores node).1.versioned.lastVersion⟩]) := by
  have hmono : ∀ q, AllSound (s.issued ++ [⟨node, (s.stores node).1.versioned.lastVersion⟩]) R'
      (s.stores q).1 :=
    fun q k r hread => sound_mono (fun _ hid => List.mem_append_left _ hid) hR (h q k r hread)
  intro q
  rw [stores_issue, stores_replace, issued_issue, issued_replace]
  split
  · rw [hmetadata]
    exact allSound_write (m := (s.stores node).1.versioned) (hmono node) key payload
      (traced_stamp (h node) hfree hnew max)
  · exact hmono q

theorem traced_of_data {R : WriteId → WriteId → Prop} {r : Record α} {a : α}
    (h : Sound issued R r) (hdata : r.content = .data a) :
    ∃ id, Traced issued R id r.metadata := by
  cases h with
  | data _ htraced => exact ⟨_, htraced⟩
  | marker hmarker => simp [hdata] at hmarker

/-- What is sent leaves the receiver sound, if a decision is kept as the upper one of two writes. -/
theorem follows_answered {R : WriteId → WriteId → Prop}
    (htrans : ∀ {x y z}, R x y → R y z → R x z) {intake : Intake α ω} {source target : String}
    {sent : Record α} {a : α} {result : Except (IntakeError StoreError) Outcome} {m' : Memory α}
    {notes : List Notification} {w' : ω} (hbuiltIn : intake.resolver.BuiltIn) (h : Follows R s)
    (hsent : (s.stores source).1.records.find? key = some sent) (hdata : sent.content = .data a)
    (htaken : Taken intake kind target key (s.stores target).1 (s.stores target).2 sent.metadata
      (some a) result m' notes w')
    (hupper : result = .ok .resolved → ∀ id, sent.metadata.identity = some id →
      KeepsUpper R key id (s.stores target).1 m') :
    Follows R (s.replace target (committed intake (s.stores target).1 m' notes w' result)) := by
  obtain ⟨id, htraced⟩ := traced_of_data (h source key sent hsent) hdata
  apply follows_replace h
  cases result with
  | ok outcome =>
    exact sound_taken htrans hbuiltIn (h target) htraced htaken
      fun hresolved => hupper (congrArg Except.ok hresolved) id htraced.identity
  -- a refusal leaves the receiver as it was
  | error error => exact h target

/-- A policy has decided between what was sent and what was stored, and has kept the identity that
was issued earlier. -/
inductive KeepsEarlier (s : Network α ω) :
    Exchange α ω → Option (Reply α) → Network α ω → Prop
  | intro {source target key : String} {intake : Intake α ω} {sent stored after : Record α}
      {kept lost : WriteId} {s' : Network α ω}
      (hsent : (s.stores source).1.records.find? key = some sent)
      (hstored : (s.stores target).1.records.find? key = some stored)
      (hafter : (s'.stores target).1.records.find? key = some after)
      (hkept : after.metadata.identity = some kept)
      (hlost : sent.metadata.identity = some kept ∧ stored.metadata.identity = some lost ∨
        sent.metadata.identity = some lost ∧ stored.metadata.identity = some kept)
      (hearlier : Before s.issued kept lost) :
    KeepsEarlier s (.send source target key intake) (some (.outcome (.ok .resolved))) s'

theorem mem_issued_of_identity {R : WriteId → WriteId → Prop} {r : Record α} {id : WriteId}
    (h : Sound issued R r) (hid : r.metadata.identity = some id) : id ∈ issued := by
  cases h with
  | data _ htraced =>
    obtain rfl := Option.some.inj (htraced.identity.symm.trans hid)
    exact htraced.known
  | marker _ hsource => simp [Metadata.identity, hsource] at hid

/-- A decision that does not keep the earlier write keeps the later one. -/
theorem keepsUpper_of_not_earlier {intake : Intake α ω} {source target : String}
    {sent : Record α} {m' : Memory α} {notes : List Notification} {w' : ω} {id : WriteId}
    (h : Follows (Before s.issued) s)
    (hsent : (s.stores source).1.records.find? key = some sent)
    (hid : sent.metadata.identity = some id)
    (hnot : ¬ KeepsEarlier s (.send source target key intake) (some (.outcome (.ok .resolved)))
      (s.replace target (committed intake (s.stores target).1 m' notes w' (.ok .resolved)))) :
    KeepsUpper (Before s.issued) key id (s.stores target).1 m' := by
  intro stored current after kept hstored hcurrent hne hafter hkept
  have hafter' : ((s.replace target (committed intake (s.stores target).1 m' notes w'
      (.ok .resolved))).stores target).1.records.find? key = some after := by
    rw [stores_replace, if_pos rfl]
    exact hafter
  have hissued := mem_issued_of_identity (h target key stored hstored) hcurrent
  have hissued' := mem_issued_of_identity (h source key sent hsent) hid
  rcases before_or_before hissued hissued' hne with hbefore | hbefore
  · refine ⟨fun _ => hbefore, fun heq => ?_⟩
    -- the stored write was issued earlier, so it has not been kept
    exact absurd (.intro hsent hstored hafter' (heq ▸ hkept) (.inr ⟨hid, hcurrent⟩) hbefore) hnot
  · refine ⟨fun heq => ?_, fun _ => hbefore⟩
    exact absurd (.intro hsent hstored hafter' (heq ▸ hkept) (.inl ⟨hid, hcurrent⟩) hbefore) hnot

theorem follows_true_ran {e : Exchange α ω} {reply : Option (Reply α)} (hbuiltIn : e.BuiltIn)
    (h : Follows (fun _ _ => True) s) (hran : Ran kind s e reply s') :
    Follows (fun _ _ => True) s' := by
  cases hran with
  | refused => exact h
  | withheld => exact h
  | written payload max hfree hmetadata =>
    exact follows_written h hfree hmetadata (fun _ => trivial) (fun _ _ => trivial)
  | answered hsent hdata htaken =>
    exact follows_answered (fun _ _ => trivial) hbuiltIn h hsent hdata htaken
      fun _ _ _ _ _ _ _ _ _ _ _ _ => ⟨fun _ => trivial, fun _ => trivial⟩

/-- If it does not keep the earlier one of two writes, an exchange leaves lineages that list what
was issued before. -/
theorem follows_before_ran {e : Exchange α ω} {reply : Option (Reply α)} (hcounted : Counted s)
    (hroom : s.issued.length + 1 < UInt64.size) (hbuiltIn : e.BuiltIn)
    (h : Follows (Before s.issued) s) (hran : Ran kind s e reply s')
    (hnot : ¬ KeepsEarlier s e reply s') : Follows (Before s'.issued) s' := by
  cases hran with
  | refused => exact h
  | withheld => exact h
  | @written node key payload max metadata hfree hmetadata =>
    have hfresh := fresh_of_counted hcounted hroom node
    -- the order of what was there stays, and the new identity comes after all of it
    apply follows_written h hfree hmetadata
    · exact fun hbefore => before_concat _ hbefore
    · intro e id hid he
      rcases he with rfl | hbefore
      · exact before_new hid hfresh
      · exact before_new (mem_of_before hbefore) hfresh
  | answered hsent hdata htaken =>
    refine follows_answered (R := Before s.issued) before_trans hbuiltIn h hsent hdata htaken ?_
    rintro rfl id hid
    exact keepsUpper_of_not_earlier h hsent hid hnot

/-! ## §6 Runs -/

/-- At some point of the run an exchange has kept the earlier one of two writes. -/
def EarlierKept (kind : ItemKind) (w : String → ω) (exchanges : List (Exchange α ω)) : Prop :=
  ∃ before decision rest, exchanges = before ++ decision :: rest ∧
    KeepsEarlier (Exchange.runAll kind w before) decision
      (decision.run kind (Exchange.runAll kind w before)).1
      (decision.run kind (Exchange.runAll kind w before)).2

theorem earlierKept_concat {w : String → ω} {exchanges : List (Exchange α ω)}
    (h : EarlierKept kind w exchanges) (e : Exchange α ω) :
    EarlierKept kind w (exchanges ++ [e]) := by
  obtain ⟨before, decision, rest, rfl, hkeeps⟩ := h
  exact ⟨before, decision, rest ++ [e], by simp, hkeeps⟩

theorem length_issued_ran {e : Exchange α ω} {reply : Option (Reply α)}
    (hran : Ran kind s e reply s') : s'.issued.length ≤ s.issued.length + 1 := by
  cases hran with
  | written => simp
  | _ => exact Nat.le_succ _

/-- What holds after every run: versions are counted, identities are known, and lineages list what
was issued before unless the earlier one of two writes has been kept. -/
structure Exchanged (kind : ItemKind) (w : String → ω) (exchanges : List (Exchange α ω))
    (s : Network α ω) : Prop where
  counted : Counted s
  length : s.issued.length ≤ exchanges.length
  known : Follows (fun _ _ => True) s
  ordered : Follows (Before s.issued) s ∨ EarlierKept kind w exchanges

theorem exchanged_runAll (kind : ItemKind) (w : String → ω) {exchanges : List (Exchange α ω)}
    (hbuiltIn : ∀ e ∈ exchanges, e.BuiltIn) (hroom : exchanges.length < UInt64.size) :
    Exchanged kind w exchanges (Exchange.runAll kind w exchanges) := by
  -- on the run so far: the last exchange keeps the order, or it is the one that keeps the earlier
  -- of two writes
  induction exchanges using List.reverseRecOn with
  | nil =>
    have hempty : ∀ R, Follows R (Exchange.runAll kind w ([] : List (Exchange α ω))) := by
      intro R node key r hread
      cases hread
    have hcounted : Counted (Exchange.runAll kind w ([] : List (Exchange α ω))) := by
      refine ⟨List.nodup_nil, ?_, fun _ => Nat.le_refl 0⟩
      intro id hid
      cases hid
    exact ⟨hcounted, Nat.le_refl 0, hempty _, .inl (hempty _)⟩
  | append_singleton exchanges e ih =>
    rw [List.length_append, List.length_singleton] at hroom
    have hrun := ih (fun x hx => hbuiltIn x (List.mem_append_left _ hx)) (by omega)
    have he : e.BuiltIn := hbuiltIn e (List.mem_append_right _ List.mem_cons_self)
    have hnext : (Exchange.runAll kind w exchanges).issued.length + 1 < UInt64.size := by
      have hlength := hrun.length
      omega
    have hran := run_ran kind (Exchange.runAll kind w exchanges) e
    rw [Exchange.runAll_concat]
    refine ⟨counted_ran hrun.counted hnext hran, ?_, follows_true_ran he hrun.known hran, ?_⟩
    · rw [List.length_append, List.length_singleton]
      exact Nat.le_trans (length_issued_ran hran) (Nat.succ_le_succ hrun.length)
    · rcases hrun.ordered with hordered | hkept
      · by_cases hkeeps : KeepsEarlier (Exchange.runAll kind w exchanges) e
            (e.run kind (Exchange.runAll kind w exchanges)).1
            (e.run kind (Exchange.runAll kind w exchanges)).2
        · exact .inr ⟨exchanges, e, [], rfl, hkeeps⟩
        · exact .inl (follows_before_ran hrun.counted hnext he hordered hran hkeeps)
      · exact .inr (earlierKept_concat hkept e)

/-- A contradiction is answered only when two records whose writes list each other meet. -/
theorem crossed_of_ran {R : WriteId → WriteId → Prop} {e : Exchange α ω}
    {violation : CausalityViolation} (h : Follows R s)
    (hran : Ran kind s e (some (.outcome (.error (.causality violation)))) s') :
    violation.incoming ∈ s.issued ∧ violation.existing ∈ s.issued ∧
      R violation.existing violation.incoming ∧ R violation.incoming violation.existing := by
  cases hran with
  | @answered source target key _ sent _ _ _ _ _ hsent hdata htaken =>
    obtain ⟨id, htraced⟩ := traced_of_data (h source key sent hsent) hdata
    obtain ⟨current, rfl, hissued, hcurrent, hid⟩ := crossed_of_taken (h target) htraced htaken
    exact ⟨htraced.known, hissued, hcurrent, hid⟩

/-- Stores write locally and send each other their data through built-in policies, in any order and
fewer times than there are versions. When an intake answers that two writes list each other, then
both have been issued and no identity has been issued twice; but a policy has decided before between
two writes and has kept the identity that was issued earlier. -/
theorem earlier_kept_before_contradiction (kind : ItemKind) (w : String → ω)
    {exchanges : List (Exchange α ω)} (hbuiltIn : ∀ e ∈ exchanges, e.BuiltIn)
    (hroom : exchanges.length < UInt64.size) {e : Exchange α ω} {violation : CausalityViolation}
    (hreply : (e.run kind (Exchange.runAll kind w exchanges)).1 =
      some (.outcome (.error (.causality violation)))) :
    let s := Exchange.runAll kind w exchanges
    s.issued.Nodup ∧ violation.incoming ∈ s.issued ∧ violation.existing ∈ s.issued ∧
      EarlierKept kind w exchanges := by
  intro s
  have hrun := exchanged_runAll kind w hbuiltIn hroom
  have hran := run_ran kind s e
  rw [hreply] at hran
  obtain ⟨hincoming, hexisting, -, -⟩ := crossed_of_ran hrun.known hran
  refine ⟨hrun.counted.nodup, hincoming, hexisting, ?_⟩
  rcases hrun.ordered with hordered | hkept
  · -- each of the two writes would have been issued before the other
    obtain ⟨-, -, hbefore, hafter⟩ := crossed_of_ran hordered hran
    exact absurd hafter (before_asymm hbefore)
  · exact hkept

/-- `A` and `B` write the same key. `C` receives the write of `B`, and then `B` that of `A` and `A`
that of `B`, where the write that comes last always wins. -/
def crossing : List (Exchange String Unit) :=
  [.write "A" "k" "a1" 50, .write "B" "k" "b1" 50,
    .send "B" "C" "k" { resolver := .preferRemote },
    .send "A" "B" "k" { resolver := .preferRemote },
    .send "C" "A" "k" { resolver := .preferRemote }]

theorem builtIn_crossing : ∀ e ∈ crossing, e.BuiltIn := by
  intro e he
  simp only [crossing, List.mem_cons, List.not_mem_nil, or_false] at he
  rcases he with rfl | rfl | rfl | rfl | rfl
  · trivial
  · trivial
  all_goals exact .preferRemote

/-- When `A` sends to `B` once more, the two records list each other. -/
theorem crossed_crossing : ((Exchange.send "A" "B" "k" { resolver := .preferRemote }).run .document
    (Exchange.runAll .document (fun _ => ()) crossing)).1 =
      some (.outcome (.error (.causality ⟨⟨"B", 1⟩, ⟨"A", 1⟩⟩))) := by
  rfl

/-- By then the write of `A` has been kept over that of `B`, which was issued later. -/
theorem earlier_kept_in_crossing : EarlierKept .document (fun _ => ()) crossing :=
  (earlier_kept_before_contradiction .document (fun _ => ()) builtIn_crossing (by decide)
    crossed_crossing).2.2.2

/-- It is not so that two writes never list each other when no identity is issued twice. -/
theorem crossed_without_reuse :
    ¬ ∀ (exchanges : List (Exchange String Unit)) (e : Exchange String Unit),
      (∀ x ∈ exchanges ++ [e], x.BuiltIn) →
      (Exchange.runAll .document (fun _ => ()) exchanges).issued.Nodup →
      ∀ violation, (e.run .document (Exchange.runAll .document (fun _ => ()) exchanges)).1 ≠
        some (.outcome (.error (.causality violation))) := by
  intro h
  refine h crossing (.send "A" "B" "k" { resolver := .preferRemote }) ?_ (by decide +kernel) _
    crossed_crossing
  intro x hx
  rcases List.mem_append.1 hx with hx | hx
  · exact builtIn_crossing x hx
  · obtain rfl := List.mem_singleton.1 hx
    exact .preferRemote

end Memory

end ReplicaIntake
