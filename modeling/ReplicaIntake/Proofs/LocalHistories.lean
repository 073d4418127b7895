import Mathlib.Algebra.Group.Nat.Defs
import Mathlib.Logic.Function.Basic
import ReplicaIntake.Proofs.Memory.Contention
import ReplicaIntake.Proofs.SlidingWindows
import ReplicaIntake.Store.Session

/-!
# Stores that only their own node writes to

Of a store that takes local puts and deletions only, little has to be known: for each key the
metadata of the latest write, and how many versions have been given out (`Held`).
`Backend.Remembers` says what a backend has to do to keep that, each of its operations for itself.

A local write then is stamped on top of the latest write of its key (`Remembers.run_local`), and a
transaction that fails leaves everything as it was (`run_failed`), so the writes of every key are a
chain (`Remembers.runAll`). A local write fails only if the record under its key cannot be read.
-/

namespace ReplicaIntake

open Op

variable {α σ τ ω β ε : Type}

/-! ## §1 Histories of local writes -/

/-- Nothing came of the transaction: it failed, or it was abandoned. -/
def Reply.isFailure : Reply α → Bool
  | .outcome result => !result.isOk
  | .written result => !result.isOk
  | .record result => !result.isOk
  | .batch result => result.ending != .committed

/-- The metadata of the local write that was made, if one was. -/
def Reply.write? : Reply α → Option Metadata
  | .written (.ok metadata) => metadata
  | _ => none

theorem Reply.write?_of_isFailure {reply : Reply α} (h : reply.isFailure = true) :
    reply.write? = none := by
  cases reply with
  | written result =>
    cases result with
    | ok metadata => cases h
    | error e => rfl
  | _ => rfl

namespace Turn

/-- The key that a local put or deletion is about. -/
def localKey? : Turn α ω → Option String
  | .use (.putLocal key _ _) | .use (.deleteLocal key _) => some key
  | _ => none

/-- Whether it is a local put or deletion with lineages of at most `max` entries. -/
def isLocal (max : Nat) : Turn α ω → Bool
  | .use (.putLocal _ _ bound) | .use (.deleteLocal _ bound) => bound == max
  | _ => false

/-- Transactions with what they answered. -/
def history (b : Backend σ τ α ω) (turns : List (Turn α ω)) (s : σ × ω) :
    List (Turn α ω × Reply α) :=
  turns.zip (runAll b turns s).1

theorem history_cons (b : Backend σ τ α ω) (turn : Turn α ω) (rest : List (Turn α ω))
    (s : σ × ω) :
    history b (turn :: rest) s = (turn, (turn.run b s).1) :: history b rest (turn.run b s).2 :=
  rfl

end Turn

/-- The writes that a history made, under whatever key. -/
def writesIn (history : List (Turn α ω × Reply α)) : List Metadata :=
  history.filterMap fun entry => entry.2.write?

/-- The writes that a history made under a key, in their order. -/
def writesTo (key : String) (history : List (Turn α ω × Reply α)) : List Metadata :=
  history.filterMap fun entry => if entry.1.localKey? = some key then entry.2.write? else none

/-- All transactions in the history are local puts and deletions with the given bound, or came to
nothing, and the versions last for the writes that were made. -/
structure IsLocalRun (max : Nat) (history : List (Turn α ω × Reply α)) : Prop where
  turns : ∀ entry ∈ history, entry.1.isLocal max = true ∨ entry.2.isFailure = true
  room : (writesIn history).length < 2 ^ 64

/-! ## §2 What is held -/

/-- What there is to know of a store in which no key is in conflict. -/
structure Held where
  /-- The metadata of the record under each key. -/
  metadata : String → Option Metadata
  /-- How many versions have been given out. -/
  versions : Nat

namespace Held

/-- There is a record with the given metadata under a key now, or none. -/
def set (h : Held) (key : String) (metadata : Option Metadata) : Held :=
  { h with metadata := Function.update h.metadata key metadata }

/-- One more version has been given out. -/
def counted (h : Held) : Held := { h with versions := h.versions + 1 }

theorem set_set (h : Held) (key : String) (first second : Option Metadata) :
    (h.set key first).set key second = h.set key second := by
  simp [set]

/-- The record that is found under a key is as it is held, and no marker. -/
def Finds (h : Held) (key : String) (found : Option (Record α)) : Prop :=
  found.map (·.metadata) = h.metadata key ∧ found.bind (·.marker?) = none

/-- What a local write stores on top of what is held. -/
def IsNext (h : Held) (localId : String) (max : Nat) (key : String) (metadata : Metadata) : Prop :=
  ∃ deleted, metadata =
    { Metadata.stamp (h.metadata key) localId (.ofNat (h.versions + 1)) max with deleted }

/-- What is held after a history on a store that was empty before it. -/
def after (history : List (Turn α ω × Reply α)) : Held where
  metadata key := (writesTo key history).getLast?
  versions := (writesIn history).length

end Held

/-! ## §3 Backends that remember -/

/-- The backend keeps the metadata of records and counts the versions that it gives out: `S h` is
true of a committed state, and `I h` of an open transaction, in which `h` is held. A record may turn
out to be unreadable, but taking a version changes nothing in that. -/
structure Backend.Remembers (b : Backend σ τ α ω) (S : Held → σ → Prop) (I : Held → τ → Prop) :
    Prop where
  start : ∀ h s, S h s → ∃ t, b.start s = .ok t ∧ I h t
  finish : ∀ h t, I h t → ∃ s queue, b.finish t = .ok (s, queue) ∧ S h s
  read : ∀ h key t, I h t →
    (∃ e, b.read key t = .error e t) ∨ ∃ found, b.read key t = .ok found t ∧ h.Finds key found
  write : ∀ h key payload metadata t, I h t → ∃ etag t',
    b.write key (.ofPayload payload) metadata t = .ok etag t' ∧ I (h.set key (some metadata)) t'
  erase : ∀ h key t, I h t → ∃ t', b.erase key t = .ok () t' ∧ I (h.set key none) t'
  nextVersion : ∀ h t, I h t → ∃ t', b.nextVersion t = .ok (.ofNat (h.versions + 1)) t' ∧
    I h.counted t' ∧ ∀ key found, b.read key t = .ok found t → b.read key t' = .ok found t'

namespace Backend

variable {b : Backend σ τ α ω}

/-! ## §4 Transactions -/

theorem transact_of_ok {body : Op τ StoreError β} {s s' : σ} {t t' : τ} {c : β}
    {queue : PostCommit ω} (w : ω) (hstart : b.start s = .ok t) (hbody : body t = .ok c t')
    (hfinish : b.finish t' = .ok (s', queue)) :
    (b.transact body).answer (s, w) = (.ok c, s', queue.run w) := by
  refine answer_of_ok ?_
  simp only [transact, transaction, hstart, within_of_ok _ w hbody, hfinish]

theorem transact_of_error {body : Op τ StoreError β} {s : σ} {t t' : τ} {e : StoreError} (w : ω)
    (hstart : b.start s = .ok t) (hbody : body t = .error e t') :
    (b.transact body).answer (s, w) = (.error e, s, w) := by
  refine answer_of_error ?_
  simp only [transact, transaction, hstart, within_of_error _ w hbody, id]

/-- A transaction that fails leaves the store as it was. -/
theorem transaction_failed {wrap : StoreError → ε} {body : Op (τ × ω) ε β} {s : σ} {w : ω}
    (h : ((b.transaction wrap body).answer (s, w)).1.isOk = false) :
    ((b.transaction wrap body).answer (s, w)).2.1 = s := by
  simp only [answer, transaction] at h ⊢
  cases hstart : b.start s with
  | error e => rfl
  | ok t =>
    cases hbody : body (t, w) with
    | error e x => simp only [hbody]
    | ok c x =>
      cases hfinish : b.finish x.1 with
      | error e => simp only [hbody, hfinish]
      | ok committed => simp [hstart, hbody, hfinish, Except.isOk, Except.toBool] at h

/-- A session that is not committed leaves the store as it was. -/
theorem session_failed {steps : List (Step α ω)} {isCommitted : Bool} {s : σ} {w : ω}
    (h : (b.session steps isCommitted (s, w)).1.ending ≠ .committed) :
    (b.session steps isCommitted (s, w)).2.1 = s := by
  simp only [session] at h ⊢
  cases hstart : b.start s with
  | error e => rfl
  | ok t =>
    cases isCommitted with
    | false => rfl
    | true =>
      cases hfinish : b.finish (Step.runAll b steps (t, w)).2.1 with
      | error e => simp only [hfinish, if_true]
      | ok committed => simp [hstart, hfinish] at h

/-- What fails leaves the store as it was. -/
theorem run_failed {turn : Turn α ω} {s : σ} {w : ω}
    (h : (turn.run b (s, w)).1.isFailure = true) : (turn.run b (s, w)).2.1 = s := by
  have hmap : ∀ {r : Except StoreError Metadata}, (r.map some).isOk = r.isOk := fun {r} => by
    cases r <;> rfl
  cases turn with
  | session steps isCommitted => exact session_failed (by simpa [Turn.run, Reply.isFailure] using h)
  | use command =>
    cases command with
    | batch calls isCommitted =>
      simp only [Turn.run, Command.run, ← session_calls] at h ⊢
      exact session_failed (by simpa [Reply.isFailure] using h)
    | putLocal key payload max | resolveLocal key payload max =>
      simp only [Turn.run, Command.run, Reply.isFailure, hmap, Bool.not_eq_true'] at h
      exact transaction_failed h
    | replicate intake key metadata payload | deleteLocal key max | get key =>
      simp only [Turn.run, Command.run, Reply.isFailure, Bool.not_eq_true'] at h
      exact transaction_failed h

/-! ## §5 Local writes -/

theorem checkEtag_found (key : String) (found : Option (Record α)) (t : τ) :
    checkEtag key (found.map (·.etag)) found t = .ok () t := by
  cases found <;> simp [checkEtag]

theorem refuseConflicted_free {key : String} {found : Option (Record α)}
    (hfree : found.bind (·.marker?) = none) (t : τ) :
    refuseConflicted key found t = .ok () t := by
  simp [refuseConflicted, hfree]

/-- What comes of a local put or deletion where `h` is held: the record under the key cannot be
read, or there is nothing to delete, or the next write is stored. -/
inductive Attempted (b : Backend σ τ α ω) (S : Held → σ → Prop) (h : Held) (max : Nat)
    (key : String) (s : σ) (w : ω) : Except StoreError (Option Metadata) × (σ × ω) → Prop
  | unreadable {e : StoreError} (hget : (b.get key).answer (s, w) = (.error e, s, w)) :
    Attempted b S h max key s w (.error e, s, w)
  | absent {s' : σ} {w' : ω} (hs' : S h s') : Attempted b S h max key s w (.ok none, s', w')
  | stored {metadata : Metadata} {s' : σ} {w' : ω} (hnext : h.IsNext b.localId max key metadata)
    (hs' : S (h.counted.set key (some metadata)) s') :
    Attempted b S h max key s w (.ok (some metadata), s', w')

namespace Remembers

variable {S : Held → σ → Prop} {I : Held → τ → Prop} {h : Held} (hb : b.Remembers S I)

include hb

/-- A put that expects what is stored is made. -/
theorem put_found {key : String} {found : Option (Record α)} {t : τ} (ht : I h t)
    (hread : b.read key t = .ok found t) (metadata : Metadata) (payload : α) :
    ∃ etag t', b.put key (found.map (·.etag)) metadata payload t = .ok etag t' ∧
      I (h.set key (some metadata)) t' := by
  obtain ⟨etag, t', hwrite, ht'⟩ := hb.write h key (some payload) metadata t ht
  exact ⟨etag, t', (bind_of_ok hread).trans ((bind_of_ok (checkEtag_found key found t)).trans hwrite),
    ht'⟩

/-- A record that is found can be replaced by a tombstone. -/
theorem replace_found {key : String} {existing : Record α} {t : τ} (ht : I h t)
    (hread : b.read key t = .ok (some existing) t) (metadata : Metadata) :
    ∃ t', b.replace key existing metadata none t = .ok { metadata with deleted := true } t' ∧
      I (h.set key (some { metadata with deleted := true })) t' := by
  obtain ⟨t₁, herase, ht₁⟩ := hb.erase h key t ht
  have hremove : b.remove key (some existing.etag) t = .ok () t₁ :=
    (bind_of_ok hread).trans ((bind_of_ok (checkEtag_found key (some existing) t)).trans herase)
  obtain ⟨etag, t₂, hwrite, ht₂⟩ :=
    hb.write _ key none { metadata with deleted := true } t₁ ht₁
  rw [Held.set_set] at ht₂
  exact ⟨t₂, (bind_of_ok hremove).trans (bind_of_ok hwrite), ht₂⟩

theorem putLocal_attempted {s : σ} (hs : S h s) (w : ω) (key : String) (payload : α) (max : Nat) :
    Attempted b S h max key s w (((b.putLocal key payload max).answer (s, w)).1.map some,
      ((b.putLocal key payload max).answer (s, w)).2) := by
  obtain ⟨t, hstart, ht⟩ := hb.start h s hs
  obtain ⟨e, hread⟩ | ⟨found, hread, hmetadata, hfree⟩ := hb.read h key t ht
  · rw [putLocal, transact_of_error w hstart (bind_of_error hread)]
    exact .unreadable (transact_of_error w hstart hread)
  · -- reading finds what it found, so the put is made
    obtain ⟨t₁, hnext, ht₁, hagain⟩ := hb.nextVersion h t ht
    obtain ⟨etag, t₂, hput, ht₂⟩ := hb.put_found ht₁ (hagain key found hread)
      (Metadata.stamp (found.map (·.metadata)) b.localId (.ofNat (h.versions + 1)) max) payload
    obtain ⟨s', queue, hfinish, hs'⟩ := hb.finish _ t₂ ht₂
    rw [putLocal, transact_of_ok w hstart ((bind_of_ok hread).trans
      ((bind_of_ok (refuseConflicted_free hfree t)).trans
        ((bind_of_ok hnext).trans (bind_of_ok hput)))) hfinish]
    refine .stored ⟨false, ?_⟩ hs'
    rw [← hmetadata]
    cases found <;> rfl

theorem deleteLocal_attempted {s : σ} (hs : S h s) (w : ω) (key : String) (max : Nat) :
    Attempted b S h max key s w ((b.deleteLocal key max).answer (s, w)) := by
  obtain ⟨t, hstart, ht⟩ := hb.start h s hs
  obtain ⟨e, hread⟩ | ⟨_ | existing, hread, hmetadata, hfree⟩ := hb.read h key t ht
  · rw [deleteLocal, transact_of_error w hstart (bind_of_error hread)]
    exact .unreadable (transact_of_error w hstart hread)
  · obtain ⟨s', queue, hfinish, hs'⟩ := hb.finish h t ht
    have hrun : (b.deleteLocal key max).answer (s, w) = (.ok none, s', queue.run w) :=
      transact_of_ok w hstart (bind_of_ok hread) hfinish
    rw [hrun]
    exact .absent hs'
  · obtain ⟨t₁, hnext, ht₁, hagain⟩ := hb.nextVersion h t ht
    obtain ⟨t₂, hreplace, ht₂⟩ := hb.replace_found ht₁ (hagain key _ hread)
      (Metadata.stamp (some existing.metadata) b.localId (.ofNat (h.versions + 1)) max)
    obtain ⟨s', queue, hfinish, hs'⟩ := hb.finish _ t₂ ht₂
    rw [deleteLocal, transact_of_ok w hstart ((bind_of_ok hread).trans
      ((bind_of_ok (refuseConflicted_free hfree t)).trans
        ((bind_of_ok hnext).trans (bind_of_ok hreplace)))) hfinish]
    refine .stored ⟨true, ?_⟩ hs'
    rw [← hmetadata]
    rfl

/-- A local put or deletion answers what it stored, if it stored anything. -/
theorem run_local {turn : Turn α ω} {max : Nat} (hlocal : turn.isLocal max = true) {s : σ}
    (hs : S h s) (w : ω) : ∃ key result, turn.localKey? = some key ∧
      turn.run b (s, w) = (.written result.1, result.2) ∧ Attempted b S h max key s w result := by
  unfold Turn.isLocal at hlocal
  split at hlocal
  · rename_i key payload bound
    obtain rfl := eq_of_beq hlocal
    exact ⟨key, _, rfl, rfl, hb.putLocal_attempted hs w key payload bound⟩
  · rename_i key bound
    obtain rfl := eq_of_beq hlocal
    exact ⟨key, _, rfl, rfl, hb.deleteLocal_attempted hs w key bound⟩
  · cases hlocal

end Remembers

end Backend

/-! ## §6 One more transaction -/

section Concat

variable {history : List (Turn α ω × Reply α)} {turn : Turn α ω} {reply : Reply α} {max : Nat}

theorem writesIn_concat (history : List (Turn α ω × Reply α)) (entry : Turn α ω × Reply α) :
    writesIn (history ++ [entry]) = writesIn history ++ entry.2.write?.toList := by
  rw [writesIn, List.filterMap_append]
  cases hwrite : entry.2.write? <;> simp [hwrite, writesIn]

theorem writesTo_concat (key : String) (history : List (Turn α ω × Reply α))
    (entry : Turn α ω × Reply α) :
    writesTo key (history ++ [entry]) = writesTo key history ++
      (if entry.1.localKey? = some key then entry.2.write? else none).toList := by
  rw [writesTo, List.filterMap_append]
  cases hwrite : (if entry.1.localKey? = some key then entry.2.write? else none) <;>
    simp [hwrite, writesTo]

/-- Of a run, any first part is a run. -/
theorem IsLocalRun.of_append {later : List (Turn α ω × Reply α)}
    (h : IsLocalRun max (history ++ later)) : IsLocalRun max history where
  turns entry hentry := h.turns entry (List.mem_append_left later hentry)
  room := by
    refine Nat.lt_of_le_of_lt ?_ h.room
    rw [writesIn, writesIn, List.filterMap_append, List.length_append]
    omega

/-- The writes of each key are a chain, with versions that have been given out. -/
def Chained (localId : String) (max : Nat) (history : List (Turn α ω × Reply α)) : Prop :=
  ∀ key, ∃ ids, Chain localId max ids (writesTo key history) ∧
    ∀ id ∈ ids, id.version.toNat ≤ (writesIn history).length

variable {localId : String} {key : String} {metadata : Metadata}

theorem chained_nil (localId : String) (max : Nat) :
    Chained localId max ([] : List (Turn α ω × Reply α)) :=
  fun _ => ⟨[], .nil localId max, nofun⟩

/-- A transaction that stores nothing adds no write. -/
theorem writesTo_unwritten (hnone : reply.write? = none) (key : String) :
    writesTo key (history ++ [(turn, reply)]) = writesTo key history := by
  simp [writesTo_concat, hnone]

theorem writesIn_unwritten (hnone : reply.write? = none) :
    writesIn (history ++ [(turn, reply)]) = writesIn history := by
  simp [writesIn_concat, hnone]

theorem after_unwritten (hnone : reply.write? = none) :
    Held.after (history ++ [(turn, reply)]) = Held.after history := by
  simp only [Held.after, writesTo_unwritten hnone, writesIn_unwritten hnone]

theorem chained_unwritten (h : Chained localId max history) (hnone : reply.write? = none) :
    Chained localId max (history ++ [(turn, reply)]) := by
  intro key
  rw [writesTo_unwritten hnone, writesIn_unwritten hnone]
  exact h key

/-- A local write adds itself to those of its key. -/
theorem writesTo_written (hkey : turn.localKey? = some key) (hwrite : reply.write? = some metadata)
    (q : String) : writesTo q (history ++ [(turn, reply)]) =
      if q = key then writesTo q history ++ [metadata] else writesTo q history := by
  rw [writesTo_concat, hkey, hwrite]
  by_cases hq : q = key
  · simp [hq]
  · simp [hq, Ne.symm hq]

theorem length_writesIn_written (hwrite : reply.write? = some metadata) :
    (writesIn (history ++ [(turn, reply)])).length = (writesIn history).length + 1 := by
  simp [writesIn_concat, hwrite]

theorem after_written (hkey : turn.localKey? = some key) (hwrite : reply.write? = some metadata) :
    Held.after (history ++ [(turn, reply)]) =
      (Held.after history).counted.set key (some metadata) := by
  simp only [Held.after, Held.set, Held.counted, Held.mk.injEq]
  refine ⟨funext fun q => ?_, length_writesIn_written hwrite⟩
  rw [writesTo_written hkey hwrite]
  by_cases hq : q = key
  · simp [hq]
  · simp [hq]

/-- The next write of a key continues its chain, as long as there is room for its version. -/
theorem chained_written (h : Chained localId max history) (hkey : turn.localKey? = some key)
    (hwrite : reply.write? = some metadata)
    (hnext : (Held.after history).IsNext localId max key metadata)
    (hroom : (writesIn (history ++ [(turn, reply)])).length < 2 ^ 64) :
    Chained localId max (history ++ [(turn, reply)]) := by
  rw [length_writesIn_written hwrite] at hroom
  intro q
  obtain ⟨ids, hchain, hcounted⟩ := h q
  rw [writesTo_written hkey hwrite, length_writesIn_written hwrite]
  have hversion : (UInt64.ofNat ((writesIn history).length + 1)).toNat =
      (writesIn history).length + 1 := by
    rw [UInt64.toNat_ofNat', Nat.mod_eq_of_lt hroom]
  by_cases hq : q = key
  · -- its version is larger than all that were given out
    subst hq
    rw [if_pos rfl]
    refine ⟨_, hchain.stamped hnext fun id hid => ?_, fun id hid => ?_⟩
    · have hle := hcounted id hid
      rw [UInt64.lt_iff_toNat_lt, Held.after, hversion]
      omega
    · rcases List.mem_append.1 hid with hold | hnew
      · exact Nat.le_succ_of_le (hcounted id hold)
      · rw [List.mem_singleton.1 hnew]
        exact hversion.le
  · rw [if_neg hq]
    exact ⟨ids, hchain, fun id hid => Nat.le_succ_of_le (hcounted id hid)⟩

/-- The store holds what it should after the history, and the writes of each key are a chain. -/
structure Recorded (S : Held → σ → Prop) (localId : String) (max : Nat)
    (history : List (Turn α ω × Reply α)) (s : σ) : Prop where
  held : S (.after history) s
  chained : Chained localId max history

variable {S : Held → σ → Prop} {s s' : σ}

theorem Recorded.unwritten (h : Recorded S localId max history s) (hnone : reply.write? = none)
    (hs' : S (.after history) s') : Recorded S localId max (history ++ [(turn, reply)]) s' where
  held := by
    rw [after_unwritten hnone]
    exact hs'
  chained := chained_unwritten h.chained hnone

theorem Recorded.written (h : Recorded S localId max history s) (hkey : turn.localKey? = some key)
    (hwrite : reply.write? = some metadata)
    (hnext : (Held.after history).IsNext localId max key metadata)
    (hroom : (writesIn (history ++ [(turn, reply)])).length < 2 ^ 64)
    (hs' : S ((Held.after history).counted.set key (some metadata)) s') :
    Recorded S localId max (history ++ [(turn, reply)]) s' where
  held := by
    rw [after_written hkey hwrite]
    exact hs'
  chained := chained_written h.chained hkey hwrite hnext hroom

end Concat

/-! ## §7 Whole runs -/

namespace Backend.Remembers

variable {b : Backend σ τ α ω} {S : Held → σ → Prop} {I : Held → τ → Prop}
  (hb : b.Remembers S I) {history : List (Turn α ω × Reply α)} {max : Nat} {s : σ}

include hb

/-- A transaction of a run keeps the chains, and leaves what is held after it. -/
theorem run_turn (h : Recorded S b.localId max history s) (turn : Turn α ω) (w : ω)
    (hrun : IsLocalRun max (history ++ [(turn, (turn.run b (s, w)).1)])) :
    Recorded S b.localId max (history ++ [(turn, (turn.run b (s, w)).1)])
      (turn.run b (s, w)).2.1 := by
  obtain hlocal | hfailed := hrun.turns _ (List.mem_append_right history (List.mem_singleton_self _))
  · obtain ⟨key, result, hkey, hresult, hattempted⟩ := hb.run_local hlocal h.held w
    rw [hresult] at hrun ⊢
    cases hattempted with
    | unreadable hget => exact h.unwritten rfl h.held
    | absent hs' => exact h.unwritten rfl hs'
    | stored hnext hs' => exact h.written hkey rfl hnext hrun.room hs'
  · rw [run_failed hfailed]
    exact h.unwritten (Reply.write?_of_isFailure hfailed) h.held

theorem runAll (h : Recorded S b.localId max history s) (turns : List (Turn α ω)) (w : ω)
    (hrun : IsLocalRun max (history ++ Turn.history b turns (s, w))) :
    Recorded S b.localId max (history ++ Turn.history b turns (s, w))
      (Turn.runAll b turns (s, w)).2.1 := by
  -- on the transactions that are still to come, after whatever history
  induction turns generalizing history s w with
  | nil =>
    rw [Turn.history, List.zip_nil_left, List.append_nil]
    exact h
  | cons turn rest ih =>
    rw [Turn.history_cons, List.append_cons] at hrun ⊢
    exact ih (hb.run_turn h turn w hrun.of_append) (turn.run b (s, w)).2.2 hrun

/-- The record that is read under a key is as it is held. -/
theorem finds_of_get {h : Held} (hs : S h s) (w : ω) {key : String} {found : Option (Record α)}
    (hget : ((b.get key).answer (s, w)).1 = .ok found) : h.Finds key found := by
  obtain ⟨t, hstart, ht⟩ := hb.start h s hs
  obtain ⟨e, hread⟩ | ⟨found', hread, hfinds⟩ := hb.read h key t ht
  · rw [get, transact_of_error w hstart hread] at hget
    cases hget
  · obtain ⟨s', queue, hfinish, -⟩ := hb.finish h t ht
    rw [get, transact_of_ok w hstart hread hfinish] at hget
    cases hget
    exact hfinds

/-- A local put or deletion that fails could not read the record under its key. -/
theorem unreadable_of_failure {h : Held} (hs : S h s) (w : ω) {turn : Turn α ω}
    (hlocal : turn.isLocal max = true)
    (hfailed : (turn.run b (s, w)).1.isFailure = true) :
    ∃ key e, turn.localKey? = some key ∧ (b.get key).answer (s, w) = (.error e, s, w) := by
  obtain ⟨key, result, hkey, hresult, hattempted⟩ := hb.run_local hlocal hs w
  rw [hresult] at hfailed
  cases hattempted with
  | unreadable hget => exact ⟨key, _, hkey, hget⟩
  | absent hs' => cases hfailed
  | stored hnext hs' => cases hfailed

end Backend.Remembers

end ReplicaIntake
