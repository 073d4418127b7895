import Mathlib.Algebra.Group.Nat.Defs
import ReplicaIntake.Proofs.LockstepRuns
import ReplicaIntake.Proofs.Memory.Exchanges

/-!
# Counting the versions that are given out

A local write takes the next version of its store, and nothing else that a store does takes one. So
a store that counts its versions, whatever else it keeps, answers with exactly the versions by which
its count has grown: one local write answers the next one, a session those that it took, in their
order, and a transaction that fails answers none and leaves the count.

`Backend.Counts` says what a backend has to do for that, each of its own operations for itself, and
`Counts.run_turn` is what follows for every transaction.
-/

namespace ReplicaIntake

variable {α σ τ ω ε β γ : Type}

open Op

/-! ## §1 What an operation leaves true -/

namespace Op

variable {I : σ → Prop} {x : Op σ ε β}

/-- However the operation ends, `I` is true of the state that it leaves. -/
def Keeps (I : σ → Prop) (x : Op σ ε β) : Prop := ∀ s, I s → I (x.answer s).2

theorem Keeps.of_ok (h : x.Keeps I) {s s' : σ} {b : β} (hs : I s) (hx : x s = .ok b s') : I s' := by
  have hleft := h s hs
  rwa [answer_of_ok hx] at hleft

/-- A sequence that succeeds does so in both of its parts. -/
theorem ok_of_bind {f : β → Op σ ε γ} {s s' : σ} {c : γ} (h : (x >>= f) s = .ok c s') :
    ∃ b t, x s = .ok b t ∧ f b t = .ok c s' := by
  cases hx : x s with
  | ok b t =>
    rw [bind_of_ok hx] at h
    exact ⟨b, t, rfl, h⟩
  | error e t =>
    rw [bind_of_error hx] at h
    cases h

end Op

/-! ## §2 Versions in a row -/

/-- The `n` numbers after `first`. -/
def numbersAfter (first n : Nat) : List UInt64 := (List.range' (first + 1) n).map UInt64.ofNat

@[simp] theorem numbersAfter_zero (first : Nat) : numbersAfter first 0 = [] := rfl

@[simp] theorem length_numbersAfter (first n : Nat) : (numbersAfter first n).length = n := by
  simp [numbersAfter]

theorem numbersAfter_append (first n m : Nat) :
    numbersAfter first n ++ numbersAfter (first + n) m = numbersAfter first (n + m) := by
  rw [numbersAfter, numbersAfter, ← List.map_append, Nat.add_right_comm first n 1,
    List.range'_append_1, numbersAfter]

/-- As long as there is room for them, the numbers grow. -/
theorem pairwise_numbersAfter {n : Nat} (h : n < 2 ^ 64) :
    (numbersAfter 0 n).Pairwise (· < ·) := by
  rw [numbersAfter, List.pairwise_map]
  refine (List.pairwise_lt_range' ..).imp_of_mem fun {a b} _ hb hab => ?_
  have hroom := (List.mem_range'_1.1 hb).2
  rw [UInt64.lt_iff_toNat_lt, UInt64.toNat_ofNat', UInt64.toNat_ofNat', Nat.mod_eq_of_lt (by omega),
    Nat.mod_eq_of_lt (by omega)]
  exact hab

/-- The version, if the answer is one. -/
def Answer.version? : Answer α → Option UInt64
  | .version n => some n
  | _ => none

/-- The versions among what steps answered. -/
def versionsIn (answers : List (Except CallError (Answer α))) : List UInt64 :=
  answers.filterMap fun answer => answer.toOption.bind Answer.version?

/-- The identities that a use of a store called `localId` has given to writes of its own, as far as
they are committed: that of a local write, or those made of the versions that a session took. -/
def Reply.identities (localId : String) : Reply α → List WriteId
  | .written (.ok (some metadata)) => metadata.identity.toList
  | .batch ⟨answers, .committed⟩ => (versionsIn answers).map (WriteId.mk localId)
  | _ => []

namespace Backend

/-! ## §3 Doing without versions -/

/-- The backend with no versions to give out. -/
def versionless (b : Backend σ τ α ω) : Backend σ τ α ω :=
  { b with nextVersion := throw .database }

variable {b : Backend σ τ α ω}

theorem readSides_versionless (b : Backend σ τ α ω) (shadows : List String) :
    b.versionless.readSides shadows = b.readSides shadows := by
  induction shadows with
  | nil => rfl
  | cons shadow rest ih =>
    simp only [readSides, ih]
    rfl

theorem removeEach_versionless (b : Backend σ τ α ω) (keys : List String) :
    b.versionless.removeEach keys = b.removeEach keys := by
  induction keys with
  | nil => rfl
  | cons key rest ih =>
    simp only [removeEach, ih]
    rfl

/-- An operation on the conflict of some record answers no version. -/
theorem version?_about {source : String} {op : Record α → Op τ StoreError ConflictSummary}
    {x x' : τ × ω} {answer : Answer α} (hcall : Call.about b source op x = .ok answer x') :
    answer.version? = none := by
  obtain ⟨_ | existing, t, -, hrest⟩ := ok_of_bind hcall
  · cases hrest
    rfl
  · obtain ⟨summary, t', -, hpure⟩ := ok_of_bind hrest
    cases hpure
    rfl

/-- Where there are no versions to give out, no step answers one. -/
theorem version?_step {step : Step α ω} {x x' : τ × ω} {answer : Answer α}
    (hstep : step.run b.versionless x = .ok answer x') : answer.version? = none := by
  -- most steps end with their answer, which is no version whatever comes before it
  have hlast : ∀ {γ : Type} {op : Op (τ × ω) CallError γ} {f : γ → Answer α},
      (op >>= fun c => pure (f c)) x = .ok answer x' → (∀ c, (f c).version? = none) →
      answer.version? = none := by
    intro γ op f hrun hf
    obtain ⟨c, t, -, hpure⟩ := ok_of_bind hrun
    cases hpure
    exact hf c
  cases step with
  | call request =>
    cases request with
    | createConflict key newShadow existingShadow source => exact version?_about hstep
    | extendConflict key newShadow source => exact version?_about hstep
    | nextVersion =>
      obtain ⟨version, t, hthrow, -⟩ := ok_of_bind hstep
      cases hthrow
    | _ => exact hlast hstep fun _ => rfl
  | _ => exact hlast hstep fun _ => rfl

/-- A step takes a version or can do without. -/
theorem run_versionless (step : Step α ω) :
    step.run b.versionless = step.run b ∨ step = .call .nextVersion := by
  cases step with
  | call request =>
    cases request with
    | nextVersion => exact .inr rfl
    | _ => exact .inl rfl
  | _ => exact .inl rfl

/-- What is stored in place of a record has the identity that it was to have. -/
theorem identity_replace {key : String} {existing : Record α} {metadata metadata' : Metadata}
    {payload : Option α} {t t' : τ}
    (hrun : b.replace key existing metadata payload t = .ok metadata' t') :
    metadata'.identity = metadata.identity := by
  cases payload with
  | some a =>
    obtain ⟨etag, t₁, -, hpure⟩ := ok_of_bind hrun
    cases hpure
    rfl
  | none =>
    obtain ⟨_, t₁, -, hrest⟩ := ok_of_bind hrun
    obtain ⟨etag, t₂, -, hpure⟩ := ok_of_bind hrest
    cases hpure
    rfl

/-! ## §4 Backends that count -/

/-- The backend counts the versions that it gives out: `S n` is true of a committed state, and `I n`
of an open transaction, if `n` have been given out. Only `nextVersion` adds to the count, and every
transaction can be opened and committed. -/
structure Counts (b : Backend σ τ α ω) (S : Nat → σ → Prop) (I : Nat → τ → Prop) : Prop where
  start : ∀ n s, S n s → ∃ t, b.start s = .ok t ∧ I n t
  finish : ∀ n t, I n t → ∃ s queue, b.finish t = .ok (s, queue) ∧ S n s
  read : ∀ n key, (b.read key).Keeps (I n)
  write : ∀ n key content metadata, (b.write key content metadata).Keeps (I n)
  erase : ∀ n key, (b.erase key).Keeps (I n)
  nextVersion : ∀ n t, I n t → ∃ t', b.nextVersion t = .ok (.ofNat (n + 1)) t' ∧ I (n + 1) t'
  enqueue : ∀ n action t, I n t → I n (b.enqueue action t)

namespace Counts

variable {S : Nat → σ → Prop} {I : Nat → τ → Prop} {n : Nat}

/-- An open transaction and its world beside themselves, where `n` versions have been given out. -/
def Still (I : Nat → τ → Prop) (n : Nat) (x x' : τ × ω) : Prop := x = x' ∧ I n x.1

/-- An operation that keeps the count stays in lockstep with itself beside any world. -/
theorem lockstep_beside {x : Op τ ε β} {Q : β → Prop} (hx : x.Keeps (I n)) (hQ : ∀ b, Q b)
    (w w' : ω) : Lockstep (Beside (Still I n) w w') Q x x := by
  rintro t _ ⟨hsame, ht⟩
  cases hsame
  have hleft := hx t ht
  cases hend : x t with
  | ok b t' =>
    rw [answer_of_ok hend] at hleft
    exact .ok (hQ b) ⟨rfl, hleft⟩
  | error e t' =>
    rw [answer_of_error hend] at hleft
    exact .error ⟨rfl, hleft⟩

theorem keeps_of_lockstep {x : Op (τ × ω) ε β} {Q : β → Prop} (hx : Lockstep (Still I n) Q x x) :
    x.Keeps fun s => I n s.1 :=
  fun _ hs => (answer_lockstep hx ⟨rfl, hs⟩).2.2

theorem keeps_of_beside {x : Op τ ε β} {Q : β → Prop} (w : ω)
    (hx : Lockstep (Beside (Still I n) w w) Q x x) : x.Keeps (I n) :=
  fun _ ht => (answer_lockstep hx ⟨rfl, ht⟩).2.2

theorem refuseConflicted_keeps (w : ω) (n : Nat) (key : String) (existing : Option (Record α)) :
    (refuseConflicted key existing : Op τ StoreError Unit).Keeps (I n) :=
  keeps_of_beside w (Parallel.lockstep_refuseConflicted key existing)

/-- `k` versions were taken after `n`, and what was answered is named after them. -/
def Named (localId : String) (n k : Nat) (answer : Option Metadata) : Prop :=
  (answer.bind Metadata.identity).toList = (numbersAfter n k).map (WriteId.mk localId)

theorem named_next {metadata : Metadata} {localId : String}
    (hid : metadata.identity = some ⟨localId, .ofNat (n + 1)⟩) :
    Named localId n 1 (some metadata) := by
  simp [Named, hid, numbersAfter]

/-- How a transaction ends that was opened when `n` versions had been given out: it is committed,
and what it answers goes with those that it took, or it fails and takes none. -/
inductive Tallied (S : Nat → σ → Prop) (n : Nat) (Q : Nat → β → Prop) : Except ε β × (σ × ω) → Prop
  | committed {k : Nat} {c : β} {s : σ} {w : ω} (hc : Q k c) (hs : S (n + k) s) :
    Tallied S n Q (.ok c, s, w)
  | failed {e : ε} {s : σ} {w : ω} (hs : S n s) : Tallied S n Q (.error e, s, w)

theorem identities_of_tallied {localId : String} {r : Except StoreError (Option Metadata) × (σ × ω)}
    (hr : Tallied S n (Named localId n) r) :
    ∃ k, (Reply.written r.1 : Reply α).identities localId =
        (numbersAfter n k).map (WriteId.mk localId) ∧ S (n + k) r.2.1 := by
  cases hr with
  | @committed k answer _ _ hnamed hs =>
    refine ⟨k, ?_, hs⟩
    rw [← hnamed]
    cases answer <;> rfl
  | failed hs => exact ⟨0, rfl, hs⟩

variable (h : b.Counts S I)

include h

/-- Without versions to give out, the backend stays in lockstep with itself and with the count. -/
theorem coupled (n : Nat) : b.versionless.Coupled b.versionless (fun _ => True) (Still I n) where
  kind := rfl
  localId := rfl
  read key w w' := lockstep_beside (h.read n key) (fun _ r _ => r.fits_any) w w'
  write key content metadata w w' _ :=
    lockstep_beside (h.write n key content metadata) (fun _ => trivial) w w'
  erase key w w' := lockstep_beside (h.erase n key) (fun _ => trivial) w w'
  nextVersion _ _ := lockstep_throw _

/-- An intake tells the world and queues, which leaves the count. -/
theorem intake_coupled (n : Nat) (i : Intake α ω) :
    Intake.Coupled b.versionless b.versionless (fun _ => True) (Still I n) i i where
  config := rfl
  resolver := rfl
  keeps := i.resolver.keeps_any
  fired := List.forall₂_same.2 fun trigger _ => by
    rintro key a metadata - x _ ⟨rfl, hx⟩
    exact .ok trivial ⟨rfl, hx⟩
  announced := by
    rintro note x _ ⟨rfl, hx⟩
    exact ⟨rfl, h.enqueue n _ _ hx⟩

/-! ## §5 Steps of a session -/

theorem keeps_step (n : Nat) (step : Step α ω) :
    (step.run b.versionless).Keeps fun x => I n x.1 := by
  refine keeps_of_lockstep ((h.coupled n).lockstep_step ?_ ?_ (Alike.paired_step step.uses_any))
  · rintro i _ ⟨rfl, -⟩
    exact h.intake_coupled n i
  · rintro action _ rfl x _ ⟨rfl, hx⟩
    exact ⟨rfl, h.enqueue n action _ hx⟩

/-- A step answers a version exactly if it takes one. -/
theorem run_step (step : Step α ω) {x : τ × ω} (hx : I n x.1) :
    ∃ k, versionsIn [((step.run b).answer x).1] = numbersAfter n k ∧
      I (n + k) ((step.run b).answer x).2.1 := by
  obtain hsame | rfl := run_versionless (b := b) step
  · -- the step does without versions, so it answers none and leaves the count
    refine ⟨0, ?_, ?_⟩
    · rw [← hsame]
      cases hrun : step.run b.versionless x with
      | ok answer x' =>
        rw [answer_of_ok hrun]
        simp [versionsIn, Except.toOption, version?_step hrun]
      | error e x' =>
        rw [answer_of_error hrun]
        rfl
    · rw [← hsame]
      exact h.keeps_step n step x hx
  · obtain ⟨t', hnext, ht'⟩ := h.nextVersion n x.1 hx
    have hrun : (Step.call .nextVersion).run b x = .ok (.version (.ofNat (n + 1))) (t', x.2) := by
      have hwithin : (b.nextVersion.within CallError.store) x = .ok (.ofNat (n + 1)) (t', x.2) := by
        simp only [within, hnext]
      exact bind_of_ok hwithin
    rw [answer_of_ok hrun]
    exact ⟨1, rfl, ht'⟩

/-- The versions among the answers are those that were taken. -/
theorem runAll_steps (steps : List (Step α ω)) {x : τ × ω} (hx : I n x.1) :
    ∃ k, versionsIn (Step.runAll b steps x).1 = numbersAfter n k ∧
      I (n + k) (Step.runAll b steps x).2.1 := by
  -- on the steps, from whatever count the first of them finds
  induction steps generalizing n x with
  | nil => exact ⟨0, rfl, hx⟩
  | cons step rest ih =>
    obtain ⟨k, hfirst, hnext⟩ := h.run_step step hx
    obtain ⟨l, hrest, hlast⟩ := ih hnext
    refine ⟨k + l, ?_, Nat.add_assoc n k l ▸ hlast⟩
    rw [← numbersAfter_append, ← hfirst, ← hrest]
    exact List.filterMap_append (l := [_])

/-! ## §6 Local writes -/

/-- The version that is taken is the next one. -/
theorem of_nextVersion {t t' : τ} {version : UInt64} (ht : I n t)
    (hnext : b.nextVersion t = .ok version t') : version = .ofNat (n + 1) ∧ I (n + 1) t' := by
  obtain ⟨t'', hnext', ht'⟩ := h.nextVersion n t ht
  rw [hnext] at hnext'
  cases hnext'
  exact ⟨rfl, ht'⟩

theorem put_keeps (w : ω) (n : Nat) (key : String) (expected : Option Etag) (metadata : Metadata)
    (payload : α) :
    (b.put key expected metadata payload).Keeps (I n) :=
  keeps_of_beside w ((h.coupled n).lockstep_put w w key expected metadata trivial)

theorem replace_keeps (w : ω) (n : Nat) (key : String) (existing : Record α) (metadata : Metadata)
    (payload : Option α) : (b.replace key existing metadata payload).Keeps (I n) :=
  keeps_of_beside w
    (Parallel.lockstep_replace (h.coupled n) w w key existing metadata fun _ _ => trivial)

theorem readSides_keeps (w : ω) (n : Nat) (shadows : List String) :
    (b.readSides shadows).Keeps (I n) := by
  rw [← readSides_versionless]
  exact keeps_of_beside w (Parallel.lockstep_readSides (h.coupled n) w w shadows)

theorem removeEach_keeps (w : ω) (n : Nat) (keys : List String) :
    (b.removeEach keys).Keeps (I n) := by
  rw [← removeEach_versionless]
  exact keeps_of_beside w (Parallel.lockstep_removeEach (h.coupled n) w w keys)

/-- A transaction counts what its body took. -/
theorem transaction_tallied {s : σ} (hs : S n s) (w : ω) (wrap : StoreError → ε)
    {body : Op (τ × ω) ε β} {Q : Nat → β → Prop}
    (hbody : ∀ t c x', I n t → body (t, w) = .ok c x' → ∃ k, Q k c ∧ I (n + k) x'.1) :
    Tallied S n Q ((b.transaction wrap body).answer (s, w)) := by
  obtain ⟨t, hstart, ht⟩ := h.start n s hs
  cases hrun : body (t, w) with
  | error e x' =>
    -- the state before it is what a failed transaction leaves, with its count
    simp only [answer, transaction, hstart, hrun]
    exact .failed hs
  | ok c x' =>
    obtain ⟨k, hQ, hx'⟩ := hbody t c x' ht hrun
    obtain ⟨s', queue, hfinish, hs'⟩ := h.finish (n + k) x'.1 hx'
    simp only [answer, transaction, hstart, hrun, hfinish]
    exact .committed hQ hs'

theorem transact_tallied {s : σ} (hs : S n s) (w : ω) {body : Op τ StoreError β}
    {Q : Nat → β → Prop}
    (hbody : ∀ t c t', I n t → body t = .ok c t' → ∃ k, Q k c ∧ I (n + k) t') :
    Tallied S n Q ((b.transact body).answer (s, w)) := by
  refine h.transaction_tallied hs w id fun t c x' ht hrun => ?_
  cases hbody' : body t with
  | error e t' =>
    simp only [within, hbody'] at hrun
    cases hrun
  | ok c' t' =>
    simp only [within, hbody'] at hrun
    cases hrun
    exact hbody t c t' ht hbody'

theorem putLocal_tallied {s : σ} (hs : S n s) (w : ω) (key : String) (payload : α) (max : Nat) :
    Tallied S n (fun k metadata => Named b.localId n k (some metadata))
      ((b.putLocal key payload max).answer (s, w)) := by
  refine h.transact_tallied hs w fun t metadata t' ht hrun => ?_
  obtain ⟨existing, t₁, hread, hrest⟩ := ok_of_bind hrun
  obtain ⟨_, t₂, hfree, hrest⟩ := ok_of_bind hrest
  obtain ⟨version, t₃, hnext, hrest⟩ := ok_of_bind hrest
  obtain ⟨etag, t₄, hput, hpure⟩ := ok_of_bind hrest
  cases hpure
  have h₁ : I n t₁ := (h.read n key).of_ok ht hread
  have h₂ : I n t₂ := (refuseConflicted_keeps w n key existing).of_ok h₁ hfree
  obtain ⟨rfl, h₃⟩ := h.of_nextVersion h₂ hnext
  exact ⟨1, named_next (Memory.identity_stamp _ _ _ _),
    (h.put_keeps w (n + 1) _ _ _ _).of_ok h₃ hput⟩

theorem deleteLocal_tallied {s : σ} (hs : S n s) (w : ω) (key : String) (max : Nat) :
    Tallied S n (Named b.localId n) ((b.deleteLocal key max).answer (s, w)) := by
  refine h.transact_tallied hs w fun t answer t' ht hrun => ?_
  obtain ⟨_ | existing, t₁, hread, hrest⟩ := ok_of_bind hrun
  · cases hrest
    exact ⟨0, rfl, (h.read n key).of_ok ht hread⟩
  · obtain ⟨_, t₂, hfree, hrest⟩ := ok_of_bind hrest
    obtain ⟨version, t₃, hnext, hrest⟩ := ok_of_bind hrest
    obtain ⟨metadata, t₄, hreplace, hpure⟩ := ok_of_bind hrest
    cases hpure
    have h₁ : I n t₁ := (h.read n key).of_ok ht hread
    have h₂ : I n t₂ := (refuseConflicted_keeps w n key (some existing)).of_ok h₁ hfree
    obtain ⟨rfl, h₃⟩ := h.of_nextVersion h₂ hnext
    refine ⟨1, named_next ?_, (h.replace_keeps w (n + 1) _ _ _ _).of_ok h₃ hreplace⟩
    rw [identity_replace hreplace]
    exact Memory.identity_stamp _ _ _ _

theorem resolveLocal_tallied {s : σ} (hs : S n s) (w : ω) (key : String) (payload : Option α)
    (max : Nat) :
    Tallied S n (fun k metadata => Named b.localId n k (some metadata))
      ((b.resolveLocal key payload max).answer (s, w)) := by
  refine h.transact_tallied hs w fun t metadata t' ht hrun => ?_
  obtain ⟨_ | existing, t₁, hread, hrest⟩ := ok_of_bind hrun
  · cases hrest
  · have h₁ : I n t₁ := (h.read n key).of_ok ht hread
    cases hmarker : existing.marker? with
    | none =>
      simp only [hmarker] at hrest
      cases hrest
    | some marker =>
      simp only [hmarker] at hrest
      obtain ⟨sides, t₂, hsides, hrest⟩ := ok_of_bind hrest
      obtain ⟨version, t₃, hnext, hrest⟩ := ok_of_bind hrest
      obtain ⟨stored, t₄, hreplace, hrest⟩ := ok_of_bind hrest
      obtain ⟨_, t₅, hremove, hpure⟩ := ok_of_bind hrest
      cases hpure
      -- a version is counted once, after the sides have been read
      have h₂ : I n t₂ := (h.readSides_keeps w n marker.shadows).of_ok h₁ hsides
      obtain ⟨rfl, h₃⟩ := h.of_nextVersion h₂ hnext
      have h₄ : I (n + 1) t₄ := (h.replace_keeps w (n + 1) _ _ _ _).of_ok h₃ hreplace
      refine ⟨1, named_next ?_, (h.removeEach_keeps w (n + 1) marker.shadows).of_ok h₄ hremove⟩
      rw [identity_replace hreplace]
      rfl

/-! ## §7 Transactions -/

theorem run_session (steps : List (Step α ω)) (isCommitted : Bool) {s : σ} (hs : S n s) (w : ω) :
    ∃ k, (Reply.batch (b.session steps isCommitted (s, w)).1).identities b.localId =
        (numbersAfter n k).map (WriteId.mk b.localId) ∧
      S (n + k) (b.session steps isCommitted (s, w)).2.1 := by
  obtain ⟨t, hstart, ht⟩ := h.start n s hs
  obtain ⟨k, hversions, hx'⟩ := h.runAll_steps steps (x := (t, w)) ht
  cases isCommitted with
  | false =>
    -- what was taken is given back, and the answers name nothing that is stored
    simp only [session, hstart]
    exact ⟨0, rfl, hs⟩
  | true =>
    obtain ⟨s', queue, hfinish, hs'⟩ := h.finish (n + k) _ hx'
    simp only [session, hstart, hfinish, if_true]
    exact ⟨k, congrArg _ hversions, hs'⟩

theorem run_command (command : Command α ω) {s : σ} (hs : S n s) (w : ω) :
    ∃ k, (command.run b (s, w)).1.identities b.localId =
        (numbersAfter n k).map (WriteId.mk b.localId) ∧ S (n + k) (command.run b (s, w)).2.1 := by
  -- a local write that always answers metadata is one that may answer none
  have hsome : ∀ {r : Except StoreError Metadata × (σ × ω)},
      Tallied S n (fun k metadata => Named b.localId n k (some metadata)) r →
      Tallied S n (Named b.localId n) (r.1.map some, r.2) := by
    rintro _ (⟨hnamed, hs⟩ | hs)
    · exact .committed hnamed hs
    · exact .failed hs
  have hnone : ∀ {ε β : Type} {r : Except ε β × (σ × ω)}, Tallied S n (fun k _ => k = 0) r →
      S (n + 0) r.2.1 := by
    rintro _ _ _ (⟨rfl, hs⟩ | hs)
    · exact hs
    · exact hs
  cases command with
  | replicate i key metadata payload =>
    -- an intake never asks for a version, so it does the same without versions
    have hkeeps : (i.replicate b.storage key metadata payload).Keeps fun x => I n x.1 :=
      keeps_of_lockstep (Intake.Coupled.lockstep_replicate (h.coupled n) (h.intake_coupled n i) key
        metadata fun _ _ => trivial)
    exact ⟨0, rfl, hnone (h.transaction_tallied hs w .storage fun t c x' ht hrun =>
      ⟨0, rfl, hkeeps.of_ok (s := (t, w)) ht hrun⟩)⟩
  | putLocal key payload max =>
    exact identities_of_tallied (hsome (h.putLocal_tallied hs w key payload max))
  | deleteLocal key max => exact identities_of_tallied (h.deleteLocal_tallied hs w key max)
  | resolveLocal key payload max =>
    exact identities_of_tallied (hsome (h.resolveLocal_tallied hs w key payload max))
  | get key =>
    exact ⟨0, rfl, hnone (h.transact_tallied hs w fun t c t' ht hrun =>
      ⟨0, rfl, (h.read n key).of_ok ht hrun⟩)⟩
  | batch calls isCommitted =>
    have hrun := h.run_session (calls.map .call) isCommitted hs w
    simp only [session_calls] at hrun
    exact hrun

/-- What a transaction answers names its own writes after the versions by which the count has
grown. -/
theorem run_turn (turn : Turn α ω) {s : σ} (hs : S n s) (w : ω) :
    ∃ k, (turn.run b (s, w)).1.identities b.localId =
        (numbersAfter n k).map (WriteId.mk b.localId) ∧ S (n + k) (turn.run b (s, w)).2.1 := by
  cases turn with
  | use command => exact h.run_command command hs w
  | session steps isCommitted => exact h.run_session steps isCommitted hs w

end Counts

end Backend

end ReplicaIntake
