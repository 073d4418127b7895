import Mathlib.Data.List.Forall2
import ReplicaIntake.Proofs.Memory.Contention
import ReplicaIntake.Store.Command

/-!
# Two backends in lockstep

Two backends are run side by side, on states that a relation `R` ties together. If the four
operations that a backend has to know keep the states related and answer alike (`Backend.Coupled`),
then so does everything that is built from them: the storage contract, and an intake with all of its
decisions (`Coupled.lockstep_replicate`). What the two worlds may see of each other is a matter of
`R`: a trigger, or an announcement, has to keep it like an operation does.

Payloads may matter, because a backend need not store every one of them faithfully. So `P` says
which payloads are in use, every record that is read has one of them, and a resolver may be relied
on to keep to them (`Resolver.Keeps`).
-/

namespace ReplicaIntake

/-! ## §1 Operations in lockstep -/

namespace Op

variable {σ σ' ω ω' ε ε' β γ : Type}

/-- Two operations that end alike: they answer the same, and `Q` is true of it, or they fail the
same way. The states that they leave are related. -/
inductive Matched (R : σ → σ' → Prop) (Q : β → Prop) :
    EStateM.Result ε σ β → EStateM.Result ε σ' β → Prop
  | ok {b : β} {s : σ} {s' : σ'} (hb : Q b) (hs : R s s') : Matched R Q (.ok b s) (.ok b s')
  | error {e : ε} {s : σ} {s' : σ'} (hs : R s s') : Matched R Q (.error e s) (.error e s')

/-- From related states the two operations end alike. -/
def Lockstep (R : σ → σ' → Prop) (Q : β → Prop) (x : Op σ ε β) (x' : Op σ' ε β) : Prop :=
  ∀ s s', R s s' → Matched R Q (x s) (x' s')

/-- Of an answer nothing has to be known. -/
abbrev Any (_ : β) : Prop := True

variable {R : σ → σ' → Prop} {Q : β → Prop} {x : Op σ ε β} {x' : Op σ' ε β}

theorem lockstep_pure {b : β} (hb : Q b) : Lockstep R Q (pure b : Op σ ε β) (pure b) :=
  fun _ _ hs => .ok hb hs

theorem lockstep_throw (e : ε) : Lockstep R Q (throw e : Op σ ε β) (throw e) :=
  fun _ _ hs => .error hs

/-- A sequence is in lockstep if its parts are. What follows the first part may rely on its
answer. -/
theorem lockstep_bind {Q' : γ → Prop} {f : β → Op σ ε γ} {f' : β → Op σ' ε γ}
    (hx : Lockstep R Q x x') (hf : ∀ b, Q b → Lockstep R Q' (f b) (f' b)) :
    Lockstep R Q' (x >>= f) (x' >>= f') := by
  intro s s' hs
  have hfirst := hx s s' hs
  cases hrun : x s with
  | ok b t =>
    cases hrun' : x' s' with
    | ok b' t' =>
      rw [hrun, hrun'] at hfirst
      cases hfirst with
      | ok hb ht =>
        rw [bind_of_ok hrun, bind_of_ok hrun']
        exact hf b hb t t' ht
    | error e' t' => rw [hrun, hrun'] at hfirst; cases hfirst
  | error e t =>
    cases hrun' : x' s' with
    | ok b' t' => rw [hrun, hrun'] at hfirst; cases hfirst
    | error e' t' =>
      rw [hrun, hrun'] at hfirst
      cases hfirst with
      | error ht =>
        rw [bind_of_error hrun, bind_of_error hrun']
        exact .error ht

theorem lockstep_mono {Q' : β → Prop} (hx : Lockstep R Q x x') (hQ : ∀ b, Q b → Q' b) :
    Lockstep R Q' x x' := by
  intro s s' hs
  have h := hx s s' hs
  revert h
  generalize x s = r
  generalize x' s' = r'
  rintro (⟨hb, ht⟩ | ht)
  · exact .ok (hQ _ hb) ht
  · exact .error ht

/-- The states beside two worlds. -/
def Beside (R : σ × ω → σ' × ω' → Prop) (w : ω) (w' : ω') (s : σ) (s' : σ') : Prop :=
  R (s, w) (s', w')

/-- Operations that do not touch the worlds stay in lockstep beside any two of them. -/
theorem lockstep_within {R : σ × ω → σ' × ω' → Prop} (wrap : ε → ε')
    (hx : ∀ w w', Lockstep (Beside R w w') Q x x') :
    Lockstep R Q (x.within wrap) (x'.within wrap) := by
  rintro ⟨s, w⟩ ⟨s', w'⟩ hs
  have h := hx w w' s s' hs
  simp only [within]
  revert h
  generalize x s = r
  generalize x' s' = r'
  rintro (⟨hb, ht⟩ | ht)
  · exact .ok hb ht
  · exact .error ht

theorem lockstep_wrapError (wrap : ε → ε') (hx : Lockstep R Q x x') :
    Lockstep R Q (x.wrapError wrap) (x'.wrapError wrap) := by
  intro s s' hs
  have h := hx s s' hs
  simp only [wrapError]
  revert h
  generalize x s = r
  generalize x' s' = r'
  rintro (⟨hb, ht⟩ | ht)
  · exact .ok hb ht
  · exact .error ht

/-- Operations in lockstep answer alike and leave related states. -/
theorem answer_lockstep (hx : Lockstep R Q x x') {s : σ} {s' : σ'} (hs : R s s') :
    (x.answer s).1 = (x'.answer s').1 ∧ R (x.answer s).2 (x'.answer s').2 := by
  have h := hx s s' hs
  simp only [answer]
  revert h
  generalize x s = r
  generalize x' s' = r'
  rintro (⟨-, ht⟩ | ht)
  · exact ⟨rfl, ht⟩
  · exact ⟨rfl, ht⟩

end Op

/-! ## §2 Payloads in use -/

variable {α : Type}

/-- The payload of the content, if there is one, is in use. -/
def Content.Fits (P : α → Prop) : Content α → Prop
  | .data a => P a
  | .marker _ | .tombstone => True

/-- The payload of the record, if there is one, is in use. -/
def Record.Fits (P : α → Prop) (r : Record α) : Prop := r.content.Fits P

/-- The payload of the decision, if there is one, is in use. -/
def Resolution.Fits (P : α → Prop) : Resolution α → Prop
  | .keep _ a => P a
  | .remove _ => True

/-- About payloads in use the resolver decides for a payload in use. -/
def Resolver.Keeps (P : α → Prop) (resolver : Resolver α) : Prop :=
  ∀ key incoming payload existing resolution, (∀ a, payload = some a → P a) → existing.Fits P →
    resolver key incoming payload existing = .ok (some resolution) → resolution.Fits P

/-! ## §3 The storage contract -/

variable {σ σ' τ τ' ω ω' : Type}

open Op

/-- The operations of the two backends keep `R` and answer alike. Only payloads in use are written
and read. -/
structure Backend.Coupled (b : Backend σ τ α ω) (b' : Backend σ' τ' α ω') (P : α → Prop)
    (R : τ × ω → τ' × ω' → Prop) : Prop where
  kind : b.kind = b'.kind
  localId : b.localId = b'.localId
  read : ∀ key w w', Lockstep (Beside R w w') (fun r => ∀ x, r = some x → x.Fits P) (b.read key)
    (b'.read key)
  write : ∀ key content metadata w w', content.Fits P →
    Lockstep (Beside R w w') Any (b.write key content metadata) (b'.write key content metadata)
  erase : ∀ key w w', Lockstep (Beside R w w') Any (b.erase key) (b'.erase key)
  nextVersion : ∀ w w', Lockstep (Beside R w w') Any b.nextVersion b'.nextVersion

namespace Backend.Coupled

variable {b : Backend σ τ α ω} {b' : Backend σ' τ' α ω'} {P : α → Prop}
  {R : τ × ω → τ' × ω' → Prop}

theorem lockstep_checkEtag {T : τ → τ' → Prop} (key : String) (expected : Option Etag)
    (current : Option (Record α)) :
    Lockstep T Any (checkEtag key expected current) (checkEtag key expected current) := by
  cases expected with
  | none => exact lockstep_pure trivial
  | some etag =>
    simp only [checkEtag]
    split
    · exact lockstep_pure trivial
    · exact lockstep_throw _

variable (h : b.Coupled b' P R) (w : ω) (w' : ω')

include h

theorem lockstep_put (key : String) (expected : Option Etag) (metadata : Metadata) {payload : α}
    (hpayload : P payload) :
    Lockstep (Beside R w w') Any (b.put key expected metadata payload)
      (b'.put key expected metadata payload) :=
  lockstep_bind (h.read key w w') fun current _ =>
    lockstep_bind (lockstep_checkEtag key expected current) fun _ _ =>
      h.write key _ metadata w w' hpayload

theorem lockstep_remove (key : String) (expected : Option Etag) :
    Lockstep (Beside R w w') Any (b.remove key expected) (b'.remove key expected) := by
  refine lockstep_bind (h.read key w w') fun current _ =>
    lockstep_bind (lockstep_checkEtag key expected current) fun _ _ => ?_
  split
  · exact h.erase key w w'
  · exact lockstep_pure trivial

theorem lockstep_markDeleted (key : String) (metadata : Metadata) :
    Lockstep (Beside R w w') Any (b.markDeleted key metadata) (b'.markDeleted key metadata) :=
  h.write key _ _ w w' trivial

theorem lockstep_createConflict (key newShadow existingShadow : String) {existing : Record α}
    (hexisting : existing.Fits P) :
    Lockstep (Beside R w w') Any (b.createConflict key newShadow existingShadow existing)
      (b'.createConflict key newShadow existingShadow existing) := by
  obtain ⟨content, etag, metadata⟩ := existing
  -- a marker is refused, anything else is copied to its shadow before the marker is written
  have hcopied : ∀ content : Content α, content.Fits P →
      Lockstep (Beside R w w') Any
        (do
          let _ ← b.write existingShadow content metadata.asConflictSide
          let marker := Marker.pair existingShadow newShadow
          let etag ← b.write key (.marker marker) metadata.conflictMarker
          pure (⟨etag, marker.shadows⟩ : ConflictSummary))
        (do
          let _ ← b'.write existingShadow content metadata.asConflictSide
          let marker := Marker.pair existingShadow newShadow
          let etag ← b'.write key (.marker marker) metadata.conflictMarker
          pure (⟨etag, marker.shadows⟩ : ConflictSummary)) := fun content hcontent =>
    lockstep_bind (h.write existingShadow content _ w w' hcontent) fun _ _ =>
      lockstep_bind (h.write key _ _ w w' trivial) fun _ _ => lockstep_pure trivial
  cases content with
  | data a => exact hcopied (.data a) hexisting
  | tombstone => exact hcopied .tombstone trivial
  | marker m => exact lockstep_throw _

theorem lockstep_extendConflict (key newShadow : String) (existing : Record α) :
    Lockstep (Beside R w w') Any (b.extendConflict key newShadow existing)
      (b'.extendConflict key newShadow existing) := by
  unfold extendConflict
  split
  · exact lockstep_throw _
  · split
    · exact lockstep_pure trivial
    · exact lockstep_bind (h.write key _ _ w w' trivial) fun _ _ => lockstep_pure trivial

end Backend.Coupled

/-! ## §4 Intakes -/

/-- The two triggers keep `R` and decide alike. -/
def Trigger.Coupled (P : α → Prop) (R : τ × ω → τ' × ω' → Prop) (t : Trigger α ω)
    (t' : Trigger α ω') : Prop :=
  ∀ key a metadata, P a →
    Lockstep R Any (outside (t key a metadata) : Op (τ × ω) (IntakeError StoreError) _)
      (outside (t' key a metadata))

/-- Two intakes with the same configuration and policy, whose triggers and announcements keep
`R`. -/
structure Intake.Coupled (b : Backend σ τ α ω) (b' : Backend σ' τ' α ω') (P : α → Prop)
    (R : τ × ω → τ' × ω' → Prop) (i : Intake α ω) (i' : Intake α ω') : Prop where
  config : i.config = i'.config
  resolver : i.resolver = i'.resolver
  keeps : i.resolver.Keeps P
  fired : List.Forall₂ (Trigger.Coupled P R) i.triggers i'.triggers
  announced : ∀ note x x', R x x' →
    R (b.enqueue (i.announcement note) x.1, x.2) (b'.enqueue (i'.announcement note) x'.1, x'.2)

namespace Intake.Coupled

open Intake

variable {b : Backend σ τ α ω} {b' : Backend σ' τ' α ω'} {P : α → Prop}
  {R : τ × ω → τ' × ω' → Prop} {i : Intake α ω} {i' : Intake α ω'}

theorem lockstep_judge (incoming existing : Metadata) :
    Lockstep R Any (judge incoming existing : Op (τ × ω) (IntakeError StoreError) Ancestry)
      (judge incoming existing) := by
  unfold judge
  split
  · exact lockstep_pure trivial
  · exact lockstep_throw _

theorem lockstep_runTriggers {ts : List (Trigger α ω)} {ts' : List (Trigger α ω')} (key : String)
    {payload : α} (hpayload : P payload) (incoming : Metadata)
    (hts : List.Forall₂ (Trigger.Coupled P R) ts ts') :
    Lockstep R Any (runTriggers key payload incoming ts : Op (τ × ω) (IntakeError StoreError) Unit)
      (runTriggers key payload incoming ts') := by
  induction hts with
  | nil => exact lockstep_pure trivial
  | cons hfirst _ ih =>
    refine lockstep_bind (hfirst key payload incoming hpayload) fun verdict _ => ?_
    cases verdict with
    | error reason => exact lockstep_throw _
    | ok _ => exact ih

section Storage

variable (h : b.Coupled b' P R)

include h

theorem lockstep_fetch (key : String) :
    Lockstep R (fun r => ∀ x, r = some x → x.Fits P) (fetch b.storage key) (fetch b'.storage key) :=
  lockstep_within _ (h.read key)

theorem lockstep_holdsIdentity (incoming : Metadata) (shadows : List String) :
    Lockstep R Any (holdsIdentity b.storage incoming shadows)
      (holdsIdentity b'.storage incoming shadows) := by
  induction shadows with
  | nil => exact lockstep_pure trivial
  | cons shadow rest ih =>
    refine lockstep_bind (lockstep_fetch h shadow) fun side _ => ?_
    split
    · exact lockstep_pure trivial
    · exact ih

theorem lockstep_holdsSide (existing : Record α) (incoming : Metadata) :
    Lockstep R Any (holdsSide b.storage existing incoming)
      (holdsSide b'.storage existing incoming) := by
  unfold holdsSide
  split
  · exact lockstep_pure trivial
  · exact lockstep_holdsIdentity h incoming _

theorem lockstep_removeShadows (shadows : List String) :
    Lockstep R Any (removeShadows b.storage shadows) (removeShadows b'.storage shadows) := by
  induction shadows with
  | nil => exact lockstep_pure trivial
  | cons shadow rest ih =>
    exact lockstep_bind (lockstep_within _ fun w w' => h.lockstep_remove w w' shadow none)
      fun _ _ => ih

theorem lockstep_storeSide (shadow : String) (side : Metadata) {payload : Option α}
    (hpayload : ∀ a, payload = some a → P a) :
    Lockstep R Any (storeSide b.storage shadow side payload)
      (storeSide b'.storage shadow side payload) := by
  cases payload with
  | some a =>
    exact lockstep_within _ fun w w' => h.lockstep_put w w' shadow none side (hpayload a rfl)
  | none => exact lockstep_within _ fun w w' => h.lockstep_markDeleted w w' shadow side

theorem lockstep_joinConflict (key newShadow existingShadow : String) {existing : Record α}
    (hexisting : existing.Fits P) :
    Lockstep R Any (joinConflict b.storage key newShadow existingShadow existing)
      (joinConflict b'.storage key newShadow existingShadow existing) := by
  unfold joinConflict
  split
  · exact lockstep_within _ fun w w' => h.lockstep_extendConflict w w' key newShadow existing
  · exact lockstep_within _ fun w w' =>
      h.lockstep_createConflict w w' key newShadow existingShadow hexisting

theorem lockstep_knowsDelete (existing : Record α) (metadata : Metadata) :
    Lockstep R Any (knowsDelete b.storage existing metadata)
      (knowsDelete b'.storage existing metadata) := by
  unfold knowsDelete
  split
  · exact lockstep_pure trivial
  · split
    · exact lockstep_pure trivial
    · exact lockstep_holdsSide h existing metadata

end Storage

variable (h : b.Coupled b' P R) (hi : Intake.Coupled b b' P R i i')

include hi

theorem lockstep_announce (note : Notification) :
    Lockstep R Any (i.announce b.storage note) (i'.announce b'.storage note) := by
  rintro ⟨t, w⟩ ⟨t', w'⟩ hs
  exact .ok trivial (hi.announced note _ _ hs)

include h

theorem lockstep_storeResolution (key : String) (incoming : Metadata) (existing : Record α)
    {resolution : Resolution α} (hresolution : resolution.Fits P) :
    Lockstep R Any (i.storeResolution b.storage key incoming existing resolution)
      (i'.storeResolution b'.storage key incoming existing resolution) := by
  have hkind : b.storage.kind = b'.storage.kind := h.kind
  cases resolution with
  | remove metadata =>
    simp only [storeResolution, hi.config]
    exact lockstep_bind (lockstep_within _ fun w w' => h.lockstep_remove w w' key none) fun _ _ =>
      lockstep_bind (lockstep_within _ fun w w' => h.lockstep_markDeleted w w' key _) fun _ _ =>
        lockstep_pure trivial
  | keep metadata payload =>
    have hpayload : P payload := hresolution
    simp only [storeResolution, hi.config, hkind]
    refine lockstep_bind (lockstep_runTriggers key hpayload incoming ?_) fun _ _ =>
      lockstep_bind (lockstep_within _ fun w w' => h.lockstep_put w w' key _ _ hpayload)
        fun _ _ => lockstep_pure trivial
    split
    · exact hi.fired
    · exact .nil

theorem lockstep_applyResolution (key : String) (incoming : Metadata) (existing : Record α)
    {resolution : Resolution α} (hresolution : resolution.Fits P) :
    Lockstep R Any (i.applyResolution b.storage key incoming existing resolution)
      (i'.applyResolution b'.storage key incoming existing resolution) :=
  lockstep_bind (lockstep_storeResolution h hi key incoming existing hresolution) fun _ _ =>
    lockstep_bind (lockstep_removeShadows h _) fun _ _ => lockstep_pure trivial

theorem lockstep_contend (key : String) (metadata : Metadata) {payload : Option α}
    (hpayload : ∀ a, payload = some a → P a) {existing : Record α} (hexisting : existing.Fits P)
    (operation : Operation) :
    Lockstep R Any (i.contend b.storage key metadata payload existing operation)
      (i'.contend b'.storage key metadata payload existing operation) := by
  have hkind : b.storage.kind = b'.storage.kind := h.kind
  have hlocal : b.storage.discriminator = b'.storage.discriminator := h.localId
  unfold contend
  split
  · exact lockstep_throw _
  · simp only [hkind, hlocal]
    split
    · exact lockstep_throw _
    · refine lockstep_bind (lockstep_storeSide h _ _ hpayload) fun _ _ =>
        lockstep_bind (lockstep_joinConflict h key _ _ hexisting) fun summary _ => ?_
      split
      · exact lockstep_bind (lockstep_announce hi _) fun _ _ => lockstep_pure trivial
      · exact lockstep_pure trivial

theorem lockstep_decide (key : String) (metadata : Metadata) {payload : Option α}
    (hpayload : ∀ a, payload = some a → P a) {existing : Record α} (hexisting : existing.Fits P)
    (operation : Operation) :
    Lockstep R Any (i.decide b.storage key metadata payload existing operation)
      (i'.decide b'.storage key metadata payload existing operation) := by
  unfold Intake.decide
  rw [← hi.resolver]
  split
  · exact lockstep_throw _
  · rename_i resolution hdecision
    exact lockstep_applyResolution h hi key metadata existing
      (hi.keeps key metadata payload existing resolution hpayload hexisting hdecision)
  · exact lockstep_contend h hi key metadata hpayload hexisting operation

theorem lockstep_putOver (key : String) (metadata : Metadata) {payload : α} (hpayload : P payload)
    {existing : Record α} (hexisting : existing.Fits P) :
    Lockstep R Any (i.putOver b.storage key metadata payload existing)
      (i'.putOver b'.storage key metadata payload existing) := by
  have hsome : ∀ a, some payload = some a → P a := fun a ha => by cases ha; exact hpayload
  have hdecide := lockstep_decide h hi key metadata hsome hexisting .put
  unfold putOver
  split
  · exact hdecide
  · refine lockstep_bind (lockstep_judge metadata existing.metadata) fun ancestry _ => ?_
    cases ancestry with
    | descendant =>
      exact lockstep_bind (lockstep_within _ fun w w' => h.lockstep_put w w' key _ _ hpayload)
        fun _ _ => lockstep_pure trivial
    | ancestor => exact lockstep_pure trivial
    | same => exact hdecide
    | concurrent => exact hdecide

theorem lockstep_putBounded (key : String) (metadata : Metadata) {payload : α}
    (hpayload : P payload) :
    Lockstep R Any (i.putBounded b.storage key metadata payload)
      (i'.putBounded b'.storage key metadata payload) := by
  refine lockstep_bind (lockstep_fetch h key) fun existing hexisting => ?_
  cases existing with
  | none =>
    exact lockstep_bind (lockstep_within _ fun w w' => h.lockstep_put w w' key _ _ hpayload)
      fun _ _ => lockstep_pure trivial
  | some existing =>
    dsimp only
    split
    · exact lockstep_pure trivial
    · refine lockstep_bind (lockstep_holdsSide h existing metadata) fun isHeld _ => ?_
      split
      · exact lockstep_pure trivial
      · exact lockstep_putOver h hi key metadata hpayload (hexisting existing rfl)

theorem lockstep_put (key : String) (metadata : Metadata) {payload : α} (hpayload : P payload) :
    Lockstep R Any (i.put b.storage key metadata payload)
      (i'.put b'.storage key metadata payload) := by
  unfold Intake.put
  rw [hi.config]
  split
  · exact lockstep_throw _
  · split
    · exact lockstep_throw _
    · exact lockstep_putBounded h hi key _ hpayload

theorem lockstep_deleteOver (key : String) (metadata : Metadata) {existing : Record α}
    (hexisting : existing.Fits P) :
    Lockstep R Any (i.deleteOver b.storage key metadata existing)
      (i'.deleteOver b'.storage key metadata existing) := by
  have hnone : ∀ a : α, none = some a → P a := fun a ha => by cases ha
  unfold deleteOver mergedTombstone
  rw [hi.config]
  split
  · exact lockstep_contend h hi key metadata hnone hexisting .delete
  · split
    · exact lockstep_bind (lockstep_within _ fun w w' => h.lockstep_markDeleted w w' key _)
        fun _ _ => lockstep_pure trivial
    · refine lockstep_bind (lockstep_judge metadata existing.metadata) fun ancestry _ => ?_
      have hdecide := lockstep_decide h hi key metadata hnone hexisting .delete
      cases ancestry with
      | descendant =>
        exact lockstep_bind (lockstep_within _ fun w w' => h.lockstep_remove w w' key _)
          fun _ _ => lockstep_bind
            (lockstep_within _ fun w w' => h.lockstep_markDeleted w w' key metadata)
            fun _ _ => lockstep_pure trivial
      | ancestor => exact lockstep_pure trivial
      | same => exact hdecide
      | concurrent => exact hdecide

theorem lockstep_delete (key : String) (metadata : Metadata) :
    Lockstep R Any (i.delete b.storage key metadata) (i'.delete b'.storage key metadata) := by
  unfold Intake.delete
  rw [hi.config]
  refine lockstep_bind (lockstep_fetch h key) fun existing hexisting => ?_
  cases existing with
  | none => exact lockstep_pure trivial
  | some existing =>
    refine lockstep_bind (lockstep_knowsDelete h existing _) fun isKnown _ => ?_
    split
    · exact lockstep_pure trivial
    · exact lockstep_deleteOver h hi key _ (hexisting existing rfl)

/-- Taking in a write goes alike in both backends. -/
theorem lockstep_replicate (key : String) (metadata : Metadata) {payload : Option α}
    (hpayload : ∀ a, payload = some a → P a) :
    Lockstep R Any (i.replicate b.storage key metadata payload)
      (i'.replicate b'.storage key metadata payload) := by
  unfold replicate
  split
  · exact lockstep_delete h hi key metadata
  · split
    · rename_i a
      exact lockstep_put h hi key metadata (hpayload a rfl)
    · exact lockstep_throw _

end Intake.Coupled

end ReplicaIntake
