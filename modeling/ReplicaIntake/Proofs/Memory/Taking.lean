import ReplicaIntake.Proofs.Ancestry
import ReplicaIntake.Proofs.Memory.Ways

/-!
# How a write is taken in by a store in memory

The decision procedure of an intake is run step by step in an open transaction of a store in memory:
what it reads, what it stores for a decision of the policy, and where each of its branches ends.
`replicate_taken` says that the ways out of `Taken` are all there are, so a property of intakes is
proved by a case split over them.
-/

namespace ReplicaIntake.Memory

variable {α ω : Type} {kind : ItemKind} {localId key : String}

/-! ## §1 Reading -/

theorem fetch_eq (t : Transaction α ω) (w : ω) (key : String) :
    Intake.fetch (storage kind localId) key (t, w) = .ok (t.contents.records.find? key) (t, w) :=
  rfl

theorem holdsIdentity_eq (t : Transaction α ω) (w : ω) (incoming : Metadata)
    (shadows : List String) :
    Intake.holdsIdentity (storage kind localId) incoming shadows (t, w) =
      .ok (shadows.any fun shadow => (t.contents.records.find? shadow).any fun side =>
        side.metadata.sameIdentity incoming) (t, w) := by
  induction shadows with
  | nil => rfl
  | cons shadow rest ih =>
    refine (Op.bind_of_ok (fetch_eq t w shadow)).trans ?_
    rw [List.any_cons]
    -- the search ends at the first side that has the identity
    cases hside : (t.contents.records.find? shadow).any fun side =>
        side.metadata.sameIdentity incoming with
    | true => simp
    | false => simpa using ih

theorem holdsSide_eq (t : Transaction α ω) (w : ω) (existing : Record α) (incoming : Metadata) :
    Intake.holdsSide (storage kind localId) existing incoming (t, w) =
      .ok (t.contents.holdsSide existing incoming) (t, w) := by
  unfold Intake.holdsSide holdsSide Record.sides
  cases existing.marker? with
  | none => rfl
  | some marker => exact holdsIdentity_eq t w incoming marker.shadows

variable (kind localId) in
/-- A deletion is known as `knows` says. -/
theorem knowsDelete_eq (t : Transaction α ω) (w : ω) (existing : Record α) {arrived : Metadata}
    (hdelete : arrived.deleted = true) :
    Intake.knowsDelete (storage kind localId) existing arrived (t, w) =
      .ok (t.contents.knows existing arrived) (t, w) := by
  cases hid : arrived.identity with
  | none =>
    -- a deletion without identity is never known
    have hknows : t.contents.knows existing arrived = false := by
      simp [knows, holdsSide, hid, Metadata.sameIdentity_of_none hid]
    simp only [Intake.knowsDelete, hid, hknows, Op.pure_apply]
  | some id =>
    have hop : Intake.knowsDelete (storage kind localId) existing arrived =
        if existing.metadata.lineage.covers id || existing.metadata.identity == some id
        then pure true
        else Intake.holdsSide
          (storage kind localId : Storage (Transaction α ω) α ω StoreError) existing arrived := by
      simp only [Intake.knowsDelete, hid]
    have hknows : t.contents.knows existing arrived =
        ((existing.metadata.lineage.covers id || existing.metadata.identity == some id) ||
          t.contents.holdsSide existing arrived) := by
      simp only [knows, Metadata.sameIdentity_of_some hid, hid, hdelete, Option.any_some,
        Bool.true_and]
      rw [Bool.or_comm (existing.metadata.identity == some id)]
    rw [hop, hknows]
    -- the sides are read only if the record itself does not know the deletion
    cases hnear : existing.metadata.lineage.covers id || existing.metadata.identity == some id with
    | true => rfl
    | false => exact holdsSide_eq t w existing arrived

theorem judge_of_ok (t : Transaction α ω) (w : ω) {incoming existing : Metadata}
    {ancestry : Ancestry} (h : incoming.checkAncestry existing = .ok ancestry) :
    (Intake.judge incoming existing : Op (Transaction α ω × ω) (IntakeError StoreError) Ancestry)
      (t, w) = .ok ancestry (t, w) := by
  simp only [Intake.judge, h, Op.pure_apply]

theorem judge_of_error (t : Transaction α ω) (w : ω) {incoming existing : Metadata}
    {violation : CausalityViolation} (h : incoming.checkAncestry existing = .error violation) :
    (Intake.judge incoming existing : Op (Transaction α ω × ω) (IntakeError StoreError) Ancestry)
      (t, w) = .error (.causality violation) (t, w) := by
  simp only [Intake.judge, h, Op.throw_apply]

/-! ## §2 Storing a decision -/

theorem runTriggers_eq (t : Transaction α ω) (key : String) (payload : α) (incoming : Metadata)
    (triggers : List (Trigger α ω)) (w : ω) :
    (Intake.runTriggers key payload incoming triggers :
      Op (Transaction α ω × ω) (IntakeError StoreError) Unit) (t, w) =
      match fire key payload incoming triggers w with
      | (.ok (), w) => .ok () (t, w)
      | (.error reason, w) => .error (.trigger reason) (t, w) := by
  induction triggers generalizing w with
  | nil => rfl
  | cons trigger rest ih =>
    have houtside : (Op.outside (trigger key payload incoming) :
        Op (Transaction α ω × ω) (IntakeError StoreError) _) (t, w) =
        .ok (trigger key payload incoming w).1 (t, (trigger key payload incoming w).2) := rfl
    refine (Op.bind_of_ok houtside).trans ?_
    unfold fire
    cases hrun : trigger key payload incoming w with
    | mk verdict w' =>
      -- a refusal ends the run, and what it did to the world stays
      cases verdict with
      | error reason => rfl
      | ok _ => exact ih w'

theorem removeShadows_eq (t : Transaction α ω) (w : ω) (shadows : List String) :
    Intake.removeShadows (storage kind localId) shadows (t, w) =
      .ok () (t.replaced (t.contents.eraseAll shadows), w) := by
  induction shadows generalizing t with
  | nil => rfl
  | cons shadow rest ih =>
    have hremove : ((storage kind localId).remove shadow none).within IntakeError.storage (t, w) =
        .ok () (t.replaced (t.contents.erase shadow), w) :=
      Op.within_of_ok _ w (remove_unconditional _ _ t shadow)
    exact (Op.bind_of_ok hremove).trans (ih _)

variable (kind localId key) in
theorem storeResolution_remove (i : Intake α ω) (t : Transaction α ω) (w : ω)
    (incoming : Metadata) (existing : Record α) (metadata : Metadata) :
    i.storeResolution (storage kind localId) key incoming existing (.remove metadata) (t, w) =
      .ok .resolvedAsRemoved (t.replaced (t.contents.write key .tombstone
        { metadata.settled i.config.maxHistory with deleted := true }), w) := by
  have hremove : ((storage kind localId).remove key none).within IntakeError.storage (t, w) =
      .ok () (t.replaced (t.contents.erase key), w) :=
    Op.within_of_ok _ w (remove_unconditional _ _ t key)
  have hmark : ((storage kind localId).markDeleted key
      { metadata.settled i.config.maxHistory with deleted := true }).within IntakeError.storage
      (t.replaced (t.contents.erase key), w) = .ok t.contents.lastEtag.next
        (t.replaced (t.contents.write key .tombstone
          { metadata.settled i.config.maxHistory with deleted := true }), w) := by
    rw [← write_erase]
    exact Op.within_of_ok _ w (markDeleted_eq _ _ _ key _)
  exact (Op.bind_of_ok hremove).trans ((Op.bind_of_ok hmark).trans rfl)

variable (kind localId) in
/-- The etag that a kept payload expects is that of the record it replaces, or none. -/
theorem put_expected {t : Transaction α ω} {existing : Record α}
    (hread : t.contents.records.find? key = some existing) (metadata : Metadata) (payload : α) :
    (storage kind localId).put key (if existing.isTombstone then none else some existing.etag)
        metadata payload t =
      .ok t.contents.lastEtag.next
        (t.replaced (t.contents.write key (.data payload) metadata)) := by
  cases existing.isTombstone with
  | true => exact put_unconditional kind localId t key metadata payload
  | false => exact put_existing kind localId hread metadata payload

variable (localId) in
theorem storeResolution_keep (i : Intake α ω) {t : Transaction α ω} {w w' : ω}
    {incoming : Metadata} {existing : Record α} {payload : α}
    (hread : t.contents.records.find? key = some existing)
    (hfire : fire key payload incoming (if kind.runsTriggers then i.triggers else []) w =
      (.ok (), w')) (metadata : Metadata) :
    i.storeResolution (storage kind localId) key incoming existing (.keep metadata payload) (t, w) =
      .ok .resolved (t.replaced (t.contents.write key (.data payload)
        { metadata.settled i.config.maxHistory with deleted := false }), w') := by
  have htriggers : (Intake.runTriggers key payload incoming
      (if kind.runsTriggers then i.triggers else []) :
      Op (Transaction α ω × ω) (IntakeError StoreError) Unit) (t, w) = .ok () (t, w') := by
    rw [runTriggers_eq, hfire]
  -- the triggers have run by the time the payload is stored
  have hput := Op.within_of_ok IntakeError.storage w' (put_expected kind localId hread
    { metadata.settled i.config.maxHistory with deleted := false } payload)
  exact (Op.bind_of_ok htriggers).trans ((Op.bind_of_ok hput).trans rfl)

variable (localId) in
theorem storeResolution_refused (i : Intake α ω) {w w' : ω} {incoming : Metadata} {payload : α}
    {reason : String}
    (hfire : fire key payload incoming (if kind.runsTriggers then i.triggers else []) w =
      (.error reason, w')) (t : Transaction α ω) (existing : Record α) (metadata : Metadata) :
    i.storeResolution (storage kind localId) key incoming existing (.keep metadata payload) (t, w) =
      .error (.trigger reason) (t, w') := by
  have htriggers : (Intake.runTriggers key payload incoming
      (if kind.runsTriggers then i.triggers else []) :
      Op (Transaction α ω × ω) (IntakeError StoreError) Unit) (t, w) =
      .error (.trigger reason) (t, w') := by
    rw [runTriggers_eq, hfire]
  exact Op.bind_of_error htriggers

/-- A decision that is stored takes the sides of the conflict with it. -/
theorem applyResolution_of_stored {i : Intake α ω} {t t' : Transaction α ω} {w w' : ω}
    {incoming : Metadata} {existing : Record α} {resolution : Resolution α} {outcome : Outcome}
    (h : i.storeResolution (storage kind localId) key incoming existing resolution (t, w) =
      .ok outcome (t', w')) :
    i.applyResolution (storage kind localId) key incoming existing resolution (t, w) =
      .ok outcome (t'.replaced (t'.contents.eraseAll existing.sides), w') :=
  (Op.bind_of_ok h).trans ((Op.bind_of_ok (removeShadows_eq t' w' existing.sides)).trans rfl)

variable (localId) in
/-- A decision is stored as `Settled` says. -/
theorem applyResolution_settled (i : Intake α ω) (t : Transaction α ω) (w : ω)
    (incoming : Metadata) {existing : Record α} (resolution : Resolution α)
    (hread : t.contents.records.find? key = some existing) :
    ∃ result m w', Settled i kind key incoming existing t.contents w resolution result m w' ∧
      (i.applyResolution (storage kind localId) key incoming existing resolution).answer (t, w) =
        (result, (t.replaced m, w')) := by
  cases resolution with
  | remove metadata =>
    -- a removal runs no triggers
    have hstored := storeResolution_remove kind localId key i t w incoming existing metadata
    exact ⟨_, _, _, .removed metadata, Op.answer_of_ok (applyResolution_of_stored hstored)⟩
  | keep metadata payload =>
    cases hfire : fire key payload incoming (if kind.runsTriggers then i.triggers else []) w with
    | mk verdict w' =>
      cases verdict with
      | ok _ =>
        have hstored := storeResolution_keep localId i hread hfire metadata
        exact ⟨_, _, _, .kept metadata payload hfire,
          Op.answer_of_ok (applyResolution_of_stored hstored)⟩
      | error reason =>
        have hstored := storeResolution_refused localId i hfire t existing metadata
        exact ⟨_, _, _, .refused metadata payload hfire,
          Op.answer_of_error (Op.bind_of_error hstored)⟩

/-! ## §3 The decision procedure -/

/-- The operation, run in `t` and `w`, ends in one of the ways out that `W` admits. -/
def Leads (i : Intake α ω) (t : Transaction α ω) (w : ω)
    (W : Except (IntakeError StoreError) Outcome → Memory α → List Notification → ω → Prop)
    (op : Op (Transaction α ω × ω) (IntakeError StoreError) Outcome) : Prop :=
  ∃ result m notes w', W result m notes w' ∧ op.answer (t, w) = (result, (t.taken i m notes, w'))

section Procedure

variable {i : Intake α ω} {metadata : Metadata} {payload : Option α} {t : Transaction α ω} {w : ω}
  {W W' : Except (IntakeError StoreError) Outcome → Memory α → List Notification → ω → Prop}
  {op : Op (Transaction α ω × ω) (IntakeError StoreError) Outcome} {existing : Record α}

theorem leads_of_answer {outcome : Outcome} {m : Memory α} (hway : W (.ok outcome) m [] w)
    (h : op (t, w) = .ok outcome (t.replaced m, w)) : Leads i t w W op := by
  refine ⟨_, _, _, _, hway, ?_⟩
  rw [Transaction.taken_nil]
  exact Op.answer_of_ok h

theorem leads_of_refusal {error : IntakeError StoreError} (hway : W (.error error) t.contents [] w)
    (h : op (t, w) = .error error (t, w)) : Leads i t w W op := by
  refine ⟨_, _, _, _, hway, ?_⟩
  rw [Transaction.taken_nil, Transaction.replaced_contents]
  exact Op.answer_of_error h

/-- What is put behind an operation that only reads ends as it does. -/
theorem leads_bind {β : Type} {x : Op (Transaction α ω × ω) (IntakeError StoreError) β}
    {f : β → Op (Transaction α ω × ω) (IntakeError StoreError) Outcome} {b : β}
    (hread : x (t, w) = .ok b (t, w)) (h : Leads i t w W (f b)) : Leads i t w W (x >>= f) := by
  obtain ⟨result, m, notes, w', hway, hanswer⟩ := h
  exact ⟨result, m, notes, w', hway, (Op.answer_bind_of_ok hread).trans hanswer⟩

theorem leads_mono (himp : ∀ {result m notes w'}, W result m notes w' → W' result m notes w')
    (h : Leads i t w W op) : Leads i t w W' op := by
  obtain ⟨result, m, notes, w', hway, hanswer⟩ := h
  exact ⟨result, m, notes, w', himp hway, hanswer⟩

theorem different_of_unknown {m : Memory α} {arrived : Metadata}
    (hunknown : m.knows existing arrived = false) :
    existing.metadata.sameIdentity arrived = false := by
  simp only [knows, Bool.or_eq_false_iff] at hunknown
  exact hunknown.1.1

/-- The policy is asked, and a write that it declines becomes one side of a conflict. -/
theorem decide_leads (hpayload : metadata.carried payload = none → metadata.deleted = true)
    (hoffered : Offered i t.contents metadata existing)
    (hread : t.contents.records.find? key = some existing) :
    Leads i t w (Met i kind localId key t.contents w metadata payload existing)
      (i.decide (storage kind localId) key (i.arrived metadata existing.metadata)
        (metadata.carried payload) existing metadata.operation) := by
  cases hresolver : i.resolver key (i.arrived metadata existing.metadata)
      (metadata.carried payload) existing with
  | error reason =>
    apply leads_of_refusal (.undecided hoffered hresolver)
    simp only [Intake.decide, hresolver, Op.throw_apply]
  | ok decision =>
    cases decision with
    | some resolution =>
      obtain ⟨result, m, w', hsettled, hanswer⟩ := applyResolution_settled localId i t w
        (i.arrived metadata existing.metadata) resolution hread
      refine ⟨_, _, _, _, .settled hoffered hresolver hsettled, ?_⟩
      simp only [Intake.decide, hresolver, hanswer, Transaction.taken_nil]
    | none =>
      obtain ⟨result, m, notes, hcontended, hanswer⟩ := contend_contended i t w
        (i.arrived metadata existing.metadata) (metadata.carried payload) existing
        metadata.operation (by simpa using hpayload)
      refine ⟨_, _, _, _, .declined hoffered hresolver hcontended, ?_⟩
      simp only [Intake.decide, hresolver, hanswer]

theorem arrived_of_put (i : Intake α ω) (existing : Metadata) (hput : metadata.deleted = false) :
    i.arrived metadata existing = metadata.bounded i.config.maxHistory := by
  simp only [Intake.arrived, hput, Bool.false_eq_true, if_false]

/-- A put that is not known ends in one of the ways out. -/
theorem putOver_leads {a : α} (hput : metadata.deleted = false) (hpayload : payload = some a)
    (hread : t.contents.records.find? key = some existing)
    (hunknown : t.contents.knows existing (i.arrived metadata existing.metadata) = false) :
    Leads i t w (Met i kind localId key t.contents w metadata payload existing)
      (i.putOver (storage kind localId) key (i.arrived metadata existing.metadata) a existing) := by
  have hcarried : metadata.carried payload = some a := by
    simp [Metadata.carried, hput, hpayload]
  have hoperation : metadata.operation = .put := by
    simp [Metadata.operation, hput]
  have hdecide : Offered i t.contents metadata existing →
      Leads i t w (Met i kind localId key t.contents w metadata payload existing)
        (i.decide (storage kind localId) key (i.arrived metadata existing.metadata)
          (some a) existing .put) := by
    intro hoffered
    rw [← hcarried, ← hoperation]
    exact decide_leads (by simp [hcarried]) hoffered hread
  unfold Intake.putOver
  -- a marker has no ancestry to compare with
  cases hmarker : existing.isMarker with
  | true => exact hdecide (.conflicted hput hunknown hmarker)
  | false =>
    have hcompared : Compared i t.contents metadata existing := ⟨hunknown, hmarker, by simp [hput]⟩
    cases hcheck : (i.arrived metadata existing.metadata).checkAncestry existing.metadata with
    | error violation =>
      apply leads_of_refusal (.contradicted hcompared hcheck)
      exact Op.bind_of_error (judge_of_error t w hcheck)
    | ok ancestry =>
      apply leads_bind (judge_of_ok t w hcheck)
      cases ancestry with
      | same =>
        -- the same write would have been known
        have hdifferent := different_of_unknown hunknown
        exact absurd hcheck (Metadata.checkAncestry_ne_same hdifferent)
      | descendant =>
        apply leads_of_answer (.overwritten hput hpayload hcompared hcheck)
        exact (Op.bind_of_ok (Op.within_of_ok _ w (put_existing _ _ hread _ a))).trans rfl
      | ancestor => exact leads_of_answer (.stale hcompared hcheck) rfl
      | concurrent => exact hdecide (.concurrent hcompared hcheck)

/-- A put with a payload ends in one of the ways out. -/
theorem put_leads {a : α} (hput : metadata.deleted = false) (hpayload : payload = some a) :
    Leads i t w (Taken i kind localId key t.contents w metadata payload)
      (i.put (storage kind localId) key metadata a) := by
  unfold Intake.put
  rw [hput]
  cases hid : metadata.identity with
  | none => exact leads_of_refusal (.missingIdentity hput hid) rfl
  | some id =>
    have hsome : metadata.identity ≠ none := by simp [hid]
    show Leads i t w (Taken i kind localId key t.contents w metadata payload)
      (i.putBounded (storage kind localId) key (metadata.bounded i.config.maxHistory) a)
    unfold Intake.putBounded
    apply leads_bind (fetch_eq t w key)
    cases hread : t.contents.records.find? key with
    | none =>
      apply leads_of_answer (.created hput hpayload hsome hread)
      exact (Op.bind_of_ok (Op.within_of_ok _ w (put_unconditional _ _ t key _ a))).trans rfl
    | some existing =>
      apply leads_mono (.met hread fun _ => hsome)
      have harrived := arrived_of_put i existing.metadata hput
      have hknows : t.contents.knows existing (metadata.bounded i.config.maxHistory) =
          (existing.metadata.sameIdentity (metadata.bounded i.config.maxHistory) ||
            t.contents.holdsSide existing (metadata.bounded i.config.maxHistory)) := by
        have hdeleted : (metadata.bounded i.config.maxHistory).deleted = false := hput
        simp [knows, hdeleted]
      -- the stored write is looked at first, then the sides
      cases hsame : existing.metadata.sameIdentity (metadata.bounded i.config.maxHistory) with
      | true =>
        apply leads_of_answer (.replayed (by rw [harrived, hknows, hsame, Bool.true_or]))
        simp [hsame]
      | false =>
        simp only [hsame, Bool.false_eq_true, if_false]
        apply leads_bind (holdsSide_eq t w existing _)
        cases hside : t.contents.holdsSide existing (metadata.bounded i.config.maxHistory) with
        | true =>
          exact leads_of_answer
            (.replayed (by rw [harrived, hknows, hsame, hside, Bool.or_true])) rfl
        | false =>
          rw [← harrived]
          exact putOver_leads hput hpayload hread
            (by rw [harrived, hknows, hsame, hside, Bool.or_false])

/-- A deletion that is not known ends in one of the ways out. -/
theorem deleteOver_leads (hdelete : metadata.deleted = true)
    (hread : t.contents.records.find? key = some existing)
    (hunknown : t.contents.knows existing (i.arrived metadata existing.metadata) = false) :
    Leads i t w (Met i kind localId key t.contents w metadata payload existing)
      (i.deleteOver (storage kind localId) key (i.arrived metadata existing.metadata)
        existing) := by
  have hcarried : metadata.carried payload = none := by
    simp [Metadata.carried, hdelete]
  have hoperation : metadata.operation = .delete := by
    simp [Metadata.operation, hdelete]
  have hdeleted : (i.arrived metadata existing.metadata).deleted = true := by
    simp [hdelete]
  unfold Intake.deleteOver
  cases hmarker : existing.isMarker with
  | true =>
    -- the policy is not asked about a deletion of a conflict
    obtain ⟨result, m, notes, hcontended, hanswer⟩ := contend_contended i t w
      (i.arrived metadata existing.metadata) (metadata.carried payload) existing
      metadata.operation (by simp [hdelete])
    refine ⟨_, _, _, _, .disputed hdelete hunknown hmarker hcontended, ?_⟩
    rw [hcarried, hoperation] at hanswer
    exact hanswer
  | false =>
    simp only [Bool.false_eq_true, if_false]
    cases htombstone : existing.isTombstone with
    | true =>
      apply leads_of_answer (.merged hdelete hunknown hmarker htombstone)
      have hmark := Op.within_of_ok IntakeError.storage w (markDeleted_of_deleted kind localId t key
        (show (i.mergedTombstone _ existing.metadata).deleted = true from hdeleted))
      exact (Op.bind_of_ok hmark).trans rfl
    | false =>
      have hcompared : Compared i t.contents metadata existing :=
        ⟨hunknown, hmarker, fun _ => htombstone⟩
      simp only [Bool.false_eq_true, if_false]
      cases hcheck : (i.arrived metadata existing.metadata).checkAncestry existing.metadata with
      | error violation =>
        apply leads_of_refusal (.contradicted hcompared hcheck)
        exact Op.bind_of_error (judge_of_error t w hcheck)
      | ok ancestry =>
        apply leads_bind (judge_of_ok t w hcheck)
        cases ancestry with
        | same =>
          have hdifferent := different_of_unknown hunknown
          exact absurd hcheck (Metadata.checkAncestry_ne_same hdifferent)
        | descendant =>
          apply leads_of_answer (.deleted hdelete hcompared hcheck)
          -- the tombstone is written where the record has been removed
          refine (Op.bind_of_ok (Op.within_of_ok _ w (remove_existing _ _ hread))).trans ?_
          have hmark := Op.within_of_ok IntakeError.storage w (markDeleted_of_deleted kind localId
            (t.replaced (t.contents.erase key)) key hdeleted)
          rw [Transaction.contents_replaced, write_erase] at hmark
          exact (Op.bind_of_ok hmark).trans rfl
        | ancestor => exact leads_of_answer (.stale hcompared hcheck) rfl
        | concurrent =>
          have hdecide : Leads i t w
              (Met i kind localId key t.contents w metadata payload existing) _ :=
            decide_leads (fun _ => hdelete) (.concurrent hcompared hcheck) hread
          rw [hcarried, hoperation] at hdecide
          exact hdecide

/-- A deletion ends in one of the ways out. -/
theorem delete_leads (hdelete : metadata.deleted = true) :
    Leads i t w (Taken i kind localId key t.contents w metadata payload)
      (i.delete (storage kind localId) key metadata) := by
  have hbounded : { metadata.bounded i.config.maxHistory with deleted := true } =
      metadata.bounded i.config.maxHistory := by
    rw [← hdelete]
    rfl
  unfold Intake.delete
  -- the flag that the program sets is set already
  rw [hbounded]
  apply leads_bind (fetch_eq t w key)
  cases hread : t.contents.records.find? key with
  | none => exact leads_of_answer (.ignored hdelete hread) rfl
  | some existing =>
    apply leads_mono (.met hread (by simp [hdelete]))
    have harrived : i.arrived metadata existing.metadata =
        { metadata.bounded i.config.maxHistory with
          collection := existing.metadata.collection.or metadata.collection } := by
      simp only [Intake.arrived, hdelete, if_true]
    have hdeleted : (i.arrived metadata existing.metadata).deleted = true := by
      simp [hdelete]
    have hknows := knowsDelete_eq kind localId t w existing hdeleted
    rw [harrived] at hknows
    apply leads_bind hknows
    rw [← harrived]
    cases hknown : t.contents.knows existing (i.arrived metadata existing.metadata) with
    | true => exact leads_of_answer (.replayed hknown) rfl
    | false =>
      have hover : Leads i t w (Met i kind localId key t.contents w metadata payload existing) _ :=
        deleteOver_leads hdelete hread hknown
      rw [harrived] at hover
      exact hover

end Procedure

/-- Taking in a write ends in one of the ways out. -/
theorem replicate_taken (i : Intake α ω) (kind : ItemKind) (localId key : String)
    (metadata : Metadata) (payload : Option α) (t : Transaction α ω) (w : ω) :
    ∃ result m notes w',
      Taken i kind localId key t.contents w metadata payload result m notes w' ∧
      (i.replicate (storage kind localId) key metadata payload).answer (t, w) =
        (result, (t.taken i m notes, w')) := by
  show Leads i t w (Taken i kind localId key t.contents w metadata payload) _
  unfold Intake.replicate
  cases hdeleted : metadata.deleted with
  | true => exact delete_leads hdeleted
  | false =>
    cases payload with
    | none => exact leads_of_refusal (.missingPayload hdeleted rfl) rfl
    | some a => exact put_leads hdeleted rfl

end ReplicaIntake.Memory
