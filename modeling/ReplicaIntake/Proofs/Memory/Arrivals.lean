import Mathlib.Data.List.Infix
import Mathlib.Data.List.Induction
import Mathlib.Data.List.Nodup
import Mathlib.Data.List.Pairwise
import ReplicaIntake.Proofs.Memory.LateWrites

/-!
# Concurrent writes that arrive in any order

Several nodes write one key without knowing of each other, and the writes are delivered to an empty
store that has no policy: each at least once, in any order and with any repetitions. What the store
holds then depends on the order of first arrival alone (`arrivals`): the first write stays as the
side of this node, and every other write is the side of its own node (`Disputed`).

The invariant is `Stage`. It says what the store holds and what observers were told after the writes
that have arrived so far; a delivery either is a repetition and changes nothing, or it takes the
store to the next stage.
-/

namespace ReplicaIntake

variable {α ω : Type}

/-! ## §1 Deliveries -/

/-- A write as it is delivered. It names its node and version and carries no flags of conflicts, and
a put has a payload. -/
structure Incoming (α : Type) where
  id : WriteId
  metadata : Metadata
  /-- The payload, which a deletion need not have. -/
  payload : Option α
  identified : metadata.identity = some id
  /-- The metadata is not that of a conflict. -/
  unflagged : metadata.conflict = false ∧ metadata.conflictSide = false
  carries : metadata.deleted = false → payload ≠ none

namespace Incoming

/-- What a store keeps of the write besides its metadata. -/
def content (x : Incoming α) : Content α := .ofPayload (x.metadata.carried x.payload)

/-- The use of a store that takes the write in. -/
def command (i : Intake α ω) (key : String) (x : Incoming α) : Command α ω :=
  .replicate i key x.metadata x.payload

/-- Two writes of different nodes, neither of which was made on top of a write of the other's
node. -/
structure Unrelated (x y : Incoming α) : Prop where
  sources : x.id.source ≠ y.id.source
  /-- The first write knows nothing of the second node. -/
  left : ∀ e ∈ x.metadata.lineage, e.source ≠ y.id.source
  /-- The second write knows nothing of the first node. -/
  right : ∀ e ∈ y.metadata.lineage, e.source ≠ x.id.source

theorem Unrelated.symm {x y : Incoming α} (h : Unrelated x y) : Unrelated y x :=
  ⟨h.sources.symm, h.right, h.left⟩

instance : Std.Symm (@Unrelated α) := ⟨fun _ _ => Unrelated.symm⟩

theorem source_eq (x : Incoming α) : x.metadata.source = some x.id.source :=
  Metadata.source_of_identity x.identified

end Incoming

/-- The writes that have arrived after one more delivery: a node that has been heard is not heard
again. -/
def arrive (seen : List (Incoming α)) (x : Incoming α) : List (Incoming α) :=
  if x.id.source ∈ seen.map (·.id.source) then seen else seen ++ [x]

/-- The deliveries without the later ones of nodes that have been heard before. -/
def arrivals (deliveries : List (Incoming α)) : List (Incoming α) := deliveries.foldl arrive []

theorem arrivals_concat (deliveries : List (Incoming α)) (x : Incoming α) :
    arrivals (deliveries ++ [x]) = arrive (arrivals deliveries) x := by
  simp only [arrivals, List.foldl_append, List.foldl_cons, List.foldl_nil]

/-- Every node that was delivered from has arrived. -/
theorem source_mem_arrivals (deliveries : List (Incoming α)) {x : Incoming α}
    (hx : x ∈ deliveries) : x.id.source ∈ (arrivals deliveries).map (·.id.source) := by
  induction deliveries using List.reverseRecOn with
  | nil => cases hx
  | append_singleton deliveries y ih =>
    rw [arrivals_concat, arrive]
    split
    · rename_i hy
      rcases List.mem_append.1 hx with hx | hx
      · exact ih hx
      · obtain rfl := List.mem_singleton.1 hx
        exact hy
    · rw [List.map_append]
      rcases List.mem_append.1 hx with hx | hx
      · exact List.mem_append_left _ (ih hx)
      · obtain rfl := List.mem_singleton.1 hx
        exact List.mem_append_right _ List.mem_cons_self

/-- Only what was delivered has arrived. -/
theorem mem_of_mem_arrivals (deliveries : List (Incoming α)) {x : Incoming α}
    (hx : x ∈ arrivals deliveries) : x ∈ deliveries := by
  induction deliveries using List.reverseRecOn with
  | nil => cases hx
  | append_singleton deliveries y ih =>
    rw [arrivals_concat, arrive] at hx
    split at hx
    · exact List.mem_append_left _ (ih hx)
    · rcases List.mem_append.1 hx with hx | hx
      · exact List.mem_append_left _ (ih hx)
      · exact List.mem_append_right _ hx

/-- No node arrives twice. -/
theorem arrivals_distinct (deliveries : List (Incoming α)) :
    ((arrivals deliveries).map (·.id.source)).Nodup := by
  induction deliveries using List.reverseRecOn with
  | nil => exact List.nodup_nil
  | append_singleton deliveries y ih =>
    rw [arrivals_concat, arrive]
    split
    · exact ih
    · rename_i hy
      rw [List.map_append, List.map_singleton]
      refine List.nodup_append.2 ⟨ih, by simp, ?_⟩
      rintro s hs _ hy' rfl
      exact hy (List.mem_singleton.1 hy' ▸ hs)

/-- The first delivery is the first arrival. -/
theorem head?_arrivals (deliveries : List (Incoming α)) :
    (arrivals deliveries).head? = deliveries.head? := by
  induction deliveries using List.reverseRecOn with
  | nil => rfl
  | append_singleton deliveries y ih =>
    rw [arrivals_concat, arrive]
    split
    · rename_i hy
      rw [List.head?_append, ← ih]
      cases harrived : arrivals deliveries with
      -- a node that was heard is among the arrivals
      | nil => simp [harrived] at hy
      | cons first others => rfl
    · rw [List.head?_append, List.head?_append, ih]

/-- Among unrelated writes, two of one node are the same write. -/
theorem eq_of_source_eq {writes : List (Incoming α)}
    (hunrelated : writes.Pairwise Incoming.Unrelated) {x y : Incoming α} (hx : x ∈ writes)
    (hy : y ∈ writes) (hsource : x.id.source = y.id.source) : x = y := by
  cases Classical.em (x = y) with
  | inl h => exact h
  | inr h => exact absurd hsource (hunrelated.forall hx hy h).sources

/-- When every write has been delivered, every write has arrived, and arrived once. -/
theorem arrivals_perm {writes deliveries : List (Incoming α)}
    (hunrelated : writes.Pairwise Incoming.Unrelated)
    (hdelivered : ∀ x, x ∈ deliveries ↔ x ∈ writes) : (arrivals deliveries).Perm writes := by
  have hwrites : writes.Nodup := hunrelated.imp fun {x y} h (heq : x = y) => h.sources (heq ▸ rfl)
  have harrivals : (arrivals deliveries).Nodup := List.Nodup.of_map _ (arrivals_distinct deliveries)
  -- neither list has an entry twice, so it is enough that they have the same members
  refine (List.perm_ext_iff_of_nodup harrivals hwrites).2 fun x => ⟨?_, ?_⟩
  · intro hx
    exact (hdelivered x).1 (mem_of_mem_arrivals deliveries hx)
  · intro hx
    obtain ⟨y, hy, hsource⟩ :=
      List.mem_map.1 (source_mem_arrivals deliveries ((hdelivered x).2 hx))
    have hy' := (hdelivered y).1 (mem_of_mem_arrivals deliveries hy)
    exact eq_of_source_eq hunrelated hy' hx hsource ▸ hy

namespace Memory

open ShadowKey (make)

variable {i : Intake α ω} {kind : ItemKind} {localId key : String} {m m' : Memory α} {w w' : ω}

/-! ## §2 Stages -/

/-- The shadow keys of the sides after the given writes have arrived. -/
def shadowsOf (localId key : String) : List (Incoming α) → List String
  | [] => []
  | _ :: others => make key localId :: others.map fun x => make key x.id.source

/-- The record keeps the write as one side of a conflict. -/
structure Keeps (i : Intake α ω) (x : Incoming α) (r : Record α) : Prop where
  /-- It has the data of a put, or is the tombstone of a deletion. -/
  content : r.content = x.content
  identity : r.metadata.identity = some x.id
  /-- It has the lineage of the write, as far as the bound allows. -/
  lineage : r.metadata.lineage = x.metadata.lineage.bound i.config.maxHistory
  deleted : r.metadata.deleted = x.metadata.deleted
  /-- It is flagged as one side of a conflict. -/
  flags : r.metadata.conflict = true ∧ r.metadata.conflictSide = true

/-- The store holds a conflict between the given writes under `key`, and nothing else. The first one
is the side of this node, and the others are sides in their order. -/
structure Disputed (i : Intake α ω) (localId key : String) (first : Incoming α)
    (others : List (Incoming α)) (m : Memory α) : Prop where
  /-- The key holds the marker. -/
  marker : ∃ r, m.records.find? key = some r ∧
    r.content = .marker ⟨shadowsOf localId key (first :: others)⟩
  /-- The first write is kept under the shadow of this node. -/
  stored : ∃ r, m.records.find? (make key localId) = some r ∧ Keeps i first r
  /-- Every other write is kept under the shadow of its node. -/
  joined : ∀ x ∈ others, ∃ r, m.records.find? (make key x.id.source) = some r ∧ Keeps i x r
  /-- No other key is in use. -/
  only : ∀ q, m.records.find? q ≠ none → q = key ∨ q ∈ shadowsOf localId key (first :: others)

/-- The announcements after the given writes have arrived: one for every write but the first, which
lists the sides as they are then. -/
structure Announced (kind : ItemKind) (localId key : String) (seen : List (Incoming α))
    (notes : List Notification) : Prop where
  subject : ∀ note ∈ notes, note.id = key ∧ note.itemKind = kind
  /-- They list the sides, which have become more. -/
  conflicts : notes.map (·.conflicts) = (seen.inits.drop 2).map (shadowsOf localId key)
  /-- They name the operation that joined. -/
  operations : notes.map (·.operation) = seen.tail.map (·.metadata.operation)

/-- The store and the world after the given writes have arrived at an empty store. -/
inductive Stage (i : Intake α ω) (kind : ItemKind) (localId key : String) (w : ω) :
    List (Incoming α) → Memory α × ω → Prop
  | empty : Stage i kind localId key w [] ({}, w)
  /-- One write has arrived, a put. -/
  | alone {first : Incoming α} {m : Memory α} {etag : Etag} (hput : first.metadata.deleted = false)
      (hread : m.records.find? key =
        some ⟨first.content, etag, first.metadata.bounded i.config.maxHistory⟩)
      (honly : ∀ q, q ≠ key → m.records.find? q = none) :
    Stage i kind localId key w [first] (m, w)
  /-- More writes have arrived and are in dispute. -/
  | disputed {first second : Incoming α} {others : List (Incoming α)} {m : Memory α}
      {notes : List Notification} (hdisputed : Disputed i localId key first (second :: others) m)
      (hnotes : Announced kind localId key (first :: second :: others) notes) :
    Stage i kind localId key w (first :: second :: others) (m, i.tell notes w)

theorem shadowsOf_concat (first : Incoming α) (others : List (Incoming α)) (x : Incoming α) :
    shadowsOf localId key (first :: others) ++ [make key x.id.source] =
      shadowsOf localId key (first :: (others ++ [x])) := by
  simp [shadowsOf]

/-- One more arrival is announced once more. -/
theorem announced_concat {seen : List (Incoming α)} {notes : List Notification}
    (h : Announced kind localId key seen notes) (hseen : seen ≠ []) (x : Incoming α)
    (etag : Etag) :
    Announced kind localId key (seen ++ [x]) (notes ++ [⟨key, etag,
      shadowsOf localId key (seen ++ [x]), kind, x.metadata.operation⟩]) := by
  have hlength : 2 ≤ seen.inits.length := by
    rw [List.length_inits]
    have := List.length_pos_iff.2 hseen
    omega
  constructor
  · intro note hnote
    rcases List.mem_append.1 hnote with hnote | hnote
    · exact h.subject note hnote
    · obtain rfl := List.mem_singleton.1 hnote
      exact ⟨rfl, rfl⟩
  · -- the initial segments of the longer list are those of the shorter one and the list itself
    rw [List.map_append, h.conflicts, List.inits_append, List.drop_append_of_le_length hlength,
      List.map_append]
    rfl
  · rw [List.map_append, h.operations, List.tail_append_of_ne_nil hseen, List.map_append]
    rfl

theorem tell_append (i : Intake α ω) (notes : List Notification) (note : Notification) (w : ω) :
    i.tell (notes ++ [note]) w = (i.notifier.raise note (i.tell notes w)).2 := by
  simp only [Intake.tell, List.foldl_append, List.foldl_cons, List.foldl_nil]

/-! ## §3 Known and unknown writes -/

theorem identity_ne_none (x : Incoming α) : x.metadata.identity ≠ none := by
  simp [x.identified]

/-- Taking in a write that is known answers so and changes nothing. -/
theorem run_of_known {x : Incoming α} {existing : Record α}
    (hread : m.records.find? key = some existing)
    (hknown : m.knows existing (i.arrived x.metadata existing.metadata) = true) :
    (x.command i key).run (backend kind localId) (m, w) =
      (.outcome (.ok .replayed), (m, w)) := by
  obtain ⟨result, m', notes, w', htaken, hrun⟩ :=
    run_replicate kind localId i key x.metadata x.payload (m, w)
  have hmet := taken_of_read hread (identity_ne_none x) x.carries htaken
  obtain ⟨rfl, rfl, rfl, rfl⟩ := met_of_known hknown hmet
  exact hrun

/-- The first write, a put, is stored under the key. -/
theorem stage_first (i : Intake α ω) (kind : ItemKind) (localId key : String) (w : ω)
    {x : Incoming α} (hput : x.metadata.deleted = false) :
    Stage i kind localId key w [x] ((x.command i key).run (backend kind localId) ({}, w)).2 := by
  obtain ⟨a, ha⟩ := Option.ne_none_iff_exists'.1 (x.carries hput)
  have hcontent : x.content = .data a := by
    simp [Incoming.content, Metadata.carried, hput, ha, Content.ofPayload]
  obtain ⟨result, m', notes, w', htaken, hrun⟩ :=
    run_replicate kind localId i key x.metadata x.payload (({} : Memory α), w)
  rw [ha] at htaken
  obtain ⟨rfl, hm, rfl, hw⟩ := taken_of_absent rfl hput (identity_ne_none x) htaken
  have hafter : ((x.command i key).run (backend kind localId) (({} : Memory α), w)).2 =
      (m', w) :=
    (congrArg Prod.snd hrun).trans (congrArg (Prod.mk m') hw)
  have hread : m'.records.find? key = some ⟨x.content, ({} : Memory α).lastEtag.next,
      x.metadata.bounded i.config.maxHistory⟩ := by
    rw [hm, find?_write, if_pos rfl, hcontent]
  rw [hafter]
  refine .alone hput hread ?_
  intro q hq
  rw [hm, find?_write, if_neg hq]
  rfl

/-- The conflict lists a side for each of the writes. -/
theorem holds_of_disputed {first x : Incoming α} {others : List (Incoming α)}
    (h : Disputed i localId key first others m) (hx : x ∈ first :: others) :
    Holds m ⟨shadowsOf localId key (first :: others)⟩ x.id := by
  rcases List.mem_cons.1 hx with rfl | hx
  · obtain ⟨r, hread, hkeeps⟩ := h.stored
    exact ⟨_, List.mem_cons_self, r, hread, hkeeps.identity⟩
  · obtain ⟨r, hread, hkeeps⟩ := h.joined x hx
    exact ⟨_, List.mem_cons_of_mem _ (List.mem_map_of_mem hx), r, hread, hkeeps.identity⟩

/-- A write that has arrived before is known. -/
theorem stage_known {seen : List (Incoming α)} {s : Memory α × ω} {x : Incoming α}
    (hblank : MarkersBlank s.1) (hstage : Stage i kind localId key w seen s) (hx : x ∈ seen) :
    (x.command i key).run (backend kind localId) s = (.outcome (.ok .replayed), s) := by
  cases hstage with
  | empty => cases hx
  | alone hput hread _ =>
    -- the stored write has its identity
    obtain rfl := List.mem_singleton.1 hx
    apply run_of_known hread
    have hid : (i.arrived x.metadata (x.metadata.bounded i.config.maxHistory)).identity =
        some x.id := by
      rw [Intake.identity_arrived, x.identified]
    have hstored : (x.metadata.bounded i.config.maxHistory).identity = some x.id := x.identified
    simp [knows, Metadata.sameIdentity_of_some hid, hstored]
  | disputed hdisputed _ =>
    -- one of the sides has it
    obtain ⟨r, hread, hmarker⟩ := hdisputed.marker
    apply run_of_known hread
    apply (knows_of_blank hmarker (hblank key r hread) _).2
    · exact holds_of_disputed hdisputed hx
    · rw [Intake.identity_arrived, x.identified]

/-! ## §4 New arrivals -/

/-- A side that is stored for a write keeps it. -/
theorem keeps_side {x : Incoming α} (existing : Metadata) (etag : Etag) :
    Keeps i x ⟨x.content, etag, (i.arrived x.metadata existing).asConflictSide⟩ where
  content := rfl
  identity := (Intake.identity_arrived i x.metadata existing).trans x.identified
  lineage := Intake.lineage_arrived i x.metadata existing
  deleted := Intake.deleted_arrived i x.metadata existing
  flags := ⟨rfl, rfl⟩

/-- A write that is unrelated to the stored put is compared with it, and found to be concurrent. -/
theorem compared_of_unrelated {first x : Incoming α} (m : Memory α) (etag : Etag)
    (hunrelated : Incoming.Unrelated first x) (hput : first.metadata.deleted = false) :
    Compared i m x.metadata
        ⟨first.content, etag, first.metadata.bounded i.config.maxHistory⟩ ∧
      (i.arrived x.metadata (first.metadata.bounded i.config.maxHistory)).checkAncestry
        (first.metadata.bounded i.config.maxHistory) = .ok .concurrent := by
  have hid : (i.arrived x.metadata (first.metadata.bounded i.config.maxHistory)).identity =
      some x.id := (Intake.identity_arrived i x.metadata _).trans x.identified
  have hstored : (first.metadata.bounded i.config.maxHistory).identity = some first.id :=
    first.identified
  have hne : x.id ≠ first.id := fun h => hunrelated.sources (congrArg WriteId.source h.symm)
  have hplain : (⟨first.content, etag, first.metadata.bounded i.config.maxHistory⟩ :
      Record α).isMarker = false := isMarker_of_unflagged _ _ first.unflagged.1
  -- neither lineage names the node of the other write
  have hlineage : ∀ e ∈ (first.metadata.bounded i.config.maxHistory).lineage,
      e.source ≠ x.id.source := fun e he => hunrelated.left e (Metadata.mem_of_mem_bound he)
  refine ⟨⟨?_, hplain, ?_⟩, ?_⟩
  · have hdifferent : (first.metadata.bounded i.config.maxHistory).sameIdentity
        (i.arrived x.metadata (first.metadata.bounded i.config.maxHistory)) = false := by
      rw [Metadata.sameIdentity_of_some hid, hstored]
      simpa using hne.symm
    have hcovers : (first.metadata.bounded i.config.maxHistory).lineage.covers x.id = false := by
      simp only [Lineage.covers, List.any_eq_false, Bool.and_eq_true, beq_iff_eq, not_and]
      exact fun e he hsource => absurd hsource (hlineage e he)
    simp [knows, hdifferent, hid, hcovers, holdsSide, sides_of_plain hplain]
  · -- the stored write is a put, and no tombstone
    intro _
    obtain ⟨a, ha⟩ := Option.ne_none_iff_exists'.1 (first.carries hput)
    have hcontent : first.content = .data a := by
      simp [Incoming.content, Metadata.carried, hput, ha, Content.ofPayload]
    simp [Record.isTombstone, hcontent, Metadata.bounded, hput]
  · apply Metadata.checkAncestry_of_unlisted hid hstored hne
    · rw [Intake.lineage_arrived]
      exact fun h => hunrelated.right _ (Metadata.mem_of_mem_bound h) rfl
    · exact fun h => hlineage _ h rfl

/-- The stored put and a new side make up a conflict of two. -/
theorem disputed_of_create (first : Incoming α) {x : Incoming α}
    (hforeign : x.id.source ≠ localId) (honly : ∀ q, q ≠ key → m.records.find? q = none)
    (existing : Metadata) (etag : Etag) :
    Disputed i localId key first [x]
      ((m.withSide key x.id.source (i.arrived x.metadata existing)
        (x.metadata.carried x.payload)).withConflict key (make key x.id.source) (make key localId)
          ⟨first.content, etag, first.metadata.bounded i.config.maxHistory⟩) := by
  have hne : make key x.id.source ≠ make key localId := (make_local_ne hforeign).symm
  have hprimary := fun d => ShadowKey.make_ne_primary key d
  have hshadows : shadowsOf localId key [first, x] =
      [make key localId, make key x.id.source] := rfl
  constructor
  · -- the marker
    refine ⟨_, by rw [find?_withConflict, if_pos rfl], ?_⟩
    rw [shadows_pair hne.symm, hshadows]
  · -- the shadow of this node, with the put that was stored
    refine ⟨_, by rw [find?_withConflict, if_neg (hprimary localId), if_pos rfl], ?_⟩
    exact ⟨rfl, first.identified, rfl, rfl, rfl, rfl⟩
  · -- the shadow of the other node
    intro y hy
    obtain rfl := List.mem_singleton.1 hy
    have hnew : ((m.withSide key y.id.source (i.arrived y.metadata existing)
        (y.metadata.carried y.payload)).withConflict key (make key y.id.source) (make key localId)
          ⟨first.content, etag, first.metadata.bounded i.config.maxHistory⟩).records.find?
          (make key y.id.source) =
        some ⟨y.content, m.lastEtag.next, (i.arrived y.metadata existing).asConflictSide⟩ := by
      rw [find?_withConflict, if_neg (hprimary _), if_neg hne, find?_withSide, if_pos rfl]
      rfl
    exact ⟨_, hnew, keeps_side existing _⟩
  · -- nothing else is stored
    intro q hq
    rw [hshadows]
    rw [find?_withConflict, find?_withSide] at hq
    split at hq
    · rename_i hkey
      exact .inl hkey
    · rename_i hkey
      right
      split at hq
      · rename_i hlocal
        exact hlocal ▸ List.mem_cons_self
      · split at hq
        · rename_i hnew
          exact hnew ▸ List.mem_cons_of_mem _ List.mem_cons_self
        · exact absurd (honly q hkey) hq

/-- The second write makes a conflict of the first. -/
theorem stage_second {first x : Incoming α} {etag : Etag}
    (hresolver : i.resolver = Resolver.chain []) (hunrelated : Incoming.Unrelated first x)
    (hforeign : x.id.source ≠ localId) (hput : first.metadata.deleted = false)
    (hread : m.records.find? key =
      some ⟨first.content, etag, first.metadata.bounded i.config.maxHistory⟩)
    (honly : ∀ q, q ≠ key → m.records.find? q = none) :
    Stage i kind localId key w [first, x]
      ((x.command i key).run (backend kind localId) (m, w)).2 := by
  obtain ⟨hcompared, hancestry⟩ := compared_of_unrelated m etag hunrelated hput
  obtain ⟨result, m', notes, w', htaken, hrun⟩ :=
    run_replicate kind localId i key x.metadata x.payload (m, w)
  have hmet := taken_of_read hread (identity_ne_none x) x.carries htaken
  obtain ⟨hw, hcontended⟩ := met_of_concurrent hresolver hcompared hancestry hmet
  obtain rfl := hw.symm
  have hafter : ((x.command i key).run (backend kind localId) (m, w)).2 =
      committed i m m' notes w result := congrArg Prod.snd hrun
  have hsource : (i.arrived x.metadata (first.metadata.bounded i.config.maxHistory)).source =
      some x.id.source := (Intake.source_arrived i x.metadata _).trans x.source_eq
  have hplain := hcompared.plain
  rw [hafter]
  -- a plain record and a write of another node leave one way to contend
  cases hcontended with
  | noSource hnone => exact absurd (hsource.symm.trans hnone) (by simp)
  | collision hlocal =>
    rw [hsource] at hlocal
    exact absurd (Option.some.inj hlocal) hforeign
  | created hsource' hlocal _ hm hmarker =>
    obtain rfl := Option.some.inj (hsource.symm.trans hsource')
    have hdisputed := disputed_of_create (i := i) first hforeign honly
      (first.metadata.bounded i.config.maxHistory) etag
    rw [← hm] at hdisputed
    have hannounced : Announced kind localId key ([first] ++ [x]) ([] ++ [⟨key, m'.lastEtag,
        shadowsOf localId key ([first] ++ [x]), kind, x.metadata.operation⟩]) :=
      announced_concat ⟨by simp, rfl, rfl⟩ (by simp) x _
    subst hmarker
    exact .disputed hdisputed hannounced
  | joined _ _ hmarker _ _ => exact absurd hmarker (content_ne_marker hplain _)
  | rewritten _ _ hmarker _ => exact absurd hmarker (content_ne_marker hplain _)
  | flagged _ _ hflag _ => simp [hplain] at hflag

/-- The shadow of a node that has not arrived is not listed. -/
theorem not_listed_of_unrelated {first x : Incoming α} {others : List (Incoming α)}
    (hunrelated : ∀ y ∈ first :: others, Incoming.Unrelated y x)
    (hforeign : x.id.source ≠ localId) :
    make key x.id.source ∉ shadowsOf localId key (first :: others) := by
  intro hlisted
  rcases List.mem_cons.1 hlisted with hlocal | hother
  · exact hforeign (ShadowKey.make_inj_right.1 hlocal)
  · obtain ⟨y, hy, hmake⟩ := List.mem_map.1 hother
    exact (hunrelated y (List.mem_cons_of_mem _ hy)).sources (ShadowKey.make_inj_right.1 hmake)

/-- No side of the conflict is a write that is unrelated to all of them. -/
theorem not_holds_of_unrelated {first x : Incoming α} {others : List (Incoming α)}
    (h : Disputed i localId key first others m)
    (hunrelated : ∀ y ∈ first :: others, Incoming.Unrelated y x) :
    ¬ Holds m ⟨shadowsOf localId key (first :: others)⟩ x.id := by
  have hother : ∀ y ∈ first :: others, ∀ side : Record α,
      side.metadata.identity = some y.id → side.metadata.identity ≠ some x.id := by
    intro y hy side hid hx
    have hsame := Option.some.inj (hid.symm.trans hx)
    exact (hunrelated y hy).sources (congrArg WriteId.source hsame)
  rintro ⟨shadow, hlisted, side, hread, hid⟩
  -- each shadow holds one of the writes, and none of them is of the node of `x`
  rcases List.mem_cons.1 hlisted with rfl | hlisted
  · obtain ⟨r, hr, hkeeps⟩ := h.stored
    obtain rfl := Option.some.inj (hr.symm.trans hread)
    exact hother first List.mem_cons_self _ hkeeps.identity hid
  · obtain ⟨y, hy, rfl⟩ := List.mem_map.1 hlisted
    obtain ⟨r, hr, hkeeps⟩ := h.joined y hy
    obtain rfl := Option.some.inj (hr.symm.trans hread)
    exact hother y (List.mem_cons_of_mem _ hy) _ hkeeps.identity hid

/-- A new side that the marker lists makes a conflict of one more. -/
theorem disputed_of_join {first x : Incoming α} {others : List (Incoming α)}
    (h : Disputed i localId key first others m)
    (hnew : make key x.id.source ∉ shadowsOf localId key (first :: others))
    (existing metadata : Metadata) :
    Disputed i localId key first (others ++ [x])
      ((m.withSide key x.id.source (i.arrived x.metadata existing)
        (x.metadata.carried x.payload)).write key
          (.marker ⟨shadowsOf localId key (first :: others) ++ [make key x.id.source]⟩)
          metadata) := by
  have hprimary := fun d => ShadowKey.make_ne_primary key d
  -- a listed shadow holds what it held
  have hkept : ∀ d, make key d ∈ shadowsOf localId key (first :: others) →
      ((m.withSide key x.id.source (i.arrived x.metadata existing)
        (x.metadata.carried x.payload)).write key
          (.marker ⟨shadowsOf localId key (first :: others) ++ [make key x.id.source]⟩)
          metadata).records.find? (make key d) = m.records.find? (make key d) := by
    intro d hlisted
    have hne : make key d ≠ make key x.id.source := fun h => hnew (h ▸ hlisted)
    rw [find?_write, if_neg (hprimary d), find?_withSide, if_neg hne]
  constructor
  · -- the marker, which lists one more
    refine ⟨_, by rw [find?_write, if_pos rfl], ?_⟩
    rw [shadowsOf_concat]
  · -- the side of this node
    obtain ⟨r, hread, hkeeps⟩ := h.stored
    exact ⟨r, (hkept localId List.mem_cons_self).trans hread, hkeeps⟩
  · -- the sides of the other nodes, and the new one
    intro y hy
    rcases List.mem_append.1 hy with hy | hy
    · obtain ⟨r, hread, hkeeps⟩ := h.joined y hy
      have hlisted : make key y.id.source ∈ shadowsOf localId key (first :: others) :=
        List.mem_cons_of_mem _ (List.mem_map_of_mem hy)
      exact ⟨r, (hkept y.id.source hlisted).trans hread, hkeeps⟩
    · obtain rfl := List.mem_singleton.1 hy
      refine ⟨⟨y.content, m.lastEtag.next, (i.arrived y.metadata existing).asConflictSide⟩, ?_,
        keeps_side existing _⟩
      rw [find?_write, if_neg (hprimary _), find?_withSide, if_pos rfl]
      rfl
  · -- nothing else is stored
    intro q hq
    rw [← shadowsOf_concat]
    rw [find?_write, find?_withSide] at hq
    split at hq
    · rename_i hkey
      exact .inl hkey
    · right
      split at hq
      · rename_i hside
        exact hside ▸ List.mem_append_right _ List.mem_cons_self
      · rename_i hkey _
        exact List.mem_append_left _ ((h.only q hq).resolve_left hkey)

/-- A further write joins the conflict. -/
theorem stage_further {first second x : Incoming α} {others : List (Incoming α)}
    {notes : List Notification} (hresolver : i.resolver = Resolver.chain [])
    (hunrelated : ∀ y ∈ first :: second :: others, Incoming.Unrelated y x)
    (hforeign : x.id.source ≠ localId) (hblank : MarkersBlank m)
    (hdisputed : Disputed i localId key first (second :: others) m)
    (hnotes : Announced kind localId key (first :: second :: others) notes) :
    Stage i kind localId key w (first :: second :: others ++ [x])
      ((x.command i key).run (backend kind localId) (m, i.tell notes w)).2 := by
  obtain ⟨existing, hread, hmarker⟩ := hdisputed.marker
  obtain ⟨result, m', notes', w', htaken, hrun⟩ :=
    run_replicate kind localId i key x.metadata x.payload (m, i.tell notes w)
  have hafter : ((x.command i key).run (backend kind localId) (m, i.tell notes w)).2 =
      committed i m m' notes' w' result := congrArg Prod.snd hrun
  have hsource : (i.arrived x.metadata existing.metadata).source = some x.id.source :=
    (Intake.source_arrived i x.metadata _).trans x.source_eq
  have hnew : make key x.id.source ∉ shadowsOf localId key (first :: second :: others) :=
    not_listed_of_unrelated hunrelated hforeign
  rw [hafter]
  -- the write is new to the conflict, and so is its shadow
  rcases taken_over_marker hblank hread hmarker x.identified x.carries hresolver htaken with
    ⟨hheld, -⟩ | ⟨-, rfl, hcontended⟩
  · exact absurd hheld (not_holds_of_unrelated hdisputed hunrelated)
  · cases hcontended with
    | noSource hnone => exact absurd (hsource.symm.trans hnone) (by simp)
    | collision hlocal =>
      rw [hsource] at hlocal
      exact absurd (Option.some.inj hlocal) hforeign
    | created _ _ hplain _ _ => exact absurd hmarker (content_ne_marker hplain _)
    | joined hsource' _ hmarker' _ hm =>
      obtain rfl := Option.some.inj (hsource.symm.trans hsource')
      obtain rfl := Content.marker.inj (hmarker.symm.trans hmarker')
      have hjoined := disputed_of_join hdisputed hnew existing.metadata existing.metadata
      rw [← hm] at hjoined
      have hannounced := announced_concat hnotes (by simp) x m'.lastEtag
      -- what this write tells is the last of all that is told
      have hworld : committed i m m' [⟨key, m'.lastEtag,
          shadowsOf localId key (first :: second :: others) ++ [make key x.id.source], kind,
          x.metadata.operation⟩] (i.tell notes w)
          (.ok (.conflict ⟨m'.lastEtag, shadowsOf localId key (first :: second :: others) ++
            [make key x.id.source]⟩ false)) =
        (m', i.tell (notes ++ [⟨key, m'.lastEtag,
          shadowsOf localId key (first :: second :: others ++ [x]), kind,
          x.metadata.operation⟩]) w) := by
        rw [tell_append, shadowsOf_concat]
        rfl
      rw [hworld]
      exact .disputed hjoined hannounced
    | rewritten hsource' _ hmarker' hlisted =>
      obtain rfl := Option.some.inj (hsource.symm.trans hsource')
      obtain rfl := Content.marker.inj (hmarker.symm.trans hmarker')
      exact absurd hlisted hnew
    | flagged _ _ _ hnone => simp [marker?_of_content hmarker] at hnone

/-- A write that is unrelated to all that have arrived takes the store to the next stage. -/
theorem stage_new {seen : List (Incoming α)} {s : Memory α × ω} {x : Incoming α}
    (hresolver : i.resolver = Resolver.chain []) (hseen : seen ≠ [])
    (hunrelated : ∀ y ∈ seen, Incoming.Unrelated y x) (hforeign : x.id.source ≠ localId)
    (hblank : MarkersBlank s.1) (hstage : Stage i kind localId key w seen s) :
    Stage i kind localId key w (seen ++ [x])
      ((x.command i key).run (backend kind localId) s).2 := by
  cases hstage with
  | empty => exact absurd rfl hseen
  | alone hput hread honly =>
    exact stage_second hresolver (hunrelated _ List.mem_cons_self) hforeign hput hread honly
  | disputed hdisputed hnotes =>
    exact stage_further hresolver hunrelated hforeign hblank hdisputed hnotes

/-! ## §5 Runs -/

/-- The history that delivers the writes to an empty store, and what it leaves. -/
def delivered (i : Intake α ω) (kind : ItemKind) (localId key : String) (w : ω)
    (deliveries : List (Incoming α)) : Memory α × ω :=
  (Command.runAll (backend kind localId) (deliveries.map (Incoming.command i key)) ({}, w)).2

theorem delivered_concat (i : Intake α ω) (kind : ItemKind) (localId key : String) (w : ω)
    (deliveries : List (Incoming α)) (x : Incoming α) :
    delivered i kind localId key w (deliveries ++ [x]) =
      ((x.command i key).run (backend kind localId)
        (delivered i kind localId key w deliveries)).2 := by
  rw [delivered, List.map_append, runAll_append]
  rfl

/-- Whatever is delivered, the store is at the stage of what has arrived. -/
theorem stage_delivered (kind : ItemKind) (localId key : String) (w : ω)
    (hresolver : i.resolver = Resolver.chain []) {writes deliveries : List (Incoming α)}
    (hunrelated : writes.Pairwise Incoming.Unrelated)
    (hforeign : ∀ x ∈ writes, x.id.source ≠ localId) (hdelivered : ∀ x ∈ deliveries, x ∈ writes)
    (hput : ∀ x ∈ deliveries.head?, x.metadata.deleted = false) :
    Stage i kind localId key w (arrivals deliveries)
      (delivered i kind localId key w deliveries) := by
  induction deliveries using List.reverseRecOn with
  | nil => exact .empty
  | append_singleton deliveries x ih =>
    have hx : x ∈ writes := hdelivered x (List.mem_append_right _ List.mem_cons_self)
    have hbefore : ∀ y ∈ deliveries, y ∈ writes :=
      fun y hy => hdelivered y (List.mem_append_left _ hy)
    have hblank : MarkersBlank (delivered i kind localId key w deliveries).1 :=
      markersBlank_runAll kind localId _ w
    rw [arrivals_concat, delivered_concat]
    cases deliveries with
    | nil =>
      -- the first delivery is a put
      exact stage_first i kind localId key w (hput x rfl)
    | cons first rest =>
      have hstage := ih hbefore (by simpa using hput)
      have hwritten : ∀ y ∈ arrivals (first :: rest), y ∈ writes :=
        fun y hy => hbefore y (mem_of_mem_arrivals _ hy)
      by_cases hheard : x.id.source ∈ (arrivals (first :: rest)).map (·.id.source)
      · -- the node has been heard, and with no other write than this one
        obtain ⟨y, hy, hsource⟩ := List.mem_map.1 hheard
        have hsame : y = x := eq_of_source_eq hunrelated (hwritten y hy) hx hsource
        rw [arrive, if_pos hheard, stage_known hblank hstage (hsame ▸ hy)]
        exact hstage
      · rw [arrive, if_neg hheard]
        apply stage_new hresolver _ _ (hforeign x hx) hblank hstage
        · intro hempty
          have hfirst := source_mem_arrivals (first :: rest) List.mem_cons_self
          rw [hempty] at hfirst
          cases hfirst
        · intro y hy
          apply hunrelated.forall (hwritten y hy) hx
          rintro rfl
          exact hheard (List.mem_map_of_mem hy)

/-- The shadow keys of writes from different other nodes are different. -/
theorem nodup_shadowsOf {first : Incoming α} {others : List (Incoming α)}
    (hdistinct : ((first :: others).map (·.id.source)).Nodup)
    (hforeign : ∀ x ∈ others, x.id.source ≠ localId) :
    (shadowsOf localId key (first :: others)).Nodup := by
  refine List.nodup_cons.2 ⟨?_, ?_⟩
  · intro hlisted
    obtain ⟨x, hx, hmake⟩ := List.mem_map.1 hlisted
    exact hforeign x hx (ShadowKey.make_inj_right.1 hmake)
  · have hothers : (others.map (·.id.source)).Nodup := (List.nodup_cons.1 hdistinct).2
    have hmade : (others.map fun x => make key x.id.source) =
        (others.map (·.id.source)).map (make key) := by
      rw [List.map_map]
      rfl
    rw [hmade]
    exact hothers.map fun _ _ hmake => ShadowKey.make_inj_right.1 hmake

/-- Everything that was written is kept, and nothing else: the outcome of a history that delivers
`writes` to an empty store, from the first arrival and the other ones. -/
structure Collected (i : Intake α ω) (kind : ItemKind) (localId key : String) (w : ω)
    (writes deliveries : List (Incoming α)) (first : Incoming α) (others : List (Incoming α))
    (m : Memory α) (notes : List Notification) : Prop where
  order : arrivals deliveries = first :: others
  /-- The first one was delivered first. -/
  start : deliveries.head? = some first
  complete : (first :: others).Perm writes
  /-- The store holds `m`, and observers were told of the conflicts. -/
  result : delivered i kind localId key w deliveries = (m, i.tell notes w)
  /-- The store holds the writes as the sides of one conflict. -/
  disputed : Disputed i localId key first others m
  /-- There is a side of its own for every write. -/
  distinct : (shadowsOf localId key (first :: others)).Nodup
  /-- There are as many sides as writes. -/
  size : (shadowsOf localId key (first :: others)).length = writes.length
  announced : Announced kind localId key (first :: others) notes
  /-- They are one less than the writes. -/
  count : notes.length + 1 = writes.length
  /-- A delivery that is not the first of its write answers so, and changes neither the store nor
  the world. -/
  repeated : ∀ before x after, deliveries = before ++ x :: after → x ∈ before →
    (x.command i key).run (backend kind localId) (delivered i kind localId key w before) =
      (.outcome (.ok .replayed), delivered i kind localId key w before)

/-- At least two unrelated writes of different other nodes, delivered to an empty store without a
policy in any order and with any repetitions, of which the first is a put, are all kept as the sides
of one conflict. -/
theorem every_write_collected (kind : ItemKind) (localId key : String) {i : Intake α ω}
    (hresolver : i.resolver = Resolver.chain []) (w : ω) {writes deliveries : List (Incoming α)}
    (hcount : 2 ≤ writes.length) (hunrelated : writes.Pairwise Incoming.Unrelated)
    (hforeign : ∀ x ∈ writes, x.id.source ≠ localId)
    (hdelivered : ∀ x, x ∈ deliveries ↔ x ∈ writes)
    (hput : ∀ x ∈ deliveries.head?, x.metadata.deleted = false) :
    ∃ first others m notes,
      Collected i kind localId key w writes deliveries first others m notes := by
  have hperm := arrivals_perm hunrelated hdelivered
  have hstage := stage_delivered kind localId key w hresolver hunrelated hforeign
    (fun x hx => (hdelivered x).1 hx) hput
  have hdistinct := arrivals_distinct deliveries
  generalize harrivals : arrivals deliveries = seen at hperm hstage hdistinct
  generalize hresult : delivered i kind localId key w deliveries = s at hstage
  have hlength := hperm.length_eq
  -- two writes or more are past the first two stages
  cases hstage with
  | empty => simp at hlength; omega
  | alone => simp at hlength; omega
  | @disputed first second others m notes hdisputed hnotes =>
    have hnumber : notes.length = (second :: others).length := by
      have hoperations := congrArg List.length hnotes.operations
      simpa using hoperations
    refine ⟨first, second :: others, m, notes, harrivals, ?_, hperm, hresult, hdisputed, ?_, ?_,
      hnotes, ?_, ?_⟩
    · rw [← head?_arrivals, harrivals]
      rfl
    · apply nodup_shadowsOf hdistinct
      intro x hx
      exact hforeign x (hperm.mem_iff.1 (List.mem_cons_of_mem _ hx))
    · rw [← hlength]
      simp [shadowsOf]
    · rw [← hlength, hnumber]
      rfl
    · -- what has been delivered before is at a stage at which the write is known
      intro before x after hsplit hx
      have hbefore : ∀ y ∈ before, y ∈ writes := by
        intro y hy
        apply (hdelivered y).1
        rw [hsplit]
        exact List.mem_append_left _ hy
      have hfirst : ∀ y ∈ before.head?, y.metadata.deleted = false := by
        intro y hy
        apply hput y
        rw [hsplit, List.head?_append, Option.mem_def.1 hy]
        rfl
      have hstage := stage_delivered kind localId key w hresolver hunrelated hforeign hbefore hfirst
      obtain ⟨y, hy, hsource⟩ := List.mem_map.1 (source_mem_arrivals before hx)
      have hsame : y = x := eq_of_source_eq hunrelated (hbefore y (mem_of_mem_arrivals before hy))
        (hbefore x hx) hsource
      exact stage_known (markersBlank_runAll kind localId _ w) hstage (hsame ▸ hy)

/-- A put of a node that has written before. -/
def putOfA : Incoming String where
  id := ⟨"a", 2⟩
  metadata := { Metadata.ofId "a" 2 with lineage := [⟨"a", 1⟩] }
  payload := some "a2"
  identified := rfl
  unflagged := ⟨rfl, rfl⟩
  carries := by decide

/-- A deletion. -/
def deletionOfB : Incoming String where
  id := ⟨"b", 1⟩
  metadata := { Metadata.ofId "b" 1 with deleted := true }
  payload := none
  identified := rfl
  unflagged := ⟨rfl, rfl⟩
  carries := by decide

/-- A put of a third node. -/
def putOfC : Incoming String where
  id := ⟨"c", 1⟩
  metadata := .ofId "c" 1
  payload := some "c1"
  identified := rfl
  unflagged := ⟨rfl, rfl⟩
  carries := by decide

/-- Two puts and a deletion are collected, whatever is repeated. -/
theorem puts_and_deletion_collected :
    ∃ first others m notes, Collected {} .document "L" "k" () [putOfA, deletionOfB, putOfC]
      [putOfC, deletionOfB, putOfC, putOfA, deletionOfB] first others m notes := by
  apply every_write_collected .document "L" "k" rfl ()
  · decide
  · simp only [List.pairwise_cons, List.forall_mem_cons, List.not_mem_nil, false_implies,
      implies_true, List.Pairwise.nil, and_true]
    exact ⟨⟨⟨by decide, by decide, by decide⟩, ⟨by decide, by decide, by decide⟩⟩,
      ⟨by decide, by decide, by decide⟩⟩
  · simp only [List.forall_mem_cons, List.not_mem_nil, false_implies, implies_true, and_true]
    decide
  · intro x
    simp only [List.mem_cons, List.not_mem_nil, or_false]
    tauto
  · intro x hx
    obtain rfl := Option.some.inj hx
    rfl

end Memory

end ReplicaIntake
