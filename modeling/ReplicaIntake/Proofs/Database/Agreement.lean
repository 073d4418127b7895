import ReplicaIntake.Proofs.Database.Rows
import ReplicaIntake.Proofs.Memory.Overlays
import ReplicaIntake.Proofs.PayloadsInUse

/-!
# A database agrees with a store in memory

A database that tabulates the records of a store in memory, and records its two counts, agrees with
it (`Agrees`). An open transaction on the one is abreast of an open transaction on the other as long
as the rows are those of the records, the counts are the same and so is the queue (`Abreast`). Each
operation of a backend keeps that, so the two do the same (`alike`).

Hence the two kinds of store cannot be told apart by what they answer (`backends_agree`): a fresh
one of each, put through the same history, gives the same replies, and lists the same records at the
end. That the payloads in use can be stored is needed: any other one is written, and refused when it
is read.
-/

namespace ReplicaIntake

/-- What reading the whole store should answer. -/
def Memory.listing {α : Type} (m : Memory α) :
    List (String × Except StoreError (Option (Record α))) :=
  m.records.entries.map fun e => (e.1, .ok (some e.2))

/-- Reading the whole of a store in memory answers its records. -/
theorem Memory.readAll_eq {α ω : Type} (kind : ItemKind) (localId : String) (m : Memory α) (w : ω) :
    ((backend kind localId).readAll (m, w)).1 = .ok m.listing := by
  have hread : ∀ keys : List String, (backend kind localId).readEach keys (m, w) =
      (keys.map fun key => (key, .ok (m.records.find? key)), (m, w)) := by
    intro keys
    induction keys with
    | nil => rfl
    | cons key rest ih =>
      have hget : ((backend kind localId).get key).answer (m, w) =
          (.ok (m.records.find? key), (m, w)) := rfl
      simp only [Backend.readEach, hget, ih, List.map_cons]
  have hlisting : m.records.keys.map (fun key => (key, Except.ok (m.records.find? key))) =
      m.listing := by
    rw [KeyMap.keys, List.map_map]
    exact List.map_congr_left fun e he => by
      rw [Function.comp_apply, KeyMap.find?_of_mem he]
  rw [← hlisting]
  exact congrArg (fun r => Except.ok r.1) (hread m.records.keys)

namespace Database

open Op

variable {α ω : Type} {format : PayloadFormat α} {P : α → Prop}

/-! ## §1 What agrees -/

/-- The database tabulates the records and records the counts. -/
structure Agrees (format : PayloadFormat α) (P : α → Prop) (m : Memory α) (db : Database) :
    Prop extends Tabulates format P db m.records where
  lastEtag : db.count lastEtagName .lastEtag = .ok m.lastEtag.value
  lastVersion : db.count lastVersionName .lastVersion = .ok m.lastVersion

/-- The open transaction of the database has got as far as the one in memory. -/
structure Abreast (format : PayloadFormat α) (P : α → Prop) (t : Memory.Transaction α ω)
    (u : Transaction ω) : Prop extends Tabulates format P u.contents t.contents.records where
  lastEtag : u.lastEtag = t.contents.lastEtag
  lastVersion : u.lastVersion = t.contents.lastVersion
  pending : u.pending = t.pending

/-- A database that has just been made agrees with an empty store. -/
theorem agrees_open (format : PayloadFormat α) (P : α → Prop) (localId : String) :
    Agrees format P {} (Database.open {} localId).1 where
  settings := ⟨_, rfl, rfl⟩
  rows := rfl
  fits _ _ hfound := by cases hfound
  lastEtag := rfl
  lastVersion := rfl

theorem keys_eq_of_agrees {m : Memory α} {db : Database} (h : Agrees format P m db)
    (localId : String) :
    (Memory.backend format.kind localId : Backend (Memory α) (Memory.Transaction α ω) α ω).keys m =
      (backend format localId : Backend Database (Transaction ω) α ω).keys db := by
  show Except.ok m.records.keys = (db.rows format.kind).map KeyMap.keys
  rw [h.rows]
  exact congrArg Except.ok (KeyMap.keys_mapValues _ _).symm

/-! ## §2 What keeps agreement -/

namespace Abreast

variable {t : Memory.Transaction α ω} {u : Transaction ω}

theorem start {m : Memory α} {db : Database} (h : Agrees format P m db) :
    ∃ u : Transaction ω, Database.start db = .ok u ∧ Abreast format P { contents := m } u := by
  refine ⟨⟨db, m.lastEtag, m.lastVersion, {}⟩, ?_, ⟨h.toTabulates, rfl, rfl, rfl⟩⟩
  rw [Database.start, h.lastEtag, h.lastVersion]
  rfl

/-- A commit records the counts, which cannot fail. -/
theorem finish (h : Abreast format P t u) :
    ∃ db, Database.finish u = .ok (db, t.pending) ∧ Agrees format P t.contents db := by
  obtain ⟨db, hset, hrows, hetag, -⟩ := h.toTabulates.set lastEtagName u.lastEtag.value
  obtain ⟨db', hset', hrows', hversion, hother⟩ := hrows.set lastVersionName u.lastVersion
  refine ⟨db', ?_, ⟨hrows', ?_, ?_⟩⟩
  · rw [Database.finish, hset, ← h.pending]
    show (db.set lastVersionName (Decimal.ofNat u.lastVersion.toNat)).bind _ = _
    rw [hset']
    rfl
  · -- the version is recorded under another name than the etag
    rw [hother lastEtagName (by decide), hetag, h.lastEtag]
  · rw [hversion, h.lastVersion]

theorem read (h : Abreast format P t u) (hformat : format.Recovers P) (key : String) :
    Database.read format key u = .ok (t.contents.records.find? key) u := by
  unfold Database.read withRows
  rw [h.rows]
  simp only [Except.bind, KeyMap.find?_mapValues]
  cases hfound : t.contents.records.find? key with
  | none => rfl
  | some r =>
    simp only [Option.map_some, recordOf_rowOfRecord hformat key (h.fits key r hfound), Except.map]

theorem write (h : Abreast format P t u) (key : String) {content : Content α} (metadata : Metadata)
    (hcontent : content.Fits P) :
    ∃ u', Database.write format key content metadata u = .ok t.contents.lastEtag.next u' ∧
      Abreast format P { t with contents := t.contents.write key content metadata } u' := by
  obtain ⟨db, etag, version, pending⟩ := u
  obtain rfl : etag = t.contents.lastEtag := h.lastEtag
  exact ⟨_, write_of_rows h.rows key content metadata,
    h.toTabulates.insert key hcontent, rfl, h.lastVersion, h.pending⟩

theorem erase (h : Abreast format P t u) (key : String) :
    ∃ u', changeRows format.kind (fun rows => rows.erase key) u = .ok () u' ∧
      Abreast format P { t with contents := t.contents.erase key } u' :=
  ⟨_, changeRows_of_rows h.rows _,
    ⟨h.toTabulates.erase key, h.lastEtag, h.lastVersion, h.pending⟩⟩

end Abreast

/-- The two backends do the same with payloads in use. -/
theorem alike (hformat : format.Recovers P) (localId : String) :
    Backend.Alike (Memory.backend format.kind localId : Backend _ _ α ω) (backend format localId) P
      (Agrees format P) (Abreast format P) where
  kind := rfl
  localId := rfl
  start m db hm := by
    obtain ⟨u, hstart, hu⟩ := Abreast.start hm
    exact ⟨_, u, rfl, hstart, hu⟩
  finish t u ht := by
    obtain ⟨db, hfinish, hdb⟩ := ht.finish
    exact ⟨_, db, _, rfl, hfinish, hdb⟩
  read key t u ht := by
    show Matched _ _ (.ok (t.contents.records.find? key) t) (read format key u)
    rw [ht.read hformat]
    exact .ok (fun r hr => ht.fits key r hr) ht
  write key content metadata hcontent t u ht := by
    obtain ⟨u', hwrite, hu'⟩ := ht.write key metadata hcontent
    show Matched _ _ _ (write format key content metadata u)
    rw [hwrite]
    exact .ok trivial hu'
  erase key t u ht := by
    obtain ⟨u', herase, hu'⟩ := ht.erase key
    show Matched _ _ _ (changeRows format.kind (fun rows => rows.erase key) u)
    rw [herase]
    exact .ok trivial hu'
  nextVersion t u ht := by
    show Matched _ _ (.ok (t.contents.lastVersion + 1) _) (.ok (u.lastVersion + 1) _)
    rw [ht.lastVersion]
    exact .ok trivial ⟨ht.toTabulates, ht.lastEtag, rfl, ht.pending⟩
  enqueue action t u ht :=
    ⟨ht.toTabulates, ht.lastEtag, ht.lastVersion, congrArg (PostCommit.push · action) ht.pending⟩

/-! ## §3 Whole histories -/

/-- A fresh store in memory and a fresh database, put through the same history, give the same
replies and leave the same world, and whoever then reads all of the one or of the other gets the
same records: those that the memory holds. The payloads in use may be any class that can be stored
and that the policies keep to. -/
theorem backends_agree (k : ItemKind) (localId : String) {P : k.Payload → Prop}
    (hP : ∀ a, P a → k.Storable a) {turns : List (Turn k.Payload ω)}
    (hturns : ∀ turn ∈ turns, turn.Uses P) (w : ω) :
    let inMemory := Memory.overlayBackend k localId
    let inDatabase := Database.backend (.ofKind k) (Database.open {} localId).2
    let m := Turn.runAll inMemory turns ({}, w)
    let d := Turn.runAll inDatabase turns ((Database.open {} localId).1, w)
    m.1 = d.1 ∧ m.2.2 = d.2.2 ∧ (inMemory.readAll m.2).1 = .ok m.2.1.listing ∧
      (inDatabase.readAll d.2).1 = .ok m.2.1.listing := by
  have hformat : (PayloadFormat.ofKind k).Recovers P := fun a ha =>
    PayloadFormat.recovers_ofKind k a (hP a ha)
  have halike := alike (ω := ω) hformat localId
  rw [PayloadFormat.kind_ofKind] at halike
  -- staging changes is making them, so the memory may be one whose transactions copy it
  have hstaged := Memory.overlay_runAll k localId turns ({}, w)
  obtain ⟨hreplies, hagree, hworlds⟩ :=
    halike.runAll_eq hturns (agrees_open (.ofKind k) P localId) w
  rw [← hstaged] at hreplies hagree hworlds
  intro inMemory inDatabase m d
  have hlisted : ((Memory.backend k localId).readAll m.2).1 = .ok m.2.1.listing :=
    Memory.readAll_eq k localId m.2.1 m.2.2
  have hkeys := keys_eq_of_agrees (ω := ω) hagree localId
  rw [PayloadFormat.kind_ofKind] at hkeys
  refine ⟨hreplies, hworlds, ?_, ?_⟩
  · exact ((Memory.overlay_alike k localId).readAll_eq rfl rfl m.2.2).trans hlisted
  · have hend : d.2 = (d.2.1, m.2.2) := Prod.ext rfl hworlds.symm
    rw [hend]
    exact (halike.readAll_eq hkeys hagree m.2.2).symm.trans hlisted

/-- Two counts of `k` are merged. Two counts of `l` come into conflict, a transaction that removes
`k` fails over `l` and is abandoned, and the conflict is resolved. -/
def countersOfKAndL : List (Turn Counter Unit) :=
  let fiveMore : Counter := { increments := .ofList [("a", 5)] }
  let threeLess : Counter := { decrements := .ofList [("b", 3)] }
  let merging : Intake Counter Unit := { resolver := .chain [.preferNewest "t", .mergeCounters] }
  [.use (.replicate merging "k" (.ofId "a" 1) (some fiveMore)),
    .use (.replicate merging "k" (.ofId "b" 1) (some threeLess)),
    .use (.replicate {} "l" (.ofId "a" 2) (some fiveMore)),
    .use (.replicate {} "l" (.ofId "b" 2) (some threeLess)),
    .session [.call (.remove "k" none), .call (.put "l" (some ⟨9⟩) (.ofId "b" 3) threeLess)] false,
    .use (.resolveLocal "l" (some fiveMore) 50)]

/-- The database has the merged counter and the resolution, as the memory has. -/
theorem counters_of_k_and_l_agree :
    (∀ turn ∈ countersOfKAndL, turn.Uses (Counter.Among ["a", "b"])) ∧
      ((backend .counter "n").readAll
          (Turn.runAll (backend .counter "n") countersOfKAndL ((Database.open {} "n").1, ())).2).1 =
        .ok [("k", .ok (some ⟨.data ⟨.ofList [("a", 5)], .ofList [("b", 3)]⟩, ⟨2⟩,
            { Metadata.ofId "b" 1 with lineage := [⟨"a", 1⟩] }⟩)),
          ("l", .ok (some ⟨.data ⟨.ofList [("a", 5)], .empty⟩, ⟨7⟩,
            { Metadata.ofId "n" 1 with lineage := [⟨"a", 2⟩, ⟨"b", 2⟩] }⟩))] := by
  have hresolver : (Resolver.chain [.preferNewest "t", .mergeCounters]).Keeps
      (Counter.Among ["a", "b"]) := by
    apply Resolver.keeps_chain
    simp only [List.forall_mem_cons]
    exact ⟨Resolver.keeps_preferNewest "t",
      Resolver.keeps_mergeCounters fun _ _ => Counter.among_merge, by simp⟩
  have hplain : (Resolver.chain []).Keeps (Counter.Among ["a", "b"]) :=
    Resolver.keeps_chain (by simp)
  have hfiveMore : Counter.Among ["a", "b"] { increments := .ofList [("a", 5)] } :=
    ⟨by simp [Counter.TotalsAmong, KeyMap.ofList, KeyMap.find?_insert],
      by simp [Counter.TotalsAmong]⟩
  have hthreeLess : Counter.Among ["a", "b"] { decrements := .ofList [("b", 3)] } :=
    ⟨by simp [Counter.TotalsAmong],
      by simp [Counter.TotalsAmong, KeyMap.ofList, KeyMap.find?_insert]⟩
  have hturns : ∀ turn ∈ countersOfKAndL, turn.Uses (Counter.Among ["a", "b"]) := by
    simp [countersOfKAndL, Turn.Uses, Command.Uses, Step.Uses, Call.Uses, hresolver, hplain, hfiveMore,
      hthreeLess]
  refine ⟨hturns, ?_⟩
  obtain ⟨-, -, -, hread⟩ := backends_agree .counter "n"
    (fun c hc => Counter.storable_of_among (c := c) hc (by decide) (by decide +kernel)) hturns ()
  have hentries : (Turn.runAll (Memory.overlayBackend .counter "n") countersOfKAndL
      ({}, ())).2.1.records.entries =
        [("k", ⟨.data ⟨.ofList [("a", 5)], .ofList [("b", 3)]⟩, ⟨2⟩,
            { Metadata.ofId "b" 1 with lineage := [⟨"a", 1⟩] }⟩),
          ("l", ⟨.data ⟨.ofList [("a", 5)], .empty⟩, ⟨7⟩,
            { Metadata.ofId "n" 1 with lineage := [⟨"a", 2⟩, ⟨"b", 2⟩] }⟩)] := by
    decide +kernel
  refine hread.trans (congrArg Except.ok ?_)
  rw [Memory.listing, hentries]
  rfl

end Database

end ReplicaIntake
