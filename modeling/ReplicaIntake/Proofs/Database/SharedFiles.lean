import Mathlib.Logic.Function.Basic
import ReplicaIntake.Proofs.Database.Transactions

/-!
# Stores that share a database file

Stores of all kinds may be open on one database file, and come and go while others stay. A history
of such a file is a list of events, each the opening, the closing or a transaction of one store
(`Event.run`). Whoever opens the file first gives it its local id, and from then on the events
number through the etags of what they commit and the versions that they answer (`Sharing.run`),
whichever store they are about.

So the kinds stay apart as to their rows, and still share one identity (`kinds_stay_apart`).
-/

namespace ReplicaIntake

namespace Database

variable {ω β : Type} {localId : String} {etags versions : Nat}

/-! ## §1 Histories of a file -/

/-- What happens to the stores on a database file. -/
inductive Event (ω : Type) where
  /-- A store is opened, to be called `preferred` if the database has no local id yet. -/
  | «open» (kind : ItemKind) (preferred : String)
  /-- One of the open stores of a kind is closed. -/
  | close (kind : ItemKind) (place : Nat)
  /-- One of the open stores of a kind runs a transaction. -/
  | turn (kind : ItemKind) (place : Nat) (turn : Turn kind.Payload ω)

/-- A database file and the stores that are open on it. -/
structure Shared (ω : Type) where
  database : Database := {}
  /-- The local ids that the open stores of each kind go by. -/
  stores : ItemKind → List String := fun _ => []
  world : ω

namespace Event

/-- The database and the stores after the event. -/
def run : Event ω → Shared ω → Shared ω
  | .open kind preferred, s =>
    let (database, localId) := s.database.open preferred
    { s with database, stores := Function.update s.stores kind (s.stores kind ++ [localId]) }
  | .close kind place, s =>
    { s with stores := Function.update s.stores kind ((s.stores kind).eraseIdx place) }
  | .turn kind place t, s =>
    match (s.stores kind)[place]? with
    | none => s
    | some localId =>
      let (_, database, world) := t.run (backend (.ofKind kind) localId) (s.database, s.world)
      { s with database, world }

/-- The name that a store is to have. -/
def preferred? : Event ω → Option String
  | .open _ preferred => some preferred
  | _ => none

/-- The etags of the writes that the event commits, in the order of the writes. -/
def writtenEtags : Event ω → Shared ω → List UInt64
  | .turn kind place t, s =>
    match (s.stores kind)[place]? with
    | none => []
    | some localId => etagsOf (committed (.ofKind kind) localId t (s.database, s.world))
  | _, _ => []

/-- The identities that the event answers for committed local writes. -/
def identities : Event ω → Shared ω → List WriteId
  | .turn kind place t, s =>
    match (s.stores kind)[place]? with
    | none => []
    | some localId =>
      (t.run (backend (.ofKind kind) localId) (s.database, s.world)).1.identities localId
  | _, _ => []

end Event

/-- What there is after the first `n` events on a fresh file. -/
def after (events : List (Event ω)) (w : ω) (n : Nat) : Shared ω :=
  (events.take n).foldl (fun s event => event.run s) { world := w }

/-- What `f` finds in the events, one after the other. -/
def gather (f : Event ω → Shared ω → List β) : List (Event ω) → Shared ω → List β
  | [], _ => []
  | event :: rest, s => f event s ++ gather f rest (event.run s)

/-! ## §2 What the events share -/

/-- The open stores go by the local id that was recorded first, if the database was opened yet, and
so many etags and versions have been given out. -/
structure Sharing (first? : Option String) (etags versions : Nat) (s : Shared ω) : Prop where
  stores : ∀ kind, ∀ name ∈ s.stores kind, first? = some name
  fresh : first? = none → s.database = {} ∧ etags = 0 ∧ versions = 0
  sound : ∀ localId, first? = some localId → Sound localId etags versions s.database

theorem sound_open (preferred : String) : Sound preferred 0 0 (Database.open {} preferred).1 where
  settings := ⟨_, rfl, rfl, rfl⟩
  items := ⟨_, rfl⟩
  lastEtag := rfl
  lastVersion := rfl

/-- Opening a database again changes nothing and answers the recorded local id. -/
theorem open_of_sound {db : Database} (h : Sound localId etags versions db) (preferred : String) :
    db.open preferred = (db, localId) := by
  obtain ⟨settings, hsettings, husable⟩ := h.settings
  obtain ⟨items, hitems⟩ := h.items
  obtain ⟨_, _⟩ := db
  cases hsettings
  cases hitems
  simp [Database.open, Settings.named, husable.named]

namespace Sharing

variable {first? : Option String} {s : Shared ω}

/-- An open store is called by the local id that was recorded first. -/
theorem open_eq (h : Sharing first? etags versions s) (preferred : String) :
    first?.or (some preferred) = some (s.database.open preferred).2 ∧
      Sound (s.database.open preferred).2 etags versions (s.database.open preferred).1 := by
  cases first? with
  | none =>
    obtain ⟨hdatabase, rfl, rfl⟩ := h.fresh rfl
    rw [hdatabase]
    exact ⟨rfl, sound_open preferred⟩
  | some localId =>
    have hsound := h.sound localId rfl
    rw [open_of_sound hsound]
    exact ⟨rfl, hsound⟩

theorem opened (h : Sharing first? etags versions s) (kind : ItemKind) (preferred : String) :
    Sharing (first?.or (some preferred)) etags versions ((Event.open kind preferred).run s) := by
  obtain ⟨hfirst, hsound⟩ := h.open_eq preferred
  rw [hfirst]
  refine ⟨fun other name hname => ?_, nofun, fun localId hid => Option.some.inj hid ▸ hsound⟩
  simp only [Event.run, Function.update_apply] at hname
  split at hname
  · rcases List.mem_append.1 hname with hbefore | hnew
    · -- a store that was open before goes by the id that was recorded before
      rw [← hfirst, h.stores kind name hbefore, Option.some_or]
    · rw [List.mem_singleton.1 hnew]
  · rw [← hfirst, h.stores other name hname, Option.some_or]

theorem closed (h : Sharing first? etags versions s) (kind : ItemKind) (place : Nat) :
    Sharing first? etags versions ((Event.close kind place).run s) where
  stores other name hname := by
    simp only [Event.run, Function.update_apply] at hname
    split at hname
    · exact h.stores kind name (List.mem_of_mem_eraseIdx hname)
    · exact h.stores other name hname
  fresh := h.fresh
  sound := h.sound

/-- Every event gives out the next etags and versions. -/
theorem run (h : Sharing first? etags versions s) (event : Event ω) :
    ∃ m k, Sharing (first?.or event.preferred?) (etags + m) (versions + k) (event.run s) ∧
      event.writtenEtags s = numbersAfter etags m ∧
      (event.identities s).map WriteId.version = numbersAfter versions k := by
  cases event with
  | «open» kind preferred => exact ⟨0, 0, h.opened kind preferred, rfl, rfl⟩
  | close kind place =>
    rw [show (Event.close kind place : Event ω).preferred? = none from rfl, Option.or_none]
    exact ⟨0, 0, h.closed kind place, rfl, rfl⟩
  | turn kind place t =>
    rw [show (Event.turn kind place t).preferred? = none from rfl, Option.or_none]
    cases hstore : (s.stores kind)[place]? with
    | none =>
      simp only [Event.run, Event.writtenEtags, Event.identities, hstore]
      exact ⟨0, 0, h, rfl, rfl⟩
    | some localId =>
      have hfirst := h.stores kind localId (List.mem_of_getElem? hstore)
      obtain ⟨k, hled, hids, hsound⟩ := sound_turn (h.sound localId hfirst) (.ofKind kind) t s.world
      simp only [Event.run, Event.writtenEtags, Event.identities, hstore, hids, List.map_map]
      refine ⟨_, k, ⟨h.stores, ?_, ?_⟩, hled.etags, List.map_id _⟩
      · rw [hfirst]
        nofun
      · rintro other hother
        obtain rfl : localId = other := Option.some.inj (hfirst.symm.trans hother)
        exact hsound

/-- A transaction changes the rows of its kind by what it has committed. -/
theorem rows_turn (h : Sharing first? etags versions s) {kind : ItemKind} {place : Nat}
    (hstore : (s.stores kind)[place]? = some localId) (t : Turn kind.Payload ω) :
    RowsChanged (.ofKind kind) (committed (.ofKind kind) localId t (s.database, s.world)) s.database
      ((Event.turn kind place t).run s).database := by
  have hsound := h.sound localId (h.stores kind localId (List.mem_of_getElem? hstore))
  obtain ⟨k, hled, -⟩ := sound_turn hsound (.ofKind kind) t s.world
  simp only [Event.run, hstore]
  exact hled.rows

/-- Over a history, the etags and versions that are given out are numbered through. -/
theorem runAll (h : Sharing first? etags versions s) (events : List (Event ω)) :
    ∃ m k, Sharing (first?.or (events.findSome? Event.preferred?)) (etags + m) (versions + k)
        (events.foldl (fun s event => event.run s) s) ∧
      gather Event.writtenEtags events s = numbersAfter etags m ∧
      (gather Event.identities events s).map WriteId.version = numbersAfter versions k := by
  -- on the events, from whatever the first of them finds shared
  induction events generalizing first? etags versions s with
  | nil => exact ⟨0, 0, by simpa using h, rfl, rfl⟩
  | cons event rest ih =>
    obtain ⟨m, k, hnext, hetags, hids⟩ := h.run event
    obtain ⟨m', k', hlast, hetags', hids'⟩ := ih hnext
    have hfirst : (event :: rest).findSome? Event.preferred? =
        event.preferred?.or (rest.findSome? Event.preferred?) := by
      cases hpreferred : event.preferred? <;> simp [hpreferred]
    refine ⟨m + m', k + k', ?_, ?_, ?_⟩
    · rw [hfirst, ← Option.or_assoc, ← Nat.add_assoc, ← Nat.add_assoc]
      exact hlast
    · rw [gather, hetags, hetags', numbersAfter_append]
    · rw [gather, List.map_append, hids, hids', numbersAfter_append]

end Sharing

/-! ## §3 Whole histories -/

theorem sharing_fresh (w : ω) : Sharing none 0 0 ({ world := w } : Shared ω) where
  stores kind name hname := by cases hname
  fresh _ := ⟨rfl, rfl, rfl⟩
  sound _ hfirst := by cases hfirst

theorem after_succ {events : List (Event ω)} (w : ω) {n : Nat} {event : Event ω}
    (h : events[n]? = some event) :
    after events w (n + 1) = event.run (after events w n) := by
  rw [after, List.take_add_one, h, Option.toList_some, List.foldl_append]
  rfl

/-- In every history of a file, however the stores of the three kinds are opened, closed and used in
between each other: a transaction changes no rows of another kind, and those of its kind as it has
committed; every store is called as the one that was opened first was to be called; and while fewer
than 2^64 etags and versions are given out, the etags grow from one committed write to the next,
over all kinds, and no identity is answered for two committed local writes. -/
theorem kinds_stay_apart (events : List (Event ω)) (w : ω) :
    let etags := gather Event.writtenEtags events { world := w }
    let ids := gather Event.identities events { world := w }
    (∀ n kind place t, events[n]? = some (.turn kind place t) →
      let s := after events w n
      let s' := after events w (n + 1)
      (∀ other, other ≠ kind → s'.database.rows other = s.database.rows other) ∧
      ∀ localId, (s.stores kind)[place]? = some localId →
        RowsChanged (.ofKind kind) (committed (.ofKind kind) localId t (s.database, s.world))
          s.database s'.database) ∧
    (∀ n kind preferred, events[n]? = some (.open kind preferred) →
      events.findSome? Event.preferred? = some ((after events w n).database.open preferred).2) ∧
    (etags.length < 2 ^ 64 → etags.Pairwise (· < ·)) ∧ (ids.length < 2 ^ 64 → ids.Nodup) := by
  -- what is so before an event is so because of the events before it
  have hbefore : ∀ n, ∃ m k, Sharing ((events.take n).findSome? Event.preferred?) m k
      (after events w n) := fun n => by
    obtain ⟨m, k, h, -⟩ := (sharing_fresh w).runAll (events.take n)
    exact ⟨0 + m, 0 + k, h⟩
  obtain ⟨m, k, -, hetags, hids⟩ := (sharing_fresh w).runAll events
  refine ⟨?_, ?_, ?_, ?_⟩
  · intro n kind place t hevent s s'
    obtain ⟨_, _, h⟩ := hbefore n
    have hs' : s' = (Event.turn kind place t).run s := after_succ w hevent
    rw [hs']
    refine ⟨fun other hother => ?_, fun localId hstore => h.rows_turn hstore t⟩
    cases hstore : (s.stores kind)[place]? with
    | none => simp only [Event.run, hstore]
    | some localId =>
      rw [h.rows_turn hstore t other, PayloadFormat.kind_ofKind, if_neg hother]
  · intro n kind preferred hevent
    obtain ⟨_, _, h⟩ := hbefore n
    obtain ⟨hn, hget⟩ := List.getElem?_eq_some_iff.1 hevent
    have hsplit : events = events.take n ++ .open kind preferred :: events.drop (n + 1) := by
      rw [← hget, List.getElem_cons_drop, List.take_append_drop]
    calc events.findSome? Event.preferred?
        = (events.take n ++ .open kind preferred :: events.drop (n + 1)).findSome?
            Event.preferred? := by rw [← hsplit]
      _ = ((events.take n).findSome? Event.preferred?).or (some preferred) := by
          rw [List.findSome?_append]
          rfl
      _ = some ((after events w n).database.open preferred).2 := (h.open_eq preferred).1
  · rw [hetags, length_numbersAfter]
    exact pairwise_numbersAfter
  · intro hroom
    have hlength := congrArg List.length hids
    rw [List.length_map, length_numbersAfter] at hlength
    -- the versions alone tell the identities apart
    refine List.Nodup.of_map WriteId.version ?_
    rw [hids]
    exact (pairwise_numbersAfter (hlength ▸ hroom)).imp UInt64.ne_of_lt

/-- A file and a counter are stored under one key, a transaction on the counters is dropped, and the
files are closed and opened again under another name. -/
def filesAndCounters : List (Event Unit) :=
  [.open .file "A", .turn .file 0 (.use (.putLocal "k" [1, 2] 50)), .open .counter "B",
    .turn .counter 0 (.use (.putLocal "k" {} 50)),
    .turn .counter 0 (.session [.call (.put "l" none (.ofId "b" 1) {}), .call .nextVersion] false),
    .close .file 0, .open .file "C",
    .turn .file 0 (.session [.call .nextVersion, .call (.put "l" none (.ofId "A" 3) [3])] true)]

/-- The file is `A` to all of them, and its counts go on. -/
theorem files_and_counters_stay_apart :
    (after filesAndCounters () 4).database.rows .file =
        (after filesAndCounters () 3).database.rows .file ∧
      ((after filesAndCounters () 6).database.open "C").2 = "A" ∧
      gather Event.writtenEtags filesAndCounters { world := () } = [1, 2, 3] ∧
      (gather Event.writtenEtags filesAndCounters { world := () }).Pairwise (· < ·) ∧
      gather Event.identities filesAndCounters { world := () } = [⟨"A", 1⟩, ⟨"A", 2⟩, ⟨"A", 3⟩] ∧
      (gather Event.identities filesAndCounters { world := () }).Nodup := by
  obtain ⟨hturn, hopen, hetags, hids⟩ := kinds_stay_apart filesAndCounters ()
  have hwritten : gather Event.writtenEtags filesAndCounters { world := () } = [1, 2, 3] := by
    decide +kernel
  have hanswered : gather Event.identities filesAndCounters { world := () } =
      [⟨"A", 1⟩, ⟨"A", 2⟩, ⟨"A", 3⟩] := by
    decide +kernel
  exact ⟨(hturn 3 .counter 0 _ rfl).1 .file (by decide),
    (Option.some.inj (hopen 6 .file "C" rfl)).symm, hwritten, hetags (by rw [hwritten]; decide),
    hanswered, hids (by rw [hanswered]; decide)⟩

end Database

end ReplicaIntake
