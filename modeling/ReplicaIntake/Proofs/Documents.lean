import ReplicaIntake.Document
import ReplicaIntake.Proofs.CounterTotals
import ReplicaIntake.Proofs.Json.Texts

/-!
# Documents read back

A document is `Plain` when its numbers are 64-bit integers, signed or unsigned, and the keys of its
maps ascend, as those of a map do. A plain document is read back from its stored form, provided that
it is not nested deeper than a stored document may be (`decode?_encode`): deeper ones are stored and
refused when they are read.
-/

namespace ReplicaIntake

theorem KeyMap.entries_foldl_insert {α : Type} (l : List (String × α)) (m : KeyMap α) :
    (l.foldl (fun m e => m.insert e.1 e.2) m).entries =
      l.foldl (fun entries e => insertEntry e.1 e.2 entries) m.entries := by
  induction l generalizing m with
  | nil => rfl
  | cons e rest ih => exact ih _

/-- Inserting ascending entries one by one makes the same list again. -/
theorem foldl_insertEntry {α : Type} {l : List (String × α)} (h : Ascending l) :
    l.foldl (fun entries e => insertEntry e.1 e.2 entries) [] = l := by
  have hmap := congrArg KeyMap.entries (KeyMap.ofList_entries ⟨l, h⟩)
  rwa [KeyMap.ofList, KeyMap.entries_foldl_insert] at hmap

namespace Document

/-- All numbers are 64-bit integers, and the keys of every map ascend. -/
inductive Plain : Document → Prop
  | null : Plain .null
  | bool (b : Bool) : Plain (.bool b)
  | integer {n : Int} (hlow : -Decimal.signedLimit ≤ n) (hhigh : n < UInt64.size) : Plain (.integer n)
  | text (s : String) : Plain (.text s)
  | list {items : List Document} (hitems : ∀ d ∈ items, Plain d) : Plain (.list items)
  | map {members : List (String × Document)} (hkeys : Ascending members)
    (hvalues : ∀ m ∈ members, Plain m.2) : Plain (.map members)

/-! ## §1 Parts -/

theorem toItems_eq (items : List Document) : toItems items = items.map toJson := by
  induction items with
  | nil => rfl
  | cons d rest ih => rw [toItems, ih, List.map_cons]

theorem toMembers_eq (members : List (String × Document)) :
    toMembers members = members.map fun m => (some m.1, toJson m.2) := by
  induction members with
  | nil => rfl
  | cons m rest ih => rw [toMembers, ih, List.map_cons]

theorem ofItems?_toItems {items : List Document} (h : ∀ d ∈ items, ofJson? d.toJson = some d) :
    ofItems? (toItems items) = some items := by
  induction items with
  | nil => rfl
  | cons d rest ih =>
    obtain ⟨hd, hrest⟩ := List.forall_mem_cons.1 h
    simp only [toItems, ofItems?, hd, ih hrest]

/-- Members are inserted one by one into those already read. -/
theorem ofMembers?_toMembers {members : List (String × Document)}
    (h : ∀ m ∈ members, ofJson? m.2.toJson = some m.2) (read : List (String × Document)) :
    ofMembers? read (toMembers members) =
      some (members.foldl (fun entries m => insertEntry m.1 m.2 entries) read) := by
  induction members generalizing read with
  | nil => rfl
  | cons m rest ih =>
    obtain ⟨hm, hrest⟩ := List.forall_mem_cons.1 h
    simp only [toMembers, ofMembers?, hm, ih hrest, List.foldl_cons]

theorem ofJson?_ofInt {n : Int} (hlow : -Decimal.signedLimit ≤ n) (hhigh : n < UInt64.size) :
    ofJson? (Json.ofInt n) = some (.integer n) := by
  have hsign : (if decide (n < 0) = true then -(n.natAbs : Int) else n.natAbs) = n := by
    split
    · rename_i h; have := of_decide_eq_true h; omega
    · rename_i h; have := of_decide_eq_false (Bool.of_not_eq_true h); omega
  -- the only integer that is written with a sign and as zero would be minus zero
  have hzero : ¬ (decide (n < 0) = true ∧ n.natAbs = 0) := by
    rintro ⟨hneg, habs⟩
    have := of_decide_eq_true hneg
    omega
  have hinteger : integerOf? ⟨n < 0, n.natAbs, [], none⟩ = some n := by
    unfold integerOf?
    simp only [hsign]
    exact if_pos ⟨rfl, hlow, hhigh, hzero⟩
  rw [Json.ofInt, ofJson?, ofNumeral?, hinteger]

/-! ## §2 Whole documents -/

theorem Plain.ofJson?_toJson {d : Document} (h : d.Plain) : ofJson? d.toJson = some d := by
  induction h with
  | null => rfl
  | bool b => rfl
  | integer hlow hhigh => exact ofJson?_ofInt hlow hhigh
  | text s => rfl
  | list _ ih => rw [toJson, ofJson?, ofItems?_toItems ih, Option.map_some]
  -- inserting the members again makes the same map, because their keys ascend
  | map hkeys _ ih =>
    rw [toJson, ofJson?, ofMembers?_toMembers ih, foldl_insertEntry hkeys, Option.map_some]

theorem Plain.toJson {d : Document} (h : d.Plain) : d.toJson.Plain := by
  induction h with
  | null => exact .null
  | bool b => exact .bool b
  | integer => exact .number _ _
  | text s => exact .string s
  | list _ ih =>
    rw [Document.toJson, toItems_eq]
    refine .array fun j hj => ?_
    obtain ⟨d, hd, rfl⟩ := List.mem_map.1 hj
    exact ih d hd
  | map _ _ ih =>
    rw [Document.toJson, toMembers_eq]
    refine .object (fun m hm => ?_) fun m hm => ?_
    · obtain ⟨_, -, rfl⟩ := List.mem_map.1 hm
      rfl
    · obtain ⟨member, hmember, rfl⟩ := List.mem_map.1 hm
      exact ih member hmember

/-- A document that can be stored and read: plain, and not nested too deeply. -/
structure Storable (d : Document) : Prop where
  plain : d.Plain
  depth : d.toJson.depth ≤ maxDepth

/-- A storable document is what its stored form says. -/
theorem decode?_encode {d : Document} (h : d.Storable) : decode? d.encode = some d := by
  rw [decode?, encode, Json.ofBytes?_write h.plain.toJson]
  exact (if_pos h.depth).trans h.plain.ofJson?_toJson

end Document

end ReplicaIntake
