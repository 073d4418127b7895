import ReplicaIntake.Wire
import ReplicaIntake.Proofs.CounterTotals
import ReplicaIntake.Proofs.Json.Texts

/-!
# Stored metadata and markers read back

A record of known fields is read by looking each field up under its name, so an object that has
exactly these fields, none twice, gives the values back in order (`fields?_ofMembers`). With that,
the JSON objects of metadata and of markers are read as what they were made of
(`Metadata.ofJson?_toJson`, `Marker.ofJson?_toJson`), and because they are plain, so are their
texts.
-/

namespace ReplicaIntake

namespace Json

variable {α : Type}

/-! ## §1 Lists and maps -/

theorem mapM_eq_some_map {β γ : Type} {read : β → Option γ} {f : β → γ} {l : List β}
    (h : ∀ b ∈ l, read b = some (f b)) : l.mapM read = some (l.map f) := by
  induction l with
  | nil => rfl
  | cons b rest ih =>
    obtain ⟨hb, hrest⟩ := List.forall_mem_cons.1 h
    simp [List.mapM_cons, hb, ih hrest]

theorem asList?_map {read : Json → Option α} {f : α → Json} (h : ∀ a, read (f a) = some a)
    (l : List α) : (Json.array (l.map f)).asList? read = some l := by
  rw [asList?, List.mapM_map]
  have hall := mapM_eq_some_map (f := id) fun a (_ : a ∈ l) => h a
  rwa [List.map_id] at hall

/-- Members are added one after the other to the map that those before them made. -/
theorem foldlM_addMember? {read : Json → Option α} {f : α → Json} (h : ∀ a, read (f a) = some a)
    (entries : List (String × α)) (m : KeyMap α) :
    (entries.map fun e => (some e.1, f e.2)).foldlM (addMember? read) m =
      some (entries.foldl (fun m e => m.insert e.1 e.2) m) := by
  induction entries generalizing m with
  | nil => rfl
  | cons e rest ih =>
    have hadd : addMember? read m (some e.1, f e.2) = some (m.insert e.1 e.2) := by
      simp only [addMember?, h]
    rw [List.map_cons, List.foldlM_cons, hadd]
    exact ih _

theorem asMap?_ofMap {read : Json → Option α} {f : α → Json} (h : ∀ a, read (f a) = some a)
    (m : KeyMap α) : (ofMap f m).asMap? read = some m := by
  rw [ofMap, ofMembers, asMap?, List.map_map]
  exact (foldlM_addMember? h m.entries .empty).trans (congrArg some m.ofList_entries)

theorem plain_ofMembers {members : List (String × Json)} (h : ∀ m ∈ members, m.2.Plain) :
    (ofMembers members).Plain := by
  refine .object (fun m hm => ?_) fun m hm => ?_
  · obtain ⟨_, -, rfl⟩ := List.mem_map.1 hm
    rfl
  · obtain ⟨member, hmember, rfl⟩ := List.mem_map.1 hm
    exact h member hmember

theorem plain_ofMap {f : α → Json} (h : ∀ a, (f a).Plain) (m : KeyMap α) : (ofMap f m).Plain := by
  refine plain_ofMembers fun m hm => ?_
  obtain ⟨e, -, rfl⟩ := List.mem_map.1 hm
  exact h e.2

theorem plain_map {f : α → Json} (h : ∀ a, (f a).Plain) (l : List α) :
    (Json.array (l.map f)).Plain := by
  refine .array fun j hj => ?_
  obtain ⟨a, -, rfl⟩ := List.mem_map.1 hj
  exact h a

/-! ## §2 Words, texts and values that may be missing -/

@[simp] theorem asText?_ofText (s : String) : asText? (ofText s) = some s := rfl

@[simp] theorem asWord?_ofWord (w : UInt64) : asWord? (ofWord w) = some w := by
  simp [asWord?, ofWord, ofNat, asNat?, if_pos w.toNat_lt]

theorem plain_ofWord (w : UInt64) : (ofWord w).Plain := .number false _

/-- A value that is not written as `null` can be told from one that is missing. -/
theorem asOption?_ofOption {read : Json → Option α} {f : α → Json} (h : ∀ a, read (f a) = some a)
    (hnull : ∀ a, f a ≠ .null) (o : Option α) : (ofOption f o).asOption? read = some o := by
  cases o with
  | none => rfl
  | some a => rw [ofOption, asOption?, h, Option.map_some]; exact hnull a

theorem plain_ofOption {f : α → Json} (h : ∀ a, (f a).Plain) (o : Option α) :
    (ofOption f o).Plain := by
  cases o with
  | none => exact .null
  | some a => exact h a

/-! ## §3 Records -/

/-- Of members with different names, one is found under its name. -/
theorem field?_of_mem {members : List (String × Json)} (hnames : (members.map (·.1)).Nodup)
    {m : String × Json} (hm : m ∈ members) :
    field? (members.map fun m => (some m.1, m.2)) m.1 = some (some m.2) := by
  have hfilter : (members.map fun m => (some m.1, m.2)).filter (fun e => e.1 == some m.1) =
      [(some m.1, m.2)] := by
    induction members with
    | nil => cases hm
    | cons first rest ih =>
      rw [List.map_cons, List.nodup_cons] at hnames
      obtain ⟨hfirst, hrest⟩ := hnames
      rcases List.mem_cons.1 hm with rfl | hmem
      · -- no later member has the name of the first
        have hnone : (rest.map fun m => (some m.1, m.2)).filter (fun e => e.1 == some m.1) = [] := by
          refine List.filter_eq_nil_iff.2 fun e he => ?_
          obtain ⟨other, hother, rfl⟩ := List.mem_map.1 he
          have hne : other.1 ≠ m.1 := fun h => hfirst (h ▸ List.mem_map_of_mem hother)
          simpa using hne
        rw [List.map_cons, List.filter_cons_of_pos (by simp), hnone]
      · have hne : first.1 ≠ m.1 := fun h => hfirst (h ▸ List.mem_map_of_mem hmem)
        rw [List.map_cons, List.filter_cons_of_neg (by simpa using hne)]
        exact ih hrest hmem
  rw [field?, hfilter]

/-- A record that is written with all its fields, none of them twice, gives back their values. -/
theorem fields?_ofMembers {members : List (String × Json)} (hnames : (members.map (·.1)).Nodup) :
    (ofMembers members).fields? (members.map (·.1)) = some (members.map fun m => some m.2) := by
  have htexts : ((members.map fun m => (some m.1, m.2)).all fun m => m.1.isSome) = true := by simp
  rw [ofMembers, fields?, if_pos htexts, List.mapM_map]
  exact mapM_eq_some_map fun m hm => field?_of_mem hnames hm

end Json

open Json

/-! ## §4 Identities and metadata -/

theorem WriteId.ofJson?_toJson (id : WriteId) : WriteId.ofJson? id.toJson = some id := by
  have hfields : id.toJson.fields? ["source", "version"] =
      some [some (.ofText id.source), some (.ofWord id.version)] :=
    fields?_ofMembers (by decide : ["source", "version"].Nodup)
  simp [WriteId.ofJson?, hfields, required?]

theorem WriteId.plain_toJson (id : WriteId) : id.toJson.Plain := by
  apply plain_ofMembers
  simp only [List.forall_mem_cons]
  exact ⟨.string _, plain_ofWord _, by simp⟩

namespace Metadata

/-- Metadata is read back from its object. -/
theorem ofJson?_toJson (m : Metadata) : ofJson? m.toJson = some m := by
  have hfields : m.toJson.fields? fieldNames = some _ :=
    fields?_ofMembers (by decide : fieldNames.Nodup)
  -- each field is read by the reader that belongs to the way it is written
  have hsource := asOption?_ofOption asText?_ofText nofun m.source
  have hversion := asOption?_ofOption asWord?_ofWord nofun m.version
  have hlineage : Lineage.ofJson? (Lineage.toJson m.lineage) = some m.lineage :=
    asList?_map WriteId.ofJson?_toJson m.lineage
  have hcollection := asOption?_ofOption asText?_ofText nofun m.collection
  have hextra := asMap?_ofMap asText?_ofText m.extra
  unfold ofJson?
  rw [hfields]
  simp [optional?, asBool?, hsource, hversion, hlineage, hcollection, hextra]

theorem plain_toJson (m : Metadata) : m.toJson.Plain := by
  have htext : ∀ s, (ofText s).Plain := .string
  apply plain_ofMembers
  simp only [List.forall_mem_cons]
  exact ⟨.bool _, plain_ofOption htext _, plain_ofOption plain_ofWord _,
    plain_map WriteId.plain_toJson _, .bool _, .bool _, .bool _, plain_ofOption htext _,
    plain_ofMap htext _, by simp⟩

/-- The text of metadata says that metadata. -/
theorem ofBytes?_write (m : Metadata) : (Json.ofBytes? m.toJson.write).bind ofJson? = some m := by
  rw [Json.ofBytes?_write m.plain_toJson, Option.bind_some, ofJson?_toJson]

end Metadata

/-! ## §5 Markers -/

namespace Marker

theorem ofJson?_toJson (m : Marker) : ofJson? m.toJson = some m := by
  have hfields : m.toJson.fields? ["conflicts"] = some [some (.ofTexts m.shadows)] :=
    fields?_ofMembers (by decide : ["conflicts"].Nodup)
  have hshadows : (ofTexts m.shadows).asList? asText? = some m.shadows :=
    asList?_map asText?_ofText m.shadows
  simp [ofJson?, hfields, required?, hshadows]

theorem plain_toJson (m : Marker) : m.toJson.Plain := by
  apply plain_ofMembers
  simp only [List.forall_mem_cons]
  exact ⟨plain_map .string _, by simp⟩

/-- The text of a marker says that marker. -/
theorem ofBytes?_write (m : Marker) : (Json.ofBytes? m.toJson.write).bind ofJson? = some m := by
  rw [Json.ofBytes?_write m.plain_toJson, Option.bind_some, ofJson?_toJson]

end Marker

end ReplicaIntake
