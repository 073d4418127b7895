import ReplicaIntake.Policy
import ReplicaIntake.Proofs.Ancestry

/-!
# What a lineage lists

Which entries are left after lineages are united and bounded (`mem_bound_withNewest`), and after
they are merged: all that are newer, and of the others the newest as far as there is room
(`merge_eq`). United lineages have no repetitions (`nodup_union`).

What the lineage of a decision of a policy lists: what the winner listed, what the loser listed, and
the loser itself (`mem_lineage_descendFromBoth`). A loser without identity and lineage adds nothing,
and then the lineage lists exactly what the winner's did (`mem_settled_of_blank`).
-/

namespace ReplicaIntake

namespace Lineage

variable {e : WriteId} {max : Nat}

/-! ## §1 Entries -/

@[simp] theorem mem_distinct {l : Lineage} : e ∈ distinct l ↔ e ∈ l := by
  induction l with
  | nil => simp [distinct]
  | cons head rest ih =>
    simp only [distinct, List.mem_cons, List.mem_filter, ih, decide_eq_true_eq]
    -- the head is taken out of the rest, where it is listed anyway
    by_cases he : e = head <;> simp [he]

@[simp] theorem mem_union {newer older : Lineage} :
    e ∈ union newer older ↔ e ∈ newer ∨ e ∈ older := by
  simp only [union, List.mem_append, mem_distinct, List.mem_filter, decide_eq_true_eq]
  by_cases he : e ∈ newer <;> simp [he]

@[simp] theorem mem_withNewest {l : Lineage} {ids : List WriteId} :
    e ∈ withNewest l ids ↔ e ∈ l ∨ e ∈ ids := by
  simp only [withNewest, List.mem_append, List.mem_filter, decide_eq_true_eq]
  by_cases he : e ∈ ids <;> simp [he]

theorem covers_of_mem {l : Lineage} (h : e ∈ l) : l.covers e = true := by
  rw [covers, List.any_eq_true]
  exact ⟨e, h, by simp⟩

/-- A lineage that lists only earlier versions of a node does not cover the version. -/
theorem uncovered_of_earlier {l : Lineage} {id : WriteId}
    (h : ∀ e ∈ l, e.source = id.source → e.version < id.version) : l.covers id = false := by
  rw [Bool.eq_false_iff, Ne, covers, List.any_eq_true]
  rintro ⟨e, hlisted, hlater⟩
  have hlater : e.source = id.source ∧ id.version ≤ e.version := by simpa using hlater
  exact UInt64.not_lt.2 hlater.2 (h e hlisted hlater.1)

theorem covers_congr {l l' : Lineage} (h : ∀ e, e ∈ l ↔ e ∈ l') : l.covers e = l'.covers e := by
  rw [Bool.eq_iff_iff, covers, covers, List.any_eq_true, List.any_eq_true]
  simp only [h]

@[simp] theorem covers_append (l l' : Lineage) (e : WriteId) :
    (l ++ l').covers e = (l.covers e || l'.covers e) := List.any_append

theorem covers_distinct (l : Lineage) (e : WriteId) : (distinct l).covers e = l.covers e :=
  covers_congr fun _ => mem_distinct

/-- An entry that occurs for the first time at the end stays at the end. -/
theorem distinct_concat {l : Lineage} (h : e ∉ l) : distinct (l ++ [e]) = distinct l ++ [e] := by
  induction l with
  | nil => rfl
  | cons head rest ih =>
    have hne : e ≠ head := List.ne_of_not_mem_cons h
    rw [List.cons_append, distinct, ih (List.not_mem_of_not_mem_cons h), distinct]
    simp [hne]

/-- An entry that occurs before is left out at the end. -/
theorem distinct_concat_of_mem {l : Lineage} (h : e ∈ l) : distinct (l ++ [e]) = distinct l := by
  induction l with
  | nil => cases h
  | cons head rest ih =>
    rw [List.cons_append, distinct, distinct]
    by_cases hrest : e ∈ rest
    · rw [ih hrest]
    · -- then it is the head, which is taken out of all that follows
      obtain rfl : e = head := (List.mem_cons.1 h).resolve_right hrest
      rw [distinct_concat hrest]
      simp

/-! ## §2 Repetitions -/

theorem nodup_distinct (l : Lineage) : (distinct l).Nodup := by
  induction l with
  | nil => exact List.nodup_nil
  | cons head rest ih =>
    rw [distinct, List.nodup_cons]
    exact ⟨by simp, ih.filter _⟩

theorem nodup_union (newer older : Lineage) : (union newer older).Nodup := by
  rw [union, List.nodup_append]
  refine ⟨nodup_distinct _, nodup_distinct _, ?_⟩
  -- what only the older lineage knows is not in the newer one
  rintro e hold _ hnew rfl
  have hunknown := (List.mem_filter.1 (mem_distinct.1 hold)).2
  exact of_decide_eq_true hunknown (mem_distinct.1 hnew)

/-- The newest entries are taken out before they are appended. -/
theorem nodup_withNewest {l : Lineage} {ids : List WriteId} (h : l.Nodup) (hids : ids.Nodup) :
    (withNewest l ids).Nodup := by
  rw [withNewest, List.nodup_append]
  refine ⟨h.filter _, hids, ?_⟩
  rintro e hold _ hnew rfl
  exact of_decide_eq_true (List.mem_filter.1 hold).2 hnew

theorem nodup_bound {l : Lineage} (h : l.Nodup) (max : Nat) : (l.bound max).Nodup :=
  h.sublist (List.drop_sublist _ l)

/-! ## §3 Lengths -/

theorem length_bound_le (l : Lineage) (max : Nat) : (l.bound max).length ≤ max := by
  simp only [bound, List.length_drop]
  omega

theorem bound_of_length_le {l : Lineage} (h : l.length ≤ max) : l.bound max = l := by
  have hnone : l.length - max = 0 := by omega
  simp [bound, hnone]

theorem length_distinct_le (l : Lineage) : (distinct l).length ≤ l.length := by
  induction l with
  | nil => simp [distinct]
  | cons head rest ih =>
    have hfilter := List.length_filter_le (· ≠ head) (distinct rest)
    simp only [distinct, List.length_cons]
    omega

/-! ## §4 What bounding keeps -/

/-- The newest entries are kept as a whole if there is room for them, and before them what fits. -/
theorem bound_append (l : Lineage) {l' : Lineage} (h : l'.length ≤ max) :
    (l ++ l').bound max = l.bound (max - l'.length) ++ l' := by
  have hdrop : (l ++ l').length - max = l.length - (max - l'.length) := by
    rw [List.length_append]
    omega
  rw [bound, bound, hdrop, List.drop_append_of_le_length (Nat.sub_le _ _)]

/-- Nothing is kept before entries that fill the bound. -/
theorem bound_append_of_le (l : Lineage) {l' : Lineage} (h : max ≤ l'.length) :
    (l ++ l').bound max = l'.bound max := by
  have hdrop : (l ++ l').length - max = l.length + (l'.length - max) := by
    rw [List.length_append]
    omega
  rw [bound, bound, hdrop, List.drop_length_add_append]

/-- Appending an entry keeps it, and what fits before it. -/
theorem append_eq (l : Lineage) (e : WriteId) (hmax : 0 < max) :
    l.append e max = l.bound (max - 1) ++ [e] :=
  bound_append l hmax

theorem mem_append_self (l : Lineage) (hmax : 0 < max) : e ∈ l.append e max := by
  rw [append_eq l e hmax]
  exact List.mem_append_right _ List.mem_cons_self

theorem bound_bound (l : Lineage) {first second : Nat} (h : second ≤ first) :
    (l.bound first).bound second = l.bound second := by
  simp only [bound, List.drop_drop, List.length_drop]
  congr 1
  omega

/-- The newest entries are kept as long as there is room for them. -/
theorem mem_bound_withNewest (l : Lineage) {ids : List WriteId} (he : e ∈ ids)
    (hroom : ids.length ≤ max) : e ∈ (withNewest l ids).bound max := by
  rw [withNewest, bound_append _ hroom]
  exact List.mem_append_right _ he

/-- A lineage that lists all of an older one and fits the bound gains and loses nothing. -/
theorem mem_merge_of_subset {newer older : Lineage} (hroom : newer.length ≤ max)
    (hsubset : ∀ e ∈ older, e ∈ newer) : e ∈ merge newer older max ↔ e ∈ newer := by
  have hnew : older.filter (· ∉ newer) = [] := by
    simpa [List.filter_eq_nil_iff] using hsubset
  have hunion : union newer older = distinct newer := by
    rw [union, hnew, distinct, List.nil_append]
  have hlength := length_distinct_le newer
  rw [merge, bound_of_length_le hroom, hunion, bound_of_length_le (by omega), mem_distinct]

/-! ## §5 What a merge keeps -/

section Merge

variable {newest older : Lineage}

/-- What a merge keeps of the entries that only the older lineage knows: the newest of them, as far
as there is room beside the newer ones. -/
def kept (newest older : Lineage) (max : Nat) : Lineage :=
  (distinct (older.filter (· ∉ newest))).bound (max - (distinct newest).length)

theorem merge_eq (newer older : Lineage) (max : Nat) :
    merge newer older max =
      kept (newer.bound max) older max ++ distinct (newer.bound max) := by
  have hroom : (distinct (newer.bound max)).length ≤ max :=
    Nat.le_trans (length_distinct_le _) (length_bound_le newer max)
  rw [merge, union, bound_append _ hroom, kept]

theorem filter_concat_of_not_mem (h : e ∉ newest) :
    (older ++ [e]).filter (· ∉ newest) = older.filter (· ∉ newest) ++ [e] := by
  simp [h]

/-- An entry that is listed, but not before the last place, stands at the last place. -/
theorem dropLast_concat_of_mem {l : Lineage} (h : e ∈ l) (hlast : e ∉ l.dropLast) :
    l.dropLast ++ [e] = l := by
  rcases List.eq_nil_or_concat l with rfl | ⟨front, last, rfl⟩
  · cases h
  · simp only [List.concat_eq_append, List.dropLast_concat, List.mem_append,
      List.mem_singleton] at h hlast ⊢
    rw [h.resolve_left hlast]

theorem kept_of_full (h : (distinct newest).length = max) : kept newest older max = [] := by
  simp [kept, bound, h]

/-- If there is any room, the last of the older entries is kept, unless it is one of the newer ones.
The older lineage may list it before, but as its last entry only. -/
theorem last_mem_kept (hroom : (distinct newest).length < max) (hnew : e ∉ newest)
    (hlast : e ∉ older.dropLast) : e ∈ kept newest (older ++ [e]) max := by
  -- an entry that the lineage has not listed before comes last among those to be kept
  have hfirst : ∀ l : Lineage, e ∉ l → e ∈ kept newest (l ++ [e]) max := by
    intro l hl
    have hunlisted : e ∉ l.filter (· ∉ newest) := fun hlisted => hl (List.mem_filter.1 hlisted).1
    have hone : [e].length ≤ max - (distinct newest).length := by
      rw [List.length_singleton]
      omega
    rw [kept, filter_concat_of_not_mem hnew, distinct_concat hunlisted, bound_append _ hone]
    exact List.mem_append_right _ List.mem_cons_self
  by_cases holder : e ∈ older
  · -- the last entry once more adds nothing
    have hwhole : older.dropLast ++ [e] = older := dropLast_concat_of_mem holder hlast
    have hlisted : e ∈ older.filter (· ∉ newest) := List.mem_filter.2 ⟨holder, by simpa using hnew⟩
    have hkept := hfirst older.dropLast hlast
    rw [hwhole] at hkept
    rw [kept, filter_concat_of_not_mem hnew, distinct_concat_of_mem hlisted]
    exact hkept
  · exact hfirst older holder

end Merge

end Lineage

namespace Metadata

variable {e : WriteId} {winner loser : Metadata}

/-! ## §6 Decisions -/

@[simp] theorem identity_descendFromBoth (winner loser : Metadata) :
    (winner.descendFromBoth loser).identity = winner.identity := rfl

@[simp] theorem identity_settled (metadata : Metadata) (max : Nat) :
    (metadata.settled max).identity = metadata.identity := rfl

theorem mem_lineage_descendFromBoth :
    e ∈ (winner.descendFromBoth loser).lineage ↔
      e ∈ winner.lineage ∨ e ∈ loser.lineage ∨ loser.identity = some e := by
  simp only [descendFromBoth]
  cases loser.identity with
  | none => simp
  | some id => simp [or_assoc, eq_comm]

/-- A decision lists nothing twice, whatever the two writes listed. -/
theorem nodup_lineage_descendFromBoth (winner loser : Metadata) :
    (winner.descendFromBoth loser).lineage.Nodup := by
  simp only [descendFromBoth]
  cases loser.identity with
  | none => exact Lineage.nodup_union _ _
  | some id => exact Lineage.nodup_withNewest (Lineage.nodup_union _ _) (List.pairwise_singleton _ id)

/-- Bounding a decision may drop entries, but adds none. -/
theorem mem_of_mem_settled {max : Nat}
    (h : e ∈ ((winner.descendFromBoth loser).settled max).lineage) :
    e ∈ winner.lineage ∨ e ∈ loser.lineage ∨ loser.identity = some e :=
  mem_lineage_descendFromBoth.1 (mem_of_mem_bound h)

/-- However short the bound, a decision lists the loser. -/
theorem loser_mem_settled {max : Nat} (hroom : 0 < max) (hid : loser.identity = some e) :
    e ∈ ((winner.descendFromBoth loser).settled max).lineage := by
  simp only [settled, descendFromBoth, hid]
  exact Lineage.mem_bound_withNewest _ List.mem_cons_self hroom

/-- A bounded lineage that meets nothing new is settled without a loss. -/
theorem mem_settled_of_blank {max : Nat} (hidentity : loser.identity = none)
    (hlineage : loser.lineage = []) (hbounded : winner.lineage.length ≤ max) :
    e ∈ ((winner.descendFromBoth loser).settled max).lineage ↔ e ∈ winner.lineage := by
  have hunited : (winner.descendFromBoth loser).lineage = Lineage.distinct winner.lineage := by
    simp [descendFromBoth, hidentity, hlineage, Lineage.union, Lineage.distinct]
  have hlength := Lineage.length_distinct_le winner.lineage
  -- without repetitions the lineage is not longer, so the bound drops nothing
  have hsettled : ((winner.descendFromBoth loser).settled max).lineage =
      Lineage.distinct winner.lineage := by
    simp only [settled, hunited]
    exact Lineage.bound_of_length_le (by omega)
  rw [hsettled, Lineage.mem_distinct]

/-- A local write lists what was there and what that listed. -/
theorem mem_of_mem_stamp {previous : Metadata} {localId : String} {version : UInt64} {max : Nat}
    (h : e ∈ (stamp (some previous) localId version max).lineage) :
    e ∈ previous.lineage ∨ previous.identity = some e := by
  simp only [stamp] at h
  cases hid : previous.identity with
  | none =>
    simp only [hid] at h
    exact .inl (mem_of_mem_bound h)
  | some id =>
    simp only [hid] at h
    rcases List.mem_append.1 (mem_of_mem_bound h) with h | h
    · exact .inl h
    · exact .inr (congrArg some (List.mem_singleton.1 h).symm)

end Metadata

end ReplicaIntake
