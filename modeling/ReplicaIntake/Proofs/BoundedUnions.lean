import Mathlib.Data.Finset.Card
import ReplicaIntake.Proofs.Lineages

/-!
# Merged lineages as bounded unions

Two lineages are merged by two passes that leave out what has been met, one over the older lineage
and one over the newest entries of the newer one (`union_eq_unseen`). A pass keeps the order in which
entries occur for the first time (`pairwise_unseen`), so the united entries have an order by age:
those that only the older lineage lists come before the others (`Before`, `pairwise_union`).

Bounding the union drops entries in this order and only as long as there are too many
(`isBoundedUnion_merge`). That leaves no choice: a merge is the one lineage of which this holds
(`IsBoundedUnion.unique`).
-/

namespace ReplicaIntake.Lineage

variable {newest older : Lineage} {a b e : WriteId} {max : Nat}

/-! ## §1 Passes that remember -/

/-- The entries that are not among `seen`, by one pass that adds to it what it meets. -/
def unseen (seen : List WriteId) : Lineage → Lineage
  | [] => []
  | e :: rest => if e ∈ seen then unseen seen rest else e :: unseen (e :: seen) rest

theorem distinct_filter (p : WriteId → Bool) (l : Lineage) :
    distinct (l.filter p) = (distinct l).filter p := by
  induction l with
  | nil => rfl
  | cons head rest ih =>
    by_cases hhead : p head = true
    · rw [List.filter_cons_of_pos hhead, distinct, ih, distinct, List.filter_cons_of_pos hhead,
        List.filter_filter, List.filter_filter]
      simp only [Bool.and_comm]
    · rw [List.filter_cons_of_neg hhead, ih, distinct, List.filter_cons_of_neg hhead,
        List.filter_filter]
      -- the head is left out already by the filter
      refine List.filter_congr fun e _ => ?_
      by_cases he : e = head <;> simp [he, hhead]

theorem distinct_of_nodup {l : Lineage} (h : l.Nodup) : distinct l = l := by
  induction l with
  | nil => rfl
  | cons head rest ih =>
    obtain ⟨hhead, hrest⟩ := List.nodup_cons.1 h
    rw [distinct, ih hrest, List.filter_eq_self.2]
    intro e he
    simpa using ne_of_mem_of_not_mem he hhead

theorem unseen_eq (seen : List WriteId) (l : Lineage) :
    unseen seen l = distinct (l.filter (· ∉ seen)) := by
  induction l generalizing seen with
  | nil => rfl
  | cons head rest ih =>
    by_cases hhead : head ∈ seen
    · rw [unseen, if_pos hhead, ih, List.filter_cons_of_neg (by simpa using hhead)]
    · rw [unseen, if_neg hhead, ih, List.filter_cons_of_pos (by simpa using hhead), distinct,
        ← distinct_filter, List.filter_filter]
      simp only [List.mem_cons, not_or, Bool.decide_and]

/-- What only `older` knows and the entries of `newest` are what two passes find, the first of which
has seen `newest`. -/
theorem union_eq_unseen (newest older : Lineage) :
    union newest older = unseen newest older ++ unseen [] newest := by
  simp [union, unseen_eq]

@[simp] theorem mem_unseen {seen : List WriteId} {l : Lineage} :
    e ∈ unseen seen l ↔ e ∈ l ∧ e ∉ seen := by
  simp [unseen_eq]

/-- A pass finds the entries in the order in which they occur for the first time. -/
theorem pairwise_unseen (seen : List WriteId) (l : Lineage) :
    (unseen seen l).Pairwise fun a b => l.idxOf a < l.idxOf b := by
  induction l generalizing seen with
  | nil => exact .nil
  | cons head rest ih =>
    -- what the pass finds behind the head differs from it, so it occurs one place later
    have hshift : ∀ seen', head ∈ seen' → (unseen seen' rest).Pairwise fun a b =>
        (head :: rest).idxOf a < (head :: rest).idxOf b := by
      intro seen' hseen
      refine (ih seen').imp_of_mem fun {a b} ha hb hlt => ?_
      have hne : ∀ e ∈ unseen seen' rest, head ≠ e := by
        rintro _ he rfl
        exact (mem_unseen.1 he).2 hseen
      rw [List.idxOf_cons_ne _ (hne a ha), List.idxOf_cons_ne _ (hne b hb)]
      exact Nat.succ_lt_succ hlt
    by_cases hhead : head ∈ seen
    · rw [unseen, if_pos hhead]
      exact hshift seen hhead
    · rw [unseen, if_neg hhead, List.pairwise_cons]
      refine ⟨fun e he => ?_, hshift _ List.mem_cons_self⟩
      have hne : head ≠ e := (List.ne_of_not_mem_cons (mem_unseen.1 he).2).symm
      rw [List.idxOf_cons_self, List.idxOf_cons_ne _ hne]
      exact Nat.succ_pos _

/-! ## §2 The order of united entries -/

/-- One entry of two lineages comes before another in their union. What counts is where an entry
occurs first in the lineage it is taken from. -/
inductive Before (newest older : Lineage) : WriteId → WriteId → Prop
  /-- What only the older lineage lists comes before all that the newest entries list. -/
  | across {a b : WriteId} (ha : a ∈ older) (hunlisted : a ∉ newest) (hb : b ∈ newest) :
      Before newest older a b
  /-- Entries that only the older lineage lists keep their order. -/
  | older {a b : WriteId} (ha : a ∈ older) (hunlisted : a ∉ newest) (hb : b ∈ older)
      (hunlisted' : b ∉ newest) (h : older.idxOf a < older.idxOf b) : Before newest older a b
  /-- The newest entries keep their order. -/
  | newest {a b : WriteId} (ha : a ∈ newest) (hb : b ∈ newest)
      (h : newest.idxOf a < newest.idxOf b) : Before newest older a b

theorem Before.mem_right (h : Before newest older a b) : b ∈ newest ∨ b ∈ older := by
  cases h with
  | across _ _ hb => exact .inl hb
  | older _ _ hb => exact .inr hb
  | newest _ hb => exact .inl hb

theorem Before.asymm (hab : Before newest older a b) : ¬ Before newest older b a := by
  intro hba
  cases hab with
  | across _ hunlisted hb =>
    cases hba with
    | across _ hunlisted' => exact hunlisted' hb
    | older _ hunlisted' => exact hunlisted' hb
    | newest _ ha => exact hunlisted ha
  | older _ hunlisted _ hunlisted' h =>
    cases hba with
    | across _ _ ha => exact hunlisted ha
    | older _ _ _ _ h' => exact Nat.lt_asymm h h'
    | newest hb => exact hunlisted' hb
  | newest ha hb h =>
    cases hba with
    | across _ hunlisted' => exact hunlisted' hb
    | older _ hunlisted' => exact hunlisted' hb
    | newest _ _ h' => exact Nat.lt_asymm h h'

/-- Of two different entries one comes before the other. -/
theorem before_or_before (ha : a ∈ newest ∨ a ∈ older) (hb : b ∈ newest ∨ b ∈ older) (hne : a ≠ b) :
    Before newest older a b ∨ Before newest older b a := by
  by_cases ha' : a ∈ newest <;> by_cases hb' : b ∈ newest
  · -- both are found by the second pass
    have hplace : newest.idxOf a ≠ newest.idxOf b := fun h => hne ((List.idxOf_inj ha').1 h)
    exact (Nat.lt_or_gt_of_ne hplace).imp (.newest ha' hb') (.newest hb' ha')
  · exact .inr (.across (hb.resolve_left hb') hb' ha')
  · exact .inl (.across (ha.resolve_left ha') ha' hb')
  · -- both are found by the first pass
    have ha := ha.resolve_left ha'
    have hb := hb.resolve_left hb'
    have hplace : older.idxOf a ≠ older.idxOf b := fun h => hne ((List.idxOf_inj ha).1 h)
    exact (Nat.lt_or_gt_of_ne hplace).imp (.older ha ha' hb hb') (.older hb hb' ha ha')

theorem pairwise_union (newest older : Lineage) :
    (union newest older).Pairwise (Before newest older) := by
  rw [union_eq_unseen, List.pairwise_append]
  refine ⟨?_, ?_, ?_⟩
  · refine (pairwise_unseen newest older).imp_of_mem fun ha hb hlt => ?_
    have ha := mem_unseen.1 ha
    have hb := mem_unseen.1 hb
    exact .older ha.1 ha.2 hb.1 hb.2 hlt
  · exact (pairwise_unseen [] newest).imp_of_mem fun ha hb hlt =>
      .newest (mem_unseen.1 ha).1 (mem_unseen.1 hb).1 hlt
  · intro a ha b hb
    have ha := mem_unseen.1 ha
    exact .across ha.1 ha.2 (mem_unseen.1 hb).1

/-! ## §3 Bounded unions -/

/-- The lineage `merged` has the entries of both lineages, each once and in their order, as far as
`max` goes: what is too much has been dropped from the front, and nothing of `newest`. -/
structure IsBoundedUnion (newest older : Lineage) (max : Nat) (merged : Lineage) : Prop where
  nodup : merged.Nodup
  length_le : merged.length ≤ max
  listed : ∀ e ∈ merged, e ∈ newest ∨ e ∈ older
  newest_mem : ∀ e ∈ newest, e ∈ merged
  ordered : merged.Pairwise (Before newest older)
  /-- If an entry is missing, all that come before it are missing too. -/
  oldest_dropped : ∀ a b, Before newest older a b → b ∉ merged → a ∉ merged
  /-- If there are at most `max` entries, none is missing. -/
  kept_of_room : (newest.toFinset ∪ older.toFinset).card ≤ max →
    ∀ e, e ∈ newest ∨ e ∈ older → e ∈ merged
  /-- If there are more, the bound is used up. -/
  full : max < (newest.toFinset ∪ older.toFinset).card → merged.length = max

namespace IsBoundedUnion

variable {l l' : Lineage}

theorem subset (h : IsBoundedUnion newest older max l) (h' : IsBoundedUnion newest older max l') :
    l ⊆ l' := by
  intro a ha
  by_contra hmissing
  have hlisted := h.listed a ha
  have hmany : max < (newest.toFinset ∪ older.toFinset).card := by
    by_contra hroom
    exact hmissing (h'.kept_of_room (Nat.not_lt.1 hroom) a hlisted)
  -- all that the other one holds comes after the entry that it misses
  have hsubset : l' ⊆ l := by
    intro b hb
    have hne : b ≠ a := ne_of_mem_of_not_mem hb hmissing
    rcases before_or_before (h'.listed b hb) hlisted hne with hba | hab
    · exact absurd hb (h'.oldest_dropped b a hba hmissing)
    · by_contra hmissing'
      exact h.oldest_dropped a b hab hmissing' ha
  -- so it is shorter, although there are entries enough to fill it
  have hlonger : (a :: l').length ≤ l.length :=
    (List.subperm_of_subset (List.nodup_cons.2 ⟨hmissing, h'.nodup⟩)
      (List.cons_subset.2 ⟨ha, hsubset⟩)).length_le
  rw [List.length_cons, h'.full hmany] at hlonger
  exact Nat.not_succ_le_self max (Nat.le_trans hlonger h.length_le)

theorem unique (h : IsBoundedUnion newest older max l) (h' : IsBoundedUnion newest older max l') :
    l = l' := by
  have hperm : l.Perm l' := (List.perm_ext_iff_of_nodup h.nodup h'.nodup).2 fun _ =>
    ⟨fun he => h.subset h' he, fun he => h'.subset h he⟩
  exact List.Perm.eq_of_pairwise (fun _ _ _ _ hab hba => absurd hba hab.asymm) h.ordered h'.ordered
    hperm

end IsBoundedUnion

/-! ## §4 Merges -/

theorem merge_suffix_union (newer older : Lineage) (max : Nat) :
    merge newer older max <:+ union (newer.bound max) older :=
  List.drop_suffix _ _

theorem length_union (newest older : Lineage) :
    (union newest older).length = (newest.toFinset ∪ older.toFinset).card := by
  have hentries : (union newest older).toFinset = newest.toFinset ∪ older.toFinset := by
    ext e
    simp
  rw [← hentries, List.toFinset_card_of_nodup (nodup_union newest older)]

/-- The entries that bounding drops come before all that it keeps. -/
theorem mem_merge_of_before {newer : Lineage} (hab : Before (newer.bound max) older a b)
    (ha : a ∈ merge newer older max) : b ∈ merge newer older max := by
  obtain ⟨dropped, hunion⟩ := merge_suffix_union newer older max
  have hordered := pairwise_union (newer.bound max) older
  have hb : b ∈ union (newer.bound max) older := mem_union.2 hab.mem_right
  rw [← hunion] at hordered hb
  rcases List.mem_append.1 hb with hdropped | hkept
  · have hba := (List.pairwise_append.1 hordered).2.2 b hdropped a ha
    exact absurd hba hab.asymm
  · exact hkept

theorem isBoundedUnion_merge (newer older : Lineage) (max : Nat) :
    IsBoundedUnion (newer.bound max) older max (merge newer older max) where
  nodup := nodup_bound (nodup_union _ _) max
  length_le := length_bound_le _ max
  listed e he := mem_union.1 ((merge_suffix_union newer older max).mem he)
  newest_mem e he := by
    rw [merge_eq]
    exact List.mem_append_right _ (mem_distinct.2 he)
  ordered := (pairwise_union _ _).sublist (merge_suffix_union newer older max).sublist
  oldest_dropped a b hab hb ha := hb (mem_merge_of_before hab ha)
  kept_of_room hroom e he := by
    rw [← length_union] at hroom
    rw [merge, bound_of_length_le hroom]
    exact mem_union.2 he
  full hmany := by
    rw [← length_union] at hmany
    rw [merge, bound, List.length_drop]
    omega

/-- A lineage brings nothing to itself: either its newest entries fill the bound, or they are all. -/
theorem merge_self {l : Lineage} (h : l.Nodup) (max : Nat) : merge l l max = l.bound max := by
  have hdistinct : distinct (l.bound max) = l.bound max := distinct_of_nodup (nodup_bound h max)
  have hkept : kept (l.bound max) l max = [] := by
    rcases Nat.le_total max l.length with hlong | hshort
    · have hfull : (distinct (l.bound max)).length = max := by
        rw [hdistinct, bound, List.length_drop]
        omega
      exact kept_of_full hfull
    · rw [bound_of_length_le hshort, kept, List.filter_eq_nil_iff.2 (by simp)]
      simp [distinct, bound]
  rw [merge_eq, hkept, hdistinct, List.nil_append]

/-- A merge is the bounded union of the newest `max` entries of the newer lineage with the older
lineage, and no other lineage is. Either lineage may repeat entries. A lineage without repetitions
that is merged with itself is only bounded. -/
theorem merge_unites_in_order (newer older : Lineage) (max : Nat) :
    (∀ merged, merge newer older max = merged ↔
      IsBoundedUnion (newer.bound max) older max merged) ∧
    ∀ l : Lineage, l.Nodup → merge l l max = l.bound max := by
  refine ⟨fun merged => ⟨?_, fun h => ?_⟩, fun l h => merge_self h max⟩
  · rintro rfl
    exact isBoundedUnion_merge newer older max
  · exact (isBoundedUnion_merge newer older max).unique h

/-- The newest four entries repeat one, and the older lineage repeats one and shares another. Of the
five different entries the oldest is dropped, and `a` stands behind `b`, since it occurs before `b`
only where the newest four do not reach. -/
theorem repeated_entries_united :
    let newer : Lineage := [⟨"a", 1⟩, ⟨"b", 1⟩, ⟨"a", 1⟩, ⟨"b", 1⟩, ⟨"c", 1⟩]
    let older : Lineage := [⟨"d", 1⟩, ⟨"a", 1⟩, ⟨"e", 1⟩, ⟨"d", 1⟩]
    let single : Lineage := [⟨"a", 1⟩, ⟨"b", 1⟩, ⟨"c", 1⟩, ⟨"d", 1⟩, ⟨"e", 1⟩]
    IsBoundedUnion (newer.bound 4) older 4 [⟨"e", 1⟩, ⟨"b", 1⟩, ⟨"a", 1⟩, ⟨"c", 1⟩] ∧
      single.Nodup ∧ merge single single 4 = [⟨"b", 1⟩, ⟨"c", 1⟩, ⟨"d", 1⟩, ⟨"e", 1⟩] := by
  intro newer older single
  have hmerge : merge newer older 4 = [⟨"e", 1⟩, ⟨"b", 1⟩, ⟨"a", 1⟩, ⟨"c", 1⟩] := by decide
  have hsingle : single.Nodup := by decide
  obtain ⟨hunion, hself⟩ := merge_unites_in_order newer older 4
  exact ⟨(hunion _).1 hmerge, hsingle, hself single hsingle⟩

end ReplicaIntake.Lineage
