/-!
# Finite maps with string keys

`KeyMap α` is a finite map from strings to `α`, held as its entries in strictly ascending key
order. The order is that of code points, which is also the order of the UTF-8 bytes, so listing
the entries lists the keys bytewise.

Because the order is part of the type, a map has one representation only: two maps that answer
every look-up alike are equal (`KeyMap.ext_find?`). The other main statements say what a look-up
sees after an insertion (`find?_insert`) and after a removal (`find?_erase`).
-/

namespace ReplicaIntake

/-! ## §1 Entry lists -/

/-- Insertion into a list of entries in ascending key order. An entry with the same key is
replaced. -/
def insertEntry {α : Type} (k : String) (v : α) : List (String × α) → List (String × α)
  | [] => [(k, v)]
  | (k', v') :: rest =>
    if k < k' then (k, v) :: (k', v') :: rest
    else if k = k' then (k, v) :: rest
    else (k', v') :: insertEntry k v rest

theorem mem_insertEntry {α : Type} {k : String} {v : α} {e : String × α} :
    ∀ {l : List (String × α)}, e ∈ insertEntry k v l → e = (k, v) ∨ e ∈ l
  | [], h => by simpa [insertEntry] using h
  | (k', v') :: rest, h => by
    simp only [insertEntry] at h
    split at h
    · simpa using h
    · split at h
      · rcases List.mem_cons.1 h with rfl | h
        · exact .inl rfl
        · exact .inr (List.mem_cons_of_mem _ h)
      · rcases List.mem_cons.1 h with rfl | h
        · exact .inr List.mem_cons_self
        · exact (mem_insertEntry h).imp_right (List.mem_cons_of_mem _)

/-- Entries are in strictly ascending key order. -/
abbrev Ascending {α : Type} (l : List (String × α)) : Prop :=
  l.Pairwise fun a b => a.1 < b.1

theorem ascending_insertEntry {α : Type} (k : String) (v : α) :
    ∀ {l : List (String × α)}, Ascending l → Ascending (insertEntry k v l)
  | [], _ => by simp [insertEntry, Ascending]
  | (k', v') :: rest, h => by
    simp only [insertEntry]
    have hrest := (List.pairwise_cons.1 h).2
    have hhead := (List.pairwise_cons.1 h).1
    split
    · -- the new key comes before all others
      rename_i hlt
      refine List.pairwise_cons.2 ⟨fun e he => ?_, h⟩
      rcases List.mem_cons.1 he with rfl | he
      · exact hlt
      · exact String.lt_trans hlt (hhead e he)
    · split
      · -- the new entry replaces the head
        rename_i _ heq
        subst heq
        exact List.pairwise_cons.2 ⟨hhead, hrest⟩
      · -- the new key belongs into the rest
        rename_i hnlt hne
        refine List.pairwise_cons.2 ⟨fun e he => ?_, ascending_insertEntry k v hrest⟩
        rcases mem_insertEntry he with rfl | he
        · exact Std.lt_of_le_of_ne (String.not_lt.1 hnlt) (Ne.symm hne)
        · exact hhead e he

theorem lookup_cons_ite {α : Type} (q k : String) (v : α) (rest : List (String × α)) :
    ((k, v) :: rest).lookup q = if q = k then some v else rest.lookup q := by
  by_cases h : q = k
  · subst h; simp
  · simp [List.lookup_cons, h, beq_eq_false_iff_ne.2 h]

theorem lookup_insertEntry {α : Type} (k : String) (v : α) (q : String) :
    ∀ (l : List (String × α)),
      (insertEntry k v l).lookup q = if q = k then some v else l.lookup q
  | [] => by simp [insertEntry, lookup_cons_ite]
  | (k', v') :: rest => by
    have ih := lookup_insertEntry k v q rest
    simp only [insertEntry]
    split
    · simp only [lookup_cons_ite]
    · split
      · rename_i _ h; subst h; simp only [lookup_cons_ite]; split <;> rfl
      · rename_i _ h
        simp only [lookup_cons_ite, ih]
        by_cases hq : q = k'
        · subst hq; simp [Ne.symm h]
        · simp [hq]

/-! ## §2 Maps -/

/-- A finite map from strings to `α`: its entries, in strictly ascending key order. -/
structure KeyMap (α : Type) where
  entries : List (String × α)
  /-- Each key comes once, and the keys ascend. -/
  ascending : Ascending entries
  deriving DecidableEq

namespace KeyMap

variable {α : Type}

/-- The map without entries. -/
def empty : KeyMap α := ⟨[], List.Pairwise.nil⟩

instance : Inhabited (KeyMap α) := ⟨empty⟩

/-- The value under `k`, if there is one. -/
def find? (m : KeyMap α) (k : String) : Option α := m.entries.lookup k

/-- Whether `k` has a value. -/
def contains (m : KeyMap α) (k : String) : Bool := (m.find? k).isSome

/-- The map in which `k` has the value `v`, whatever it had before. -/
def insert (m : KeyMap α) (k : String) (v : α) : KeyMap α :=
  ⟨insertEntry k v m.entries, ascending_insertEntry k v m.ascending⟩

/-- The map in which `k` has no value. -/
def erase (m : KeyMap α) (k : String) : KeyMap α :=
  ⟨m.entries.filter fun e => e.1 ≠ k, m.ascending.filter _⟩

/-- The keys in ascending order. -/
def keys (m : KeyMap α) : List String := m.entries.map (·.1)

/-- The values, in the order of their keys. -/
def values (m : KeyMap α) : List α := m.entries.map (·.2)

/-- Number of entries. -/
def size (m : KeyMap α) : Nat := m.entries.length

/-- Whether the map has no entry. -/
def isEmpty (m : KeyMap α) : Bool := m.entries.isEmpty

/-- The map of a list of entries. Of two entries with one key the later counts. -/
def ofList (l : List (String × α)) : KeyMap α :=
  l.foldl (fun m e => m.insert e.1 e.2) empty

/-- Folds the entries of `b` into `a`: each key of `b` gets `f` of its value in `a`, if any, and
its value in `b`. -/
def mergeWith (f : Option α → α → α) (a b : KeyMap α) : KeyMap α :=
  b.entries.foldl (fun m e => m.insert e.1 (f (m.find? e.1) e.2)) a

/-! ## §3 What a look-up sees -/

@[simp] theorem find?_empty (k : String) : (empty : KeyMap α).find? k = none := rfl

/-- After an insertion the inserted key has the new value and every other key its old one. -/
theorem find?_insert (m : KeyMap α) (k : String) (v : α) (q : String) :
    (m.insert k v).find? q = if q = k then some v else m.find? q :=
  lookup_insertEntry k v q m.entries

@[simp] theorem find?_insert_self (m : KeyMap α) (k : String) (v : α) :
    (m.insert k v).find? k = some v := by simp [find?_insert]

theorem find?_insert_of_ne (m : KeyMap α) {k q : String} (v : α) (h : q ≠ k) :
    (m.insert k v).find? q = m.find? q := by simp [find?_insert, h]

theorem lookup_filter_ne (k q : String) :
    ∀ l : List (String × α),
      (l.filter fun e => e.1 ≠ k).lookup q = if q = k then none else l.lookup q
  | [] => by simp
  | (k', v') :: rest => by
    have ih := lookup_filter_ne k q rest
    by_cases hk : k' = k
    · subst hk
      simp only [ne_eq, not_true_eq_false, decide_false, Bool.false_eq_true, not_false_eq_true,
        List.filter_cons_of_neg, lookup_cons_ite, ih]
      split <;> rfl
    · rw [List.filter_cons_of_pos (by simpa using hk), lookup_cons_ite, lookup_cons_ite, ih]
      by_cases hq : q = k'
      · subst hq; simp [hk]
      · simp [hq]

/-- After a removal the removed key has no value and every other key its old one. -/
theorem find?_erase (m : KeyMap α) (k q : String) :
    (m.erase k).find? q = if q = k then none else m.find? q :=
  lookup_filter_ne k q m.entries

theorem lookup_eq_none_of_lt {k : String} :
    ∀ {l : List (String × α)}, (∀ e ∈ l, k < e.1) → l.lookup k = none
  | [], _ => rfl
  | (k', v') :: rest, h => by
    have hne : k ≠ k' := by
      rintro rfl
      exact String.lt_irrefl _ (h _ List.mem_cons_self)
    rw [lookup_cons_ite, if_neg hne]
    exact lookup_eq_none_of_lt fun e he => h e (List.mem_cons_of_mem _ he)

/-- Two heads of ascending lists that answer every look-up alike have the same key. -/
theorem not_lt_of_lookup_eq {k k' : String} {v v' : α} {l l' : List (String × α)}
    (hl' : Ascending ((k', v') :: l'))
    (h : ∀ q, ((k, v) :: l).lookup q = ((k', v') :: l').lookup q) : ¬ k < k' := by
  intro hlt
  have hnone : ((k', v') :: l').lookup k = none := by
    refine lookup_eq_none_of_lt fun e he => ?_
    rcases List.mem_cons.1 he with rfl | he
    · exact hlt
    · exact String.lt_trans hlt ((List.pairwise_cons.1 hl').1 e he)
  have := h k
  rw [hnone, lookup_cons_ite, if_pos rfl] at this
  cases this

theorem eq_of_lookup_eq : ∀ {l l' : List (String × α)}, Ascending l → Ascending l' →
    (∀ q, l.lookup q = l'.lookup q) → l = l'
  | [], [], _, _, _ => rfl
  | [], (k, v) :: l', _, _, h => by
    have := h k
    simp at this
  | (k, v) :: l, [], _, _, h => by
    have := h k
    simp at this
  | (k, v) :: l, (k', v') :: l', hl, hl', h => by
    have hk : k = k' := by
      have h₁ := not_lt_of_lookup_eq hl' h
      have h₂ := not_lt_of_lookup_eq hl fun q => (h q).symm
      exact String.le_antisymm (String.not_lt.1 h₂) (String.not_lt.1 h₁)
    subst hk
    have hv : v = v' := by simpa using h k
    subst hv
    refine congrArg _ (eq_of_lookup_eq (List.pairwise_cons.1 hl).2 (List.pairwise_cons.1 hl').2
      fun q => ?_)
    by_cases hq : q = k
    · -- neither rest knows the key of the head
      subst hq
      rw [lookup_eq_none_of_lt (List.pairwise_cons.1 hl).1,
        lookup_eq_none_of_lt (List.pairwise_cons.1 hl').1]
    · have := h q
      rwa [lookup_cons_ite, lookup_cons_ite, if_neg hq, if_neg hq] at this

/-- Maps that answer every look-up alike are equal. -/
theorem ext_find? {a b : KeyMap α} (h : ∀ k, a.find? k = b.find? k) : a = b := by
  cases a with
  | mk entries ascending =>
    cases b with
    | mk entries' ascending' =>
      have := eq_of_lookup_eq ascending ascending' h
      subst this
      rfl

end KeyMap

end ReplicaIntake
