import Mathlib.Data.Set.Function
import ReplicaIntake.ShadowKey

/-!
# The naming of shadows

A shadow key is a primary key, the segment and a discriminator put together as texts, and it is
taken apart at the last occurrence of the segment. Nothing escapes a slash, so the naming rests on
discriminators being single path segments:

- two discriminators under one primary key never name the same shadow (`make_inj_right`), and no
  shadow is its own primary key (`make_ne_primary`);
- taking a made key apart gives back what it was made of (`split_make`), and putting the parts of
  a shadow key together gives back the key (`make_of_split`);
- so shadow keys and pairs of a primary key and a discriminator correspond one to one
  (`names_correspond`).
-/

namespace ReplicaIntake.ShadowKey

/-- A text that can stand for the origin of a side: one path segment. -/
structure IsDiscriminator (d : String) : Prop where
  nonempty : d ≠ ""
  slashFree : '/' ∉ d.toList

/-! ## §1 Made keys -/

theorem toList_make (primary discriminator : String) :
    (make primary discriminator).toList =
      primary.toList ++ (segment.toList ++ discriminator.toList) := by
  simp only [make, String.toList_append, List.append_assoc]

/-- Under one primary key, different discriminators have different shadow keys. -/
theorem make_inj_right {primary d d' : String} :
    make primary d = make primary d' ↔ d = d' := by
  constructor
  · intro h
    have hlist : (make primary d).toList = (make primary d').toList := by rw [h]
    rw [toList_make, toList_make] at hlist
    have hd := List.append_cancel_left (List.append_cancel_left hlist)
    exact String.toList_inj.1 hd
  · rintro rfl
    rfl

/-- A shadow key is longer than its primary key. -/
theorem make_ne_primary (primary discriminator : String) :
    make primary discriminator ≠ primary := by
  intro h
  have hlength := congrArg (fun s : String => s.toList.length) h
  simp only [toList_make, List.length_append] at hlength
  have hsegment : segment.toList.length = 11 := by decide
  omega

/-! ## §2 The last occurrence of a mark -/

/-- The two parts around an occurrence and the mark make up the text. -/
theorem append_of_splitLast {mark : List Char} :
    ∀ {text before after : List Char}, splitLast mark text = some (before, after) →
      text = before ++ (mark ++ after)
  | [], before, after, h => by simp [splitLast] at h
  | c :: rest, before, after, h => by
    simp only [splitLast] at h
    cases hrest : splitLast mark rest with
    | some parts =>
      -- a later occurrence counts
      obtain ⟨b, a⟩ := parts
      rw [hrest] at h
      obtain ⟨rfl, rfl⟩ : c :: b = before ∧ a = after := by simpa using h
      rw [append_of_splitLast hrest, List.cons_append]
    | none =>
      -- the mark can only stand here
      rw [hrest] at h
      simp only at h
      split at h
      · rename_i hprefix
        obtain ⟨rfl, rfl⟩ : [] = before ∧ (c :: rest).drop mark.length = after := by simpa using h
        obtain ⟨tail, htail⟩ := List.isPrefixOf_iff_prefix.1 hprefix
        rw [← htail, List.drop_left, List.nil_append]
      · cases h

/-- A text with fewer slashes than the mark does not hold the mark. -/
theorem splitLast_eq_none_of_count_lt {mark : List Char} :
    ∀ {text : List Char}, text.count '/' < mark.count '/' → splitLast mark text = none
  | [], _ => rfl
  | c :: rest, h => by
    have hcount : rest.count '/' ≤ (c :: rest).count '/' := List.count_le_count_cons
    have hrest : splitLast mark rest = none :=
      splitLast_eq_none_of_count_lt (Nat.lt_of_le_of_lt hcount h)
    simp only [splitLast, hrest]
    rw [if_neg]
    -- a mark that starts here would bring all its slashes
    intro hprefix
    have hle := (List.isPrefixOf_iff_prefix.1 hprefix).sublist.count_le '/'
    omega

/-- What stands before an occurrence after which the mark does not come again is kept whole. -/
theorem splitLast_append {mark text after : List Char}
    (h : splitLast mark text = some ([], after)) :
    ∀ before : List Char, splitLast mark (before ++ text) = some (before, after)
  | [] => h
  | c :: before => by
    simp only [List.cons_append, splitLast, splitLast_append h before]

/-- After the segment and a slash-free text the segment does not come again: its second slash
would have to be in that text. -/
theorem splitLast_segment_append {d : List Char} (hd : '/' ∉ d) :
    splitLast segment.toList (segment.toList ++ d) = some ([], d) := by
  have hsegment : segment.toList = '/' :: "conflicts/".toList := by decide
  -- behind the first slash there is one slash left, and the segment has two
  have hnone : splitLast segment.toList ("conflicts/".toList ++ d) = none := by
    apply splitLast_eq_none_of_count_lt
    have hd0 : d.count '/' = 0 := List.count_eq_zero.2 hd
    have hinner : "conflicts/".toList.count '/' = 1 := by decide
    have hmark : segment.toList.count '/' = 2 := by decide
    rw [List.count_append, hd0, hinner, hmark]
    omega
  have hprefix : segment.toList.isPrefixOf (segment.toList ++ d) = true :=
    List.isPrefixOf_iff_prefix.2 (List.prefix_append _ _)
  have hdrop : (segment.toList ++ d).drop segment.toList.length = d := List.drop_left
  rw [hsegment, List.cons_append] at hprefix hdrop
  rw [hsegment] at hnone
  rw [hsegment, List.cons_append]
  simp only [splitLast, hnone, hprefix, hdrop, if_true]

/-! ## §3 Taking apart and putting together -/

/-- A made key is taken apart into what it was made of. -/
theorem split_make {primary d : String} (hprimary : primary ≠ "") (hd : IsDiscriminator d) :
    split (make primary d) = some (primary, d) := by
  have hlast : splitLast segment.toList (make primary d).toList =
      some (primary.toList, d.toList) := by
    rw [toList_make]
    exact splitLast_append (splitLast_segment_append hd.slashFree) primary.toList
  have hp : primary.toList.isEmpty = false := by simpa using hprimary
  have he : d.toList.isEmpty = false := by simpa using hd.nonempty
  have hs : d.toList.contains '/' = false := by simpa using hd.slashFree
  simp only [split, hlast, hp, he, hs, Bool.or_self, Bool.false_eq_true, if_false,
    String.ofList_toList]

/-- The parts of a shadow key make up the key, and they are a primary key and a discriminator. -/
theorem make_of_split {key primary d : String} (h : split key = some (primary, d)) :
    make primary d = key ∧ primary ≠ "" ∧ IsDiscriminator d := by
  simp only [split] at h
  cases hlast : splitLast segment.toList key.toList with
  | none => simp [hlast] at h
  | some parts =>
    obtain ⟨before, after⟩ := parts
    rw [hlast] at h
    simp only at h
    split at h
    · cases h
    · rename_i hparts
      obtain ⟨rfl, rfl⟩ : String.ofList before = primary ∧ String.ofList after = d := by
        simpa using h
      have hall : (before ≠ [] ∧ after ≠ []) ∧ '/' ∉ after := by simpa using hparts
      refine ⟨?_, by simpa using hall.1.1, by simpa using hall.1.2, by simpa using hall.2⟩
      apply String.toList_inj.1
      rw [toList_make, String.toList_ofList, String.toList_ofList]
      exact (append_of_splitLast hlast).symm

/-- No shadow key of one primary key is a shadow key of another. -/
theorem make_inj {primary primary' d d' : String} (hp : primary ≠ "") (hp' : primary' ≠ "")
    (hd : IsDiscriminator d) (hd' : IsDiscriminator d') :
    make primary d = make primary' d' ↔ primary = primary' ∧ d = d' := by
  constructor
  · intro h
    -- taking the key apart gives the parts of both sides
    have hsplit : split (make primary d) = split (make primary' d') := by rw [h]
    rw [split_make hp hd, split_make hp' hd'] at hsplit
    simpa using hsplit
  · rintro ⟨rfl, rfl⟩
    rfl

/-! ## §4 The correspondence -/

/-- A key is taken apart into the pair that makes it, and into no other. -/
theorem split_eq_some_iff {key primary d : String} :
    split key = some (primary, d) ↔
      primary ≠ "" ∧ IsDiscriminator d ∧ make primary d = key := by
  constructor
  · intro h
    obtain ⟨hmake, hprimary, hd⟩ := make_of_split h
    exact ⟨hprimary, hd, hmake⟩
  · rintro ⟨hprimary, hd, rfl⟩
    exact split_make hprimary hd

/-- Each shadow key is made of one pair. -/
theorem bijOn_make :
    Set.BijOn (fun parts : String × String => make parts.1 parts.2)
      {parts | parts.1 ≠ "" ∧ IsDiscriminator parts.2} {key | isShadow key = true} := by
  refine ⟨?_, ?_, ?_⟩
  · rintro ⟨primary, d⟩ ⟨hprimary, hd⟩
    exact Option.isSome_of_eq_some (split_make hprimary hd)
  · rintro ⟨primary, d⟩ ⟨hp, hd⟩ ⟨primary', d'⟩ ⟨hp', hd'⟩ hmake
    exact Prod.ext_iff.2 ((make_inj hp hp' hd hd').1 hmake)
  · -- a shadow key is made of its parts
    intro key hkey
    obtain ⟨⟨primary, d⟩, hsplit⟩ := Option.isSome_iff_exists.1 hkey
    obtain ⟨hprimary, hd, hmake⟩ := split_eq_some_iff.1 hsplit
    exact ⟨(primary, d), ⟨hprimary, hd⟩, hmake⟩

/-- A key is taken apart into a pair exactly if the pair can be put together and makes the key, and
each shadow key is made of exactly one such pair. The primary key may hold the segment itself, or end
with a part of it that the segment completes. -/
theorem names_correspond :
    (∀ key primary d : String,
      split key = some (primary, d) ↔
        primary ≠ "" ∧ IsDiscriminator d ∧ make primary d = key) ∧
    Set.BijOn (fun parts : String × String => make parts.1 parts.2)
      {parts | parts.1 ≠ "" ∧ IsDiscriminator parts.2} {key | isShadow key = true} :=
  ⟨fun _ _ _ => split_eq_some_iff, bijOn_make⟩

/-- Two occurrences of the segment share a slash, and the later one counts. -/
example : split "/conflicts/conflicts/x" = some ("/conflicts", "x") := by decide +kernel

end ReplicaIntake.ShadowKey
