import TypedValues.Proofs.Trie.Equality
import TypedValues.Trie.Members

/-!
# Algebra of sets

Union, intersection and difference walk over one of two sets and change a copy of one of them; which set is
walked over and which is copied depends on their sizes. Where equal elements have equal hashes the outcome
does not: the result has the elements it should have and counts each of them once.
-/

namespace TypedValues

variable {α κ ν : Type}

/-! ### Lists that name each thing once -/

section Enumerations

variable [BEq α] {P Q : α → Prop} {xs ys : List α}

/-- Everything with the property equals just one member of the list, and nothing else equals any. -/
structure Enumerates (xs : List α) (P : α → Prop) : Prop where
  unrepeated : Unrepeated (· == ·) xs
  mem_iff : ∀ x, P x ↔ ∃ y ∈ xs, (y == x) = true

/-- Whether something is left behind a test that its equals pass as it does. -/
lemma any_filter {p : α → Bool} {x : α} (as : List α) (hp : ∀ a, (a == x) = true → p a = p x) :
    (as.filter p).any (· == x) = (as.any (· == x) && p x) := by
  induction as with
  | nil => rfl
  | cons a as ih =>
    rw [List.filter_cons, List.any_cons]
    cases hax : a == x with
    | true =>
      rw [Bool.true_or, Bool.true_and, ← hp a hax]
      split
      · next hpa => rw [List.any_cons, hax, Bool.true_or, hpa]
      · next hpa => rw [ih, ← hp a hax, Bool.eq_false_iff.mpr hpa, Bool.and_false]
    | false =>
      rw [Bool.false_or, ← ih]
      split
      · rw [List.any_cons, hax, Bool.false_or]
      · rfl

variable [EquivBEq α]

lemma Enumerates.covers (h : Enumerates ys P) (h' : Enumerates xs Q) (hPQ : ∀ x, Q x → P x) :
    Covers (· == ·) ys xs :=
  fun x hx => (h.mem_iff x).mp (hPQ x ((h'.mem_iff x).mpr ⟨x, hx, BEq.rfl⟩))

lemma Enumerates.length_le (h : Enumerates ys P) (h' : Enumerates xs Q) (hPQ : ∀ x, Q x → P x) :
    xs.length ≤ ys.length :=
  equivalenceOn_beq.length_le (fun _ _ => trivial) (fun _ _ => trivial) h'.unrepeated (h.covers h' hPQ)

/-- How many different things have a property does not depend on who counts them. -/
lemma Enumerates.length_eq (h : Enumerates xs P) (h' : Enumerates ys P) : xs.length = ys.length :=
  le_antisymm (h'.length_le h fun _ hx => hx) (h.length_le h' fun _ hx => hx)

end Enumerations

/-! ### Keys after an update -/

lemma Table.erase_eq_filter {same : κ → Bool} {t : Table κ ν}
    (h : t.Pairwise fun p q => same p.1 = true → same q.1 = false) :
    Table.erase same t = t.filter fun p => !same p.1 := by
  induction t with
  | nil => rfl
  | cons p t ih =>
    obtain ⟨hp, ht⟩ := List.pairwise_cons.mp h
    rw [Table.erase_cons]
    by_cases hsame : same p.1 = true
    · have hrest : t.filter (fun q => !same q.1) = t :=
        List.filter_eq_self.mpr fun q hq => by simp [hp q hq hsame]
      simp [hsame, hrest]
    · simp [hsame, ih ht]

namespace AssociationList

lemma containsKey_eq_any (a : AssociationList κ ν) (halike : a.keying.HashesAlike) (key : κ) :
    a.containsKey key = a.table.any fun p => a.keying.same p.1 key := by
  simp only [containsKey, binding?, Table.binding?, List.isSome_find?, halike.answers_eq]

namespace Orderly

variable [BEq ν] {a : AssociationList κ ν}

/-- At most one key of the list is the same as the one that is removed. -/
lemma table_removeKey (h : a.Orderly) (key : κ) :
    (a.removeKey key).table = a.table.filter fun p => !a.keying.same p.1 key := by
  have hanswers : a.keying.answers key = fun stored => a.keying.same stored key := by
    funext stored
    exact h.hashesAlike.answers_eq key stored
  have htable : (a.removeKey key).table = Table.erase (a.keying.answers key) a.table := rfl
  rw [htable, hanswers]
  refine Table.erase_eq_filter ((List.pairwise_map.mp h.unrepeated_keys).imp fun {p q} hpq hp => ?_)
  rw [Bool.eq_false_iff]
  intro hq
  have lawful := h.distinct.lawful
  rw [lawful.trans _ _ _ hp (lawful.symm _ _ hq)] at hpq
  cases hpq

lemma containsKey_removeKey (h : a.Orderly) (key asked : κ) :
    (a.removeKey key).containsKey asked = (a.containsKey asked && !a.keying.same key asked) := by
  rw [containsKey_eq_any (a.removeKey key) h.hashesAlike, a.containsKey_eq_any h.hashesAlike,
    h.table_removeKey, Bool.eq_iff_iff, Bool.and_eq_true, List.any_eq_true, List.any_eq_true]
  have hkey {p : κ × List ν} (hp : a.keying.same p.1 asked = true) :
      a.keying.same p.1 key = a.keying.same key asked := by
    rw [h.equivalenceOn.congr_left trivial trivial trivial hp, h.distinct.lawful.same_comm]
  constructor
  · rintro ⟨p, hp, hasked⟩
    obtain ⟨hp, hother⟩ := List.mem_filter.mp hp
    exact ⟨⟨p, hp, hasked⟩, by rwa [← hkey hasked]⟩
  · rintro ⟨⟨p, hp, hasked⟩, hother⟩
    exact ⟨p, List.mem_filter.mpr ⟨hp, by rwa [hkey hasked]⟩, hasked⟩

lemma containsKey_congr (h : a.Orderly) {key asked : κ} (hsame : a.keying.same key asked = true) :
    a.containsKey key = a.containsKey asked := by
  have hkey (p : κ × List ν) : a.keying.same p.1 key = a.keying.same p.1 asked := by
    rw [h.distinct.lawful.same_comm, h.equivalenceOn.congr_left trivial trivial trivial hsame,
      h.distinct.lawful.same_comm]
  simp only [a.containsKey_eq_any h.hashesAlike, hkey]

lemma containsKey_store (h : a.Orderly) (key asked : κ) (values : List ν) :
    (a.store key values).containsKey asked = (a.containsKey asked || a.keying.same key asked) := by
  have hperm := Table.put_perm (a.keying.answers key) key values a.table
  have hrest := h.containsKey_removeKey key asked
  rw [containsKey_eq_any (a.store key values) h.hashesAlike, store, hperm.any_eq, List.any_cons]
  rw [containsKey_eq_any (a.removeKey key) h.hashesAlike] at hrest
  have hrest : (Table.erase (a.keying.answers key) a.table).any (fun p => a.keying.same p.1 asked) =
      (a.containsKey asked && !a.keying.same key asked) := hrest
  rw [hrest]
  cases a.keying.same key asked <;> simp

lemma containsKey_insert (h : a.Orderly) (key asked : κ) (value : ν) :
    (a.insert key value).containsKey asked = (a.containsKey asked || a.keying.same key asked) := by
  unfold insert
  split
  · next hcontains =>
    have hkey : a.containsKey key = true := by
      by_contra habsent
      rw [contains, a.get_eq_nil_of_not_containsKey key (by simpa using habsent)] at hcontains
      cases hcontains
    cases hsame : a.keying.same key asked with
    | false => rw [Bool.or_false]
    | true => rw [← h.containsKey_congr hsame, hkey, Bool.or_true]
  · exact h.containsKey_store key asked _

end Orderly
end AssociationList

/-! ### Sets and their elements -/

namespace TrieSet

lemma union_eq (s t : TrieSet α) :
    s.union t = if t.size ≤ s.size then s.insertAll t.toList else t.insertAll s.toList := by
  unfold union bySize
  by_cases h : t.size ≤ s.size <;> simp [h]

lemma inter_eq (s t : TrieSet α) : s.inter t =
    if t.size ≤ s.size then t.eraseAll (t.toList.filter fun a => !s.contains a)
    else s.eraseAll (s.toList.filter fun a => !t.contains a) := by
  unfold inter bySize
  by_cases h : t.size ≤ s.size <;> simp [h]

/-- The elements in the order of the trie are those in the order in which they were added, rearranged. -/
lemma toList_perm {s : TrieSet α} {l : AssociationList α Unit} (h : Represents s.members l) :
    s.toList.Perm l.keys := by
  have hkeys : s.toList = s.members.grouped.map (·.1) := by
    rw [toList, Multimap.keys, Multimap.grouped, List.map_map]
    rfl
  rw [hkeys]
  exact h.grouped_perm.map _

end TrieSet

section Sets

variable [BEq α]

/-- A multimap that has been built goes on being built. -/
lemma Multimap.Built.update [BEq κ] [BEq ν] {m : Multimap κ ν} (h : m.Built) {u : Update κ ν}
    (hu : u.HashesAlike) : (m.update u).Built := by
  obtain ⟨hash, updates, halike, hupdates, rfl⟩ := h
  refine ⟨hash, updates ++ [u], halike, ?_, ?_⟩
  · exact List.forall_mem_append.mpr ⟨hupdates, List.forall_mem_singleton.mpr hu⟩
  · rw [run, run, List.foldl_append, List.foldl_cons, List.foldl_nil]

namespace TrieSet

/-- The sets that operations make of empty ones. Every empty set brings a hash of its own, under which equal
elements have one hash. -/
inductive Built : TrieSet α → Prop
  | empty {hash : α → UInt64} (alike : (Keying.byEquality hash).HashesAlike) :
    Built (.empty (.byEquality hash))
  | insert {s : TrieSet α} (a : α) : Built s → Built (s.insert a)
  | erase {s : TrieSet α} (a : α) : Built s → Built (s.erase a)
  | union {s t : TrieSet α} : Built s → Built t → Built (s.union t)
  | inter {s t : TrieSet α} : Built s → Built t → Built (s.inter t)
  | diff {s t : TrieSet α} : Built s → Built t → Built (s.diff t)

variable {s t : TrieSet α} {P : α → Prop}

lemma members_insert_built (h : s.members.Built) (a : α) : (s.insert a).members.Built :=
  h.update (u := .insert a ()) trivial

lemma members_erase_built (h : s.members.Built) (a : α) : (s.erase a).members.Built :=
  h.update (u := .removeKey a) trivial

lemma members_insertAll_built (h : s.members.Built) (as : List α) : (s.insertAll as).members.Built :=
  List.foldlRecOn (motive := fun s : TrieSet α => s.members.Built) as _ h
    fun _ hs a _ => members_insert_built hs a

lemma members_eraseAll_built (h : s.members.Built) (as : List α) : (s.eraseAll as).members.Built :=
  List.foldlRecOn (motive := fun s : TrieSet α => s.members.Built) as _ h
    fun _ hs a _ => members_erase_built hs a

/-- Each operation on sets is a run of updates of a multimap. -/
lemma Built.members_built (h : s.Built) : s.members.Built := by
  induction h with
  | empty alike => exact ⟨_, [], alike, by simp, rfl⟩
  | insert a _ ih => exact members_insert_built ih a
  | erase a _ ih => exact members_erase_built ih a
  | union _ _ ihs iht =>
    rw [union_eq]
    split
    · exact members_insertAll_built ihs _
    · exact members_insertAll_built iht _
  | inter _ _ ihs iht =>
    rw [inter_eq]
    split
    · exact members_eraseAll_built iht _
    · exact members_eraseAll_built ihs _
  | diff _ _ ihs _ =>
    unfold TrieSet.diff
    split <;> exact members_eraseAll_built ihs _

variable [EquivBEq α]

lemma contains_insert (h : s.members.Built) (a x : α) :
    (s.insert a).contains x = (s.contains x || a == x) := by
  obtain ⟨l, hl, horderly, hsame⟩ := h.represents
  rw [contains, insert, (hl.insert a ()).containsKey_eq, horderly.containsKey_insert, contains,
    hl.containsKey_eq, hsame]

lemma contains_erase (h : s.members.Built) (a x : α) :
    (s.erase a).contains x = (s.contains x && !(a == x)) := by
  obtain ⟨l, hl, horderly, hsame⟩ := h.represents
  rw [contains, erase, (hl.removeKey a).containsKey_eq, horderly.containsKey_removeKey, contains,
    hl.containsKey_eq, hsame]

lemma contains_insertAll (h : s.members.Built) (as : List α) (x : α) :
    (s.insertAll as).contains x = (s.contains x || as.any (· == x)) := by
  induction as generalizing s with
  | nil => rw [List.any_nil, Bool.or_false]; rfl
  | cons a as ih =>
    have hcons : s.insertAll (a :: as) = (s.insert a).insertAll as := rfl
    rw [hcons, ih (members_insert_built h a), contains_insert h, List.any_cons, Bool.or_assoc]

lemma contains_eraseAll (h : s.members.Built) (as : List α) (x : α) :
    (s.eraseAll as).contains x = (s.contains x && !as.any (· == x)) := by
  induction as generalizing s with
  | nil => rw [List.any_nil, Bool.not_false, Bool.and_true]; rfl
  | cons a as ih =>
    have hcons : s.eraseAll (a :: as) = (s.erase a).eraseAll as := rfl
    rw [hcons, ih (members_erase_built h a), contains_erase h, List.any_cons, Bool.not_or, Bool.and_assoc]

lemma contains_iff_mem (h : s.members.Built) (x : α) :
    s.contains x = true ↔ ∃ y ∈ s.toList, (y == x) = true := by
  obtain ⟨l, hl, horderly, hsame⟩ := h.represents
  rw [contains, hl.containsKey_eq, horderly.containsKey_iff, hsame]
  simp only [(toList_perm hl).mem_iff]

lemma contains_eq_any (h : s.members.Built) (x : α) : s.contains x = s.toList.any (· == x) := by
  rw [Bool.eq_iff_iff, contains_iff_mem h, List.any_eq_true]

/-- The walk over a set meets each of its elements once. -/
lemma enumerates_toList (h : s.members.Built) : Enumerates s.toList fun x => s.contains x = true where
  unrepeated := by
    obtain ⟨l, hl, horderly, hsame⟩ := h.represents
    have hkeys := horderly.unrepeated_keys
    rw [hsame] at hkeys
    have hsymm {x y : α} (hxy : (x == y) = false) : (y == x) = false := by rw [BEq.comm, hxy]
    exact ((toList_perm hl).pairwise_iff hsymm).mpr hkeys
  mem_iff := contains_iff_mem h

lemma size_eq_length (h : s.members.Built) : s.size = s.toList.length := by
  obtain ⟨l, hl, -, -⟩ := h.represents
  rw [size, hl.keyCount_eq, (toList_perm hl).length_eq, AssociationList.keys, List.length_map]

lemma contains_congr (h : s.members.Built) {x y : α} (hxy : (x == y) = true) :
    s.contains x = s.contains y := by
  rw [contains_eq_any h, contains_eq_any h]
  congr 1
  funext z
  exact BEq.congr_right hxy

/-- What a set contains, what a walk over it meets and how many elements it counts are all as the property of
its elements has it. -/
structure Comprises (s : TrieSet α) (P : α → Prop) : Prop where
  contains_iff : ∀ x, s.contains x = true ↔ P x
  enumerates : Enumerates s.toList P
  size_eq : ∀ xs, Enumerates xs P → s.size = xs.length

lemma comprises (h : s.members.Built) (hP : ∀ x, s.contains x = true ↔ P x) : s.Comprises P := by
  obtain rfl : (fun x => s.contains x = true) = P := funext fun x => propext (hP x)
  refine ⟨hP, enumerates_toList h, fun xs hxs => ?_⟩
  rw [size_eq_length h, (enumerates_toList h).length_eq hxs]

/-! ### Operations on two sets -/

section Operations

variable (hs : s.members.Built) (ht : t.members.Built)
include hs ht

lemma contains_union (x : α) : (s.union t).contains x = (s.contains x || t.contains x) := by
  rw [union_eq]
  split
  · rw [contains_insertAll hs, ← contains_eq_any ht]
  · rw [contains_insertAll ht, ← contains_eq_any hs, Bool.or_comm]

/-- Taking away what the other set lacks leaves what both have. -/
lemma contains_eraseAll_lacking (x : α) :
    (s.eraseAll (s.toList.filter fun a => !t.contains a)).contains x = (s.contains x && t.contains x) := by
  rw [contains_eraseAll hs, any_filter _ fun a hax => by rw [contains_congr ht hax], ← contains_eq_any hs]
  cases s.contains x <;> simp

lemma contains_inter (x : α) : (s.inter t).contains x = (s.contains x && t.contains x) := by
  rw [inter_eq]
  split
  · rw [contains_eraseAll_lacking ht hs, Bool.and_comm]
  · exact contains_eraseAll_lacking hs ht x

/-- What the other set has can be looked for in either of the two. -/
lemma contains_diff (x : α) : (s.diff t).contains x = (s.contains x && !t.contains x) := by
  unfold diff
  split
  · rw [contains_eraseAll hs, any_filter _ fun a hax => contains_congr ht hax, ← contains_eq_any hs]
    cases s.contains x <;> simp
  · rw [contains_eraseAll hs, ← contains_eq_any ht]

/-- A subset is no larger, so that a larger set need not be walked over. -/
lemma isSubset_iff : s.isSubset t = true ↔ ∀ x, s.contains x = true → t.contains x = true := by
  rw [isSubset, Bool.and_eq_true, decide_eq_true_iff, List.all_eq_true]
  constructor
  · rintro ⟨-, hall⟩ x hx
    obtain ⟨y, hy, hyx⟩ := (contains_iff_mem hs x).mp hx
    rw [← contains_congr ht hyx]
    exact hall y hy
  · intro hsub
    refine ⟨?_, fun y hy => hsub y ((contains_iff_mem hs y).mpr ⟨y, hy, BEq.rfl⟩)⟩
    rw [size_eq_length hs, size_eq_length ht]
    exact (enumerates_toList ht).length_le (enumerates_toList hs) hsub

end Operations

end TrieSet

variable [EquivBEq α]

/-- The operations on two sets are those of the algebra of sets, whichever of the two sets they walk over and
whichever they change: each result contains what it should, and counts each of its elements once. -/
theorem set_algebra {s t : TrieSet α} (hs : s.Built) (ht : t.Built) :
    (s.union t).Comprises (fun x => s.contains x = true ∨ t.contains x = true) ∧
    (s.inter t).Comprises (fun x => s.contains x = true ∧ t.contains x = true) ∧
    (s.diff t).Comprises (fun x => s.contains x = true ∧ t.contains x = false) ∧
    (s.isSubset t = true ↔ ∀ x, s.contains x = true → t.contains x = true) := by
  have hs' := hs.members_built
  have ht' := ht.members_built
  refine ⟨?union, ?inter, ?diff, TrieSet.isSubset_iff hs' ht'⟩
  case union =>
    refine TrieSet.comprises (hs.union ht).members_built fun x => ?_
    rw [TrieSet.contains_union hs' ht', Bool.or_eq_true]
  case inter =>
    refine TrieSet.comprises (hs.inter ht).members_built fun x => ?_
    rw [TrieSet.contains_inter hs' ht', Bool.and_eq_true]
  case diff =>
    refine TrieSet.comprises (hs.diff ht).members_built fun x => ?_
    rw [TrieSet.contains_diff hs' ht', Bool.and_eq_true, Bool.not_eq_true']

/-- Elements that all collide in the one set and have hashes of their own in the other, larger one. -/
theorem set_algebra_collisions :
    let s : TrieSet Nat := (((TrieSet.empty (.byEquality fun _ => 7)).insert 1).insert 2).insert 3 |>.erase 3
    let t : TrieSet Nat := (((TrieSet.empty (.byEquality Nat.toUInt64)).insert 5).insert 2).insert 4
    s.Built ∧ t.Built ∧ (s.union t).size = 4 ∧ (s.inter t).contains 2 = true ∧
      (s.diff t).contains 1 = true ∧ s.isSubset t = false := by
  intro s t
  have hs : s.Built := .erase 3 (.insert 3 (.insert 2 (.insert 1 (.empty fun _ _ _ => rfl))))
  have ht : t.Built := .insert 4 (.insert 2 (.insert 5 (.empty fun a b h => by rw [eq_of_beq h])))
  have hslist : s.toList = [1, 2] := by decide +kernel
  have htlist : t.toList = [2, 4, 5] := by decide +kernel
  obtain ⟨hunion, hinter, hdiff, hsubset⟩ := set_algebra hs ht
  have hcount : Enumerates [1, 2, 4, 5] fun x => s.contains x = true ∨ t.contains x = true := by
    refine ⟨by unfold Unrepeated; decide, fun x => ?_⟩
    rw [TrieSet.contains_eq_any hs.members_built, TrieSet.contains_eq_any ht.members_built, hslist, htlist]
    simp
    omega
  refine ⟨hs, ht, hunion.size_eq _ hcount, (hinter.contains_iff 2).mpr ?_,
    (hdiff.contains_iff 1).mpr ?_, ?_⟩
  · decide +kernel
  · decide +kernel
  · rw [Bool.eq_false_iff, Ne, hsubset]
    intro hall
    have h1 : t.contains 1 = true := hall 1 (by decide +kernel)
    exact absurd h1 (by decide +kernel)

end Sets
end TypedValues
