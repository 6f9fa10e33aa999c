import TypedValues.Proofs.Classes
import TypedValues.Proofs.Trie.Order

/-!
# Equality of multimaps

Equality counts associations and keys and looks the values of each key of the one up in the other. Where
equal keys have equal hashes this decides whether two multimaps hold the same associations. Neither the
order in which they were built nor the hashes matter.
-/

namespace TypedValues

variable {κ ν : Type}

lemma equivalenceOn_beq [BEq ν] [EquivBEq ν] : EquivalenceOn (fun _ : ν => True) (· == ·) where
  refl _ := BEq.rfl
  symm _ _ h := BEq.symm h
  trans _ _ _ h h' := BEq.trans h h'

lemma Keying.Lawful.equivalenceOn {k : Keying κ} (h : k.Lawful) :
    EquivalenceOn (fun _ => True) k.same where
  refl _ := h.refl _
  symm _ _ hab := h.symm _ _ hab
  trans _ _ _ hab hbc := h.trans _ _ _ hab hbc

section Values

variable [BEq ν] {vs ws : List ν}

/-- Both lists have the same values, whatever their order. -/
def SameValues (vs ws : List ν) : Prop := ∀ v, vs.any (· == v) = ws.any (· == v)

lemma covers_iff_any : Covers (· == ·) vs ws ↔ ∀ w ∈ ws, vs.any (· == w) = true := by
  simp only [Covers, List.any_eq_true]

variable [EquivBEq ν]

lemma sameValues_iff : SameValues vs ws ↔ Covers (· == ·) vs ws ∧ Covers (· == ·) ws vs := by
  have hcov {us zs : List ν} (h : Covers (· == ·) us zs) {v : ν} (hv : zs.any (· == v) = true) :
      us.any (· == v) = true := by
    obtain ⟨z, hz, hzv⟩ := List.any_eq_true.mp hv
    obtain ⟨u, hu, huz⟩ := h z hz
    exact List.any_eq_true.mpr ⟨u, hu, BEq.trans huz hzv⟩
  have hself {us : List ν} {u : ν} (hu : u ∈ us) : us.any (· == u) = true :=
    List.any_eq_true.mpr ⟨u, hu, BEq.rfl⟩
  constructor
  · intro h
    refine ⟨covers_iff_any.mpr fun w hw => ?_, covers_iff_any.mpr fun v hv => ?_⟩
    · rw [h w, hself hw]
    · rw [← h v, hself hv]
  · rintro ⟨hvw, hwv⟩ v
    rw [Bool.eq_iff_iff]
    exact ⟨hcov hwv, hcov hvw⟩

/-- Without repetition, as many values of which each is among the others are the same values. -/
lemma sameValues_iff_length (hvs : Unrepeated (· == ·) vs) (hws : Unrepeated (· == ·) ws) :
    SameValues vs ws ↔ vs.length = ws.length ∧ Covers (· == ·) vs ws := by
  have hall (us : List ν) : ∀ u ∈ us, True := fun _ _ => trivial
  rw [sameValues_iff]
  constructor
  · rintro ⟨hvw, hwv⟩
    have hle := equivalenceOn_beq.length_le (hall vs) (hall ws) hws hvw
    have hge := equivalenceOn_beq.length_le (hall ws) (hall vs) hvs hwv
    exact ⟨le_antisymm hge hle, hvw⟩
  · rintro ⟨hlen, hvw⟩
    exact ⟨hvw, equivalenceOn_beq.covers_of_length_le (hall vs) (hall ws) hws hvw hlen.le⟩

end Values

/-- Keys that are the same have one hash. -/
def Keying.HashesAlike (k : Keying κ) : Prop := ∀ a b, k.same a b = true → k.hash a = k.hash b

lemma Keying.HashesAlike.answers_eq {k : Keying κ} (h : k.HashesAlike) (key stored : κ) :
    k.answers key stored = k.same stored key := by
  rw [Keying.answers, Bool.and_eq_right_iff_imp]
  intro hsame
  exact beq_iff_eq.mpr (h _ _ hsame)

namespace AssociationList

/-- The keys in the order in which they were added. -/
def keys (a : AssociationList κ ν) : List κ := a.table.map (·.1)

/-- Every key has a value, no key and no value of a key occurs twice, and equal keys have equal hashes. -/
structure Orderly [BEq ν] (a : AssociationList κ ν) : Prop where
  distinct : a.Distinct
  hashesAlike : a.keying.HashesAlike
  nonempty : ∀ p ∈ a.table, p.2 ≠ []

namespace Orderly

variable [BEq ν] {a b : AssociationList κ ν} {p : κ × List ν} {key other : κ}

lemma equivalenceOn (h : a.Orderly) : EquivalenceOn (fun _ => True) a.keying.same :=
  h.distinct.lawful.equivalenceOn

lemma unrepeated_get (h : a.Orderly) (key : κ) : Unrepeated (· == ·) (a.get key) := h.distinct.get key

/-- Equal keys would have one hash. -/
lemma unrepeated_keys (h : a.Orderly) : Unrepeated a.keying.same a.keys := by
  refine List.pairwise_map.mpr (h.distinct.keys.imp ?_)
  intro p q hpq
  cases hsame : a.keying.same p.1 q.1 with
  | false => rfl
  | true => exact hsame.symm.trans (hpq (h.hashesAlike _ _ hsame))

lemma containsKey_iff (h : a.Orderly) :
    a.containsKey key = true ↔ ∃ k ∈ a.keys, a.keying.same k key = true := by
  rw [containsKey, binding?, Table.binding?, List.find?_isSome]
  simp only [h.hashesAlike.answers_eq, keys, List.mem_map]
  constructor
  · rintro ⟨p, hp, hkey⟩
    exact ⟨p.1, ⟨p, hp, rfl⟩, hkey⟩
  · rintro ⟨_, ⟨p, hp, rfl⟩, hkey⟩
    exact ⟨p, hp, hkey⟩

lemma get_congr (h : a.Orderly) (hkey : a.keying.same key other = true) : a.get key = a.get other := by
  have hanswers : a.keying.answers key = a.keying.answers other := by
    funext stored
    rw [h.hashesAlike.answers_eq, h.hashesAlike.answers_eq, h.distinct.lawful.same_comm stored key,
      h.distinct.lawful.same_comm stored other, h.equivalenceOn.congr_left trivial trivial trivial hkey]
  rw [get, get, binding?, binding?, hanswers]

/-- An entry holds what its key has. -/
lemma get_of_mem (h : a.Orderly) (hp : p ∈ a.table) : a.get p.1 = p.2 := by
  have hunique : ∀ q ∈ a.table, a.keying.answers p.1 q.1 = true → q = p := by
    intro q hq hanswers
    by_contra hne
    have hpair : a.table.Pairwise fun p q => a.keying.same p.1 q.1 = false :=
      List.pairwise_map.mp h.unrepeated_keys
    have : Std.Symm fun p q : κ × List ν => a.keying.same p.1 q.1 = false :=
      ⟨fun p q hpq => by rw [h.distinct.lawful.same_comm, hpq]⟩
    rw [h.hashesAlike.answers_eq, hpair.forall hq hp hne] at hanswers
    exact Bool.false_ne_true hanswers
  have hself : a.keying.answers p.1 p.1 = true := by
    rw [h.hashesAlike.answers_eq, h.distinct.lawful.refl]
  rw [get, binding?, Table.binding?_eq_some_of_unique _ hp hself hunique]
  rfl

lemma get_eq_nil_iff (h : a.Orderly) : a.get key = [] ↔ a.containsKey key = false := by
  constructor
  · intro hget
    by_contra hkey
    exact a.get_ne_nil key h.nonempty (by simpa using hkey) hget
  · exact a.get_eq_nil_of_not_containsKey key

/-- The number of associations, counted from the keys. -/
lemma total_eq (h : a.Orderly) : a.total = (a.keys.map fun key => (a.get key).length).sum := by
  rw [total, keys, List.map_map]
  congr 1
  apply List.map_congr_left
  intro p hp
  simp only [Function.comp_apply, h.get_of_mem hp]

section Two

variable (ha : a.Orderly) (hb : b.Orderly) (hsame : a.keying.same = b.keying.same)
include ha hb hsame

lemma covers_keys_iff : Covers b.keying.same b.keys a.keys ↔
    ∀ key, a.containsKey key = true → b.containsKey key = true := by
  constructor
  · intro hcov key hkey
    obtain ⟨k, hk, hkkey⟩ := ha.containsKey_iff.mp hkey
    obtain ⟨l, hl, hlk⟩ := hcov k hk
    rw [hsame] at hkkey
    exact hb.containsKey_iff.mpr ⟨l, hl, hb.distinct.lawful.trans _ _ _ hlk hkkey⟩
  · intro hall k hk
    exact hb.containsKey_iff.mp (hall k (ha.containsKey_iff.mpr ⟨k, hk, ha.distinct.lawful.refl k⟩))

variable [EquivBEq ν]

/-- As many keys, of which each has the values it has on the other side. -/
lemma sameValues_of_keys (hlen : a.table.length = b.table.length)
    (hvalues : ∀ p ∈ a.table, SameValues (b.get p.1) p.2) (key : κ) :
    SameValues (a.get key) (b.get key) := by
  have hall (ks : List κ) : ∀ k ∈ ks, True := fun _ _ => trivial
  have hforth : Covers b.keying.same b.keys a.keys := by
    intro k hk
    obtain ⟨p, hp, rfl⟩ := List.mem_map.mp hk
    apply hb.containsKey_iff.mp
    by_contra hkey
    have hget := hb.get_eq_nil_iff.mpr (by simpa using hkey)
    have hcov := (sameValues_iff.mp (hvalues p hp)).1
    rw [hget] at hcov
    obtain ⟨v, hv⟩ := List.exists_mem_of_ne_nil _ (ha.nonempty p hp)
    obtain ⟨w, hw, -⟩ := hcov v hv
    exact List.not_mem_nil hw
  have hback : Covers a.keying.same a.keys b.keys := by
    have hlen' : b.keys.length ≤ a.keys.length := by
      rw [keys, keys, List.length_map, List.length_map, hlen]
    rw [hsame]
    exact hb.equivalenceOn.covers_of_length_le (hall _) (hall _) (hsame ▸ ha.unrepeated_keys) hforth hlen'
  cases hkey : a.containsKey key with
  | true =>
    obtain ⟨k, hk, hkkey⟩ := ha.containsKey_iff.mp hkey
    obtain ⟨p, hp, rfl⟩ := List.mem_map.mp hk
    rw [← ha.get_congr hkkey, ← hb.get_congr (hsame ▸ hkkey), ha.get_of_mem hp]
    intro v
    exact (hvalues p hp v).symm
  | false =>
    have hkey' : b.containsKey key = false := by
      by_contra hother
      have := (covers_keys_iff hb ha hsame.symm).mp hback key (by simpa using hother)
      rw [hkey] at this
      exact Bool.false_ne_true this
    rw [ha.get_eq_nil_iff.mpr hkey, hb.get_eq_nil_iff.mpr hkey']
    exact fun _ => rfl

/-- Two lists that have the same values at every key have as many keys and associations. -/
lemma counts_of_sameValues (h : ∀ key, SameValues (a.get key) (b.get key)) :
    a.total = b.total ∧ a.table.length = b.table.length := by
  have hall (ks : List κ) : ∀ k ∈ ks, True := fun _ _ => trivial
  have hlength (key : κ) : (a.get key).length = (b.get key).length :=
    ((sameValues_iff_length (ha.unrepeated_get key) (hb.unrepeated_get key)).mp (h key)).1
  have hcontains (key : κ) : a.containsKey key = b.containsKey key := by
    have hnil : a.get key = [] ↔ b.get key = [] := by
      rw [← List.length_eq_zero_iff, ← List.length_eq_zero_iff, hlength key]
    rw [ha.get_eq_nil_iff, hb.get_eq_nil_iff] at hnil
    simpa using hnil
  have hforth : Covers b.keying.same b.keys a.keys :=
    (covers_keys_iff ha hb hsame).mpr fun key hkey => by rw [← hcontains, hkey]
  have hback : Covers b.keying.same a.keys b.keys := by
    rw [← hsame]
    exact (covers_keys_iff hb ha hsame.symm).mpr fun key hkey => by rw [hcontains, hkey]
  have hperm := hb.equivalenceOn.perm_map (f := fun key => (b.get key).length) (hall _) (hall _)
    (hsame ▸ ha.unrepeated_keys) hb.unrepeated_keys hback hforth
    (fun k _ l _ hkl => by rw [hb.get_congr hkl])
  constructor
  · rw [ha.total_eq, hb.total_eq]
    simp only [hlength]
    exact hperm.sum_eq
  · have hlen := hperm.length_eq
    simpa [keys] using hlen

end Two

end Orderly

section Keyings

variable [BEq ν] (a : AssociationList κ ν) (key : κ) (value : ν)

lemma keying_insert : (a.insert key value).keying = a.keying := by
  unfold insert
  split <;> rfl

lemma keying_replace : (a.replace key value).keying = a.keying := by
  unfold replace
  repeat' split
  all_goals rfl

lemma keying_remove : (a.remove key value).keying = a.keying := by
  unfold remove
  repeat' split
  all_goals rfl

lemma keying_ofList (keying : Keying κ) (pairs : List (κ × ν)) : (ofList keying pairs).keying = keying := by
  unfold ofList
  refine List.foldlRecOn (motive := fun a : AssociationList κ ν => a.keying = keying) pairs _ rfl
    fun a ha p _ => ?_
  exact (a.keying_insert p.1 p.2).trans ha

end Keyings

end AssociationList

/-- If the update brings a hash of its own, equal keys have one hash under it. -/
def Update.HashesAlike [BEq κ] : Update κ ν → Prop
  | .collect hash _ => ∀ a b, (a == b) = true → hash a = hash b
  | _ => True

/-- Keys that are compared by their equality. -/
abbrev Keying.byEquality [BEq κ] (hash : κ → UInt64) : Keying κ :=
  ⟨hash, fun stored asked => stored == asked⟩

/-- The multimaps that updates of an empty one lead to, equal keys having one hash at any time. -/
def Multimap.Built [BEq κ] [BEq ν] (m : Multimap κ ν) : Prop :=
  ∃ hash updates, (Keying.byEquality hash).HashesAlike ∧ (∀ u ∈ updates, u.HashesAlike) ∧
    m = .run (.byEquality hash) updates

/-- The keys of a multimap with their values are those of the list, in another order. -/
lemma Represents.grouped_perm {m : Multimap κ ν} {a : AssociationList κ ν} (h : Represents m a) :
    m.grouped.Perm a.table := by
  rw [Multimap.grouped, h.entries_eq, List.map_map]
  exact (List.Perm.of_eq (List.map_id _)).trans (List.mergeSort_perm a.table _)

lemma Represents.beq_iff [BEq ν] {m n : Multimap κ ν} {a b : AssociationList κ ν} (hm : Represents m a)
    (hn : Represents n b) : m.beq n = true ↔ a.total = b.total ∧ a.table.length = b.table.length ∧
      ∀ p ∈ a.table, (b.get p.1).length = p.2.length ∧ Covers (· == ·) (b.get p.1) p.2 := by
  simp only [Multimap.beq, hm.size_eq, hn.size_eq, hm.keyCount_eq, hn.keyCount_eq, hn.get_eq,
    Bool.and_eq_true, beq_iff_eq, List.all_eq_true, hm.grouped_perm.mem_iff, and_assoc, covers_iff_any]

section Runs

variable [BEq κ] [BEq ν]

/-- An update keeps the comparison of keys, and equal keys have one hash after it. -/
lemma AssociationList.keying_update {a : AssociationList κ ν} {u : Update κ ν} (hu : u.HashesAlike)
    (ha : ∃ hash, a.keying = .byEquality hash ∧ (Keying.byEquality hash).HashesAlike) :
    ∃ hash, (a.update u).keying = .byEquality hash ∧ (Keying.byEquality hash).HashesAlike := by
  obtain ⟨hash, hkeying, halike⟩ := ha
  cases u with
  | insert key value => exact ⟨hash, (a.keying_insert key value).trans hkeying, halike⟩
  | replace key value => exact ⟨hash, (a.keying_replace key value).trans hkeying, halike⟩
  | remove key value => exact ⟨hash, (a.keying_remove key value).trans hkeying, halike⟩
  | removeKey key => exact ⟨hash, hkeying, halike⟩
  | collect hash' pairs =>
    refine ⟨hash', ?_, hu⟩
    rw [update, keying_ofList, hkeying]

/-- What a multimap that has been built represents. -/
lemma Multimap.Built.represents [EquivBEq κ] [EquivBEq ν] {m : Multimap κ ν} (h : m.Built) :
    ∃ a : AssociationList κ ν, Represents m a ∧ a.Orderly ∧
      a.keying.same = fun stored asked => stored == asked := by
  obtain ⟨hash, updates, halike, hupdates, rfl⟩ := h
  have hrun : ∀ a : AssociationList κ ν,
      (∃ hash, a.keying = .byEquality hash ∧ (Keying.byEquality hash).HashesAlike) →
      ∃ hash, (updates.foldl AssociationList.update a).keying = .byEquality hash ∧
        (Keying.byEquality hash).HashesAlike := by
    induction updates with
    | nil => exact fun a ha => ha
    | cons u updates ih =>
      intro a ha
      obtain ⟨hu, hupdates⟩ := List.forall_mem_cons.mp hupdates
      exact ih hupdates _ (AssociationList.keying_update hu ha)
  obtain ⟨hash', hkeying, halike'⟩ := hrun (.empty (.byEquality hash)) ⟨hash, rfl, halike⟩
  have hrepresents : Represents _ _ := Represents.run (.byEquality hash) updates
  refine ⟨_, hrepresents, ⟨.run (Keying.lawful_beq hash) updates, ?_, hrepresents.nonempty⟩, ?_⟩
  · rw [AssociationList.run, hkeying]
    exact halike'
  · rw [AssociationList.run, hkeying]

end Runs

/-- Built multimaps that pass the comparison of counters and of values one way hold the same associations, and
the other way round. -/
lemma Multimap.Built.beq_iff [BEq κ] [EquivBEq κ] [BEq ν] [EquivBEq ν] {m n : Multimap κ ν} (hm : m.Built)
    (hn : n.Built) : m.beq n = true ↔ ∀ key value, m.contains key value = n.contains key value := by
  obtain ⟨a, hma, ha, hsa⟩ := hm.represents
  obtain ⟨b, hnb, hb, hsb⟩ := hn.represents
  have hsame : a.keying.same = b.keying.same := hsa.trans hsb.symm
  have hlists : m.beq n = true ↔ a.total = b.total ∧ a.table.length = b.table.length ∧
      ∀ p ∈ a.table, SameValues (b.get p.1) p.2 := by
    rw [hma.beq_iff hnb]
    refine and_congr_right fun _ => and_congr_right fun _ => forall₂_congr fun p hp => ?_
    rw [← ha.get_of_mem hp, sameValues_iff_length (hb.unrepeated_get p.1) (ha.unrepeated_get p.1)]
  have hcontains : (∀ key value, m.contains key value = n.contains key value) ↔
      ∀ key, SameValues (a.get key) (b.get key) := by
    simp only [hma.contains_eq, hnb.contains_eq]
    exact Iff.rfl
  rw [hlists, hcontains]
  constructor
  · rintro ⟨-, hlen, hvalues⟩
    exact ha.sameValues_of_keys hb hsame hlen hvalues
  · intro hvalues
    obtain ⟨htotal, hlen⟩ := ha.counts_of_sameValues hb hsame hvalues
    refine ⟨htotal, hlen, fun p hp => ?_⟩
    have hp' := hvalues p.1
    rw [ha.get_of_mem hp] at hp'
    exact fun v => (hp' v).symm

/-- Two multimaps are equal exactly when they hold the same associations, however they were built and
whatever hashes they use. So equality is an equivalence; looking first whether both are one object in
memory changes no answer. -/
theorem multimap_equality [BEq κ] [EquivBEq κ] [BEq ν] [EquivBEq ν] :
    (∀ m n : Multimap κ ν, m.Built → n.Built →
      (m.beq n = true ↔ ∀ key value, m.contains key value = n.contains key value)) ∧
    Equivalence fun m n : { m : Multimap κ ν // m.Built } => m.1.beq n.1 = true := by
  refine ⟨fun m n hm hn => hm.beq_iff hn, ?_, ?_, ?_⟩
  · intro m
    exact (m.2.beq_iff m.2).mpr fun _ _ => rfl
  · intro m n hmn
    exact (n.2.beq_iff m.2).mpr fun key value => ((m.2.beq_iff n.2).mp hmn key value).symm
  · intro l m n hlm hmn
    refine (l.2.beq_iff n.2).mpr fun key value => ?_
    rw [(l.2.beq_iff m.2).mp hlm, (m.2.beq_iff n.2).mp hmn]

/-- Keys that all collide in the one multimap and have hashes of their own in the other, associations added
in different orders, a key removed again in the one and a value replaced in the other. -/
theorem multimap_equality_collisions :
    let m : Multimap Nat Nat := .run (.byEquality fun _ => 7)
      [.insert 1 10, .insert 2 20, .insert 3 30, .insert 1 11, .removeKey 3]
    let n : Multimap Nat Nat := .run (.byEquality Nat.toUInt64)
      [.insert 2 5, .insert 1 11, .replace 2 20, .insert 1 10]
    m.Built ∧ n.Built ∧ m.beq n = true := by
  intro m n
  have hm : m.Built := ⟨_, _, fun _ _ _ => rfl, by simp [Update.HashesAlike], rfl⟩
  have hn : n.Built := ⟨_, _, fun a b h => by rw [eq_of_beq h], by simp [Update.HashesAlike], rfl⟩
  have hma : Represents m ⟨.byEquality fun _ => 7, [(1, [10, 11]), (2, [20])]⟩ := Represents.run _ _
  have hnb : Represents n ⟨.byEquality Nat.toUInt64, [(2, [20]), (1, [11, 10])]⟩ := Represents.run _ _
  refine ⟨hm, hn, (multimap_equality.1 m n hm hn).mpr fun key value => ?_⟩
  rw [hma.contains_eq, hnb.contains_eq]
  by_cases h₁ : key = 1
  · subst h₁
    change ([10, 11] : List Nat).any (· == value) = ([11, 10] : List Nat).any (· == value)
    simp [Bool.or_comm]
  · by_cases h₂ : key = 2
    · subst h₂
      rfl
    · simp [AssociationList.contains, AssociationList.get, AssociationList.binding?, Table.binding?,
        Keying.answers, Ne.symm h₁, Ne.symm h₂]

end TypedValues
