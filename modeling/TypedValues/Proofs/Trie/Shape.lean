import TypedValues.Proofs.Trie.Order

/-!
# Shapes

The shape of a trie is what is left of it when its entries are forgotten: the bitmaps, which slots hold
entries and which hold subtrees, and the lengths of the chains. It is determined by the hashes in the
trie, however often each of them occurs and in whatever order they came.
-/

namespace TypedValues

variable {κ ν : Type}

namespace Trie

/-- A subtree without its entries. -/
inductive Shape where
  | leaf
  | branch (bitmap : Nat) (children : List Shape)
  | chain (length : Nat)

mutual
/-- What is left of a subtree when its entries are forgotten. -/
def shape : Trie κ ν → Shape
  | .leaf _ => .leaf
  | .branch bitmap children => .branch bitmap (shapesOf children)
  | .chain _ es => .chain es.length

def shapesOf : List (Trie κ ν) → List Shape
  | [] => []
  | t :: ts => shape t :: shapesOf ts
end

/-- The hashes of a subtree, each as often as there are entries with it. -/
def hashes (t : Trie κ ν) : List UInt64 := t.entries.map (·.hash)

def hashesOf (ts : List (Trie κ ν)) : List UInt64 := (entriesOf ts).map (·.hash)

lemma hashesOf_cons (t : Trie κ ν) (ts : List (Trie κ ν)) :
    hashesOf (t :: ts) = t.hashes ++ hashesOf ts := by
  rw [hashesOf, entriesOf_cons, List.map_append]
  rfl

lemma length_hashes (t : Trie κ ν) : t.hashes.length = t.entries.length := List.length_map _

variable {level : Nat} {ds : List Nat} {ts us : List (Trie κ ν)} {t u : Trie κ ν}

lemma Routed.digit_eq {d : Nat} (h : Routed level d t) : ∀ hash ∈ t.hashes, digit hash level = d := by
  intro hash hmem
  obtain ⟨e, he, rfl⟩ := List.mem_map.mp hmem
  exact h e he

lemma Routed.digit_mem (h : List.Forall₂ (Routed level) ds ts) :
    ∀ hash ∈ hashesOf ts, digit hash level ∈ ds := by
  intro hash hmem
  obtain ⟨e, he, rfl⟩ := List.mem_map.mp hmem
  obtain ⟨t, ht, he⟩ := mem_entriesOf.mp he
  obtain ⟨d, hd, hrouted⟩ := Routed.of_forall₂ h ht
  rw [hrouted e he]
  exact hd

lemma Slot.routed (h : List.Forall₂ (Slot level) ds ts) : List.Forall₂ (Routed level) ds ts :=
  h.imp fun _ _ hslot => hslot.1

/-- A branch has a child for a digit exactly when it holds a hash with this digit. -/
lemma mem_iff_digit (h : List.Forall₂ (Slot level) ds ts) (d : Nat) :
    d ∈ ds ↔ ∃ hash ∈ hashesOf ts, digit hash level = d := by
  constructor
  · intro hd
    obtain ⟨i, hi, rfl⟩ := List.getElem_of_mem hd
    have hi' : i < ts.length := by rwa [← h.length_eq]
    obtain ⟨hrouted, hdense, -⟩ := (List.forall₂_iff_get.mp h).2 i hi hi'
    obtain ⟨e, he⟩ := List.exists_mem_of_length_pos hdense.one_le_length
    have hmem : e ∈ entriesOf ts := mem_entriesOf.mpr ⟨_, List.getElem_mem hi', he⟩
    exact ⟨e.hash, List.mem_map_of_mem hmem, hrouted e he⟩
  · rintro ⟨hash, hmem, rfl⟩
    exact Routed.digit_mem (Slot.routed h) hash hmem

/-- Bitmaps of branches that hold the same hashes agree. -/
lemma bitmap_eq {b c : Nat} (hb : b < 2 ^ 32) (hc : c < 2 ^ 32)
    (hts : List.Forall₂ (Slot level) (digits b) ts) (hus : List.Forall₂ (Slot level) (digits c) us)
    (hperm : (hashesOf ts).Perm (hashesOf us)) : b = c := by
  have hdigits : ∀ d, d ∈ digits b ↔ d ∈ digits c := by
    intro d
    rw [mem_iff_digit hts, mem_iff_digit hus]
    exact exists_congr fun hash => and_congr_left fun _ => hperm.mem_iff
  apply Nat.eq_of_testBit_eq
  intro d
  by_cases hd : d < 32
  · have h := hdigits d
    rw [mem_digits, mem_digits, and_iff_right hd, and_iff_right hd] at h
    exact Bool.eq_iff_iff.mpr h
  · have hle : 2 ^ 32 ≤ 2 ^ d := Nat.pow_le_pow_right (by decide) (by omega)
    rw [Nat.testBit_lt_two_pow (lt_of_lt_of_le hb hle), Nat.testBit_lt_two_pow (lt_of_lt_of_le hc hle)]

/-- The hashes of the first child are those with its digit, and the other children have the rest. -/
lemma filter_hashesOf {d : Nat} (hrouted : Routed level d t) (hds : d ∉ ds)
    (h : List.Forall₂ (Routed level) ds ts) :
    (hashesOf (t :: ts)).filter (digit · level = d) = t.hashes ∧
      (hashesOf (t :: ts)).filter (digit · level ≠ d) = hashesOf ts := by
  have hfirst := hrouted.digit_eq
  have hothers : ∀ hash ∈ hashesOf ts, digit hash level ≠ d := by
    rintro hash hmem rfl
    exact hds (Routed.digit_mem h hash hmem)
  rw [hashesOf_cons, List.filter_append, List.filter_append]
  constructor
  · rw [List.filter_eq_self.mpr (by simpa using hfirst),
      List.filter_eq_nil_iff.mpr (by simpa using hothers), List.append_nil]
  · rw [List.filter_eq_nil_iff.mpr (by simpa using hfirst),
      List.filter_eq_self.mpr (by simpa using hothers), List.nil_append]

/-- Children under the same digits with the same hashes have the same shapes, if that holds of each of
them alone. -/
lemma shapesOf_eq (hnodup : ds.Nodup) (hts : List.Forall₂ (Slot level) ds ts)
    (hus : List.Forall₂ (Slot level) ds us) (hperm : (hashesOf ts).Perm (hashesOf us))
    (hshape : ∀ t ∈ ts, t.Dense → ∀ u : Trie κ ν, WellFormed (level + 1) u → u.Dense →
      t.hashes.Perm u.hashes → t.shape = u.shape) : shapesOf ts = shapesOf us := by
  induction hts generalizing us with
  | nil =>
    cases hus with
    | nil => rfl
  | @cons d t ds ts ht hts ih =>
    cases hus with
    | @cons _ u _ us hu hus =>
      obtain ⟨hd, hds⟩ := List.nodup_cons.mp hnodup
      obtain ⟨hfirst, hothers⟩ := filter_hashesOf ht.1 hd (Slot.routed hts)
      obtain ⟨hfirst', hothers'⟩ := filter_hashesOf hu.1 hd (Slot.routed hus)
      have htu : t.hashes.Perm u.hashes := by
        rw [← hfirst, ← hfirst']
        exact hperm.filter _
      have hrest : (hashesOf ts).Perm (hashesOf us) := by
        rw [← hothers, ← hothers']
        exact hperm.filter _
      rw [shapesOf, shapesOf, hshape t List.mem_cons_self ht.2.1 u hu.2.2 hu.2.1 htu]
      congr 1
      exact ih hds hus hrest fun s hs => hshape s (List.mem_cons_of_mem t hs)

lemma shape_branch_eq {b c : Nat} (hts : WellFormed level (.branch b ts))
    (hus : WellFormed level (.branch c us)) (hperm : (hashesOf ts).Perm (hashesOf us))
    (hshape : ∀ t ∈ ts, t.Dense → ∀ u : Trie κ ν, WellFormed (level + 1) u → u.Dense →
      t.hashes.Perm u.hashes → t.shape = u.shape) :
    (Trie.branch b ts).shape = (Trie.branch c us).shape := by
  obtain ⟨-, hb, hts⟩ := wellFormed_branch_iff.mp hts
  obtain ⟨-, hc, hus⟩ := wellFormed_branch_iff.mp hus
  obtain rfl := bitmap_eq hb hc hts hus hperm
  have hnodup : (digits b).Nodup := (digits_pairwise b).imp ne_of_lt
  rw [shape, shape, shapesOf_eq hnodup hts hus hperm hshape]

/-- Only a leaf is dense with as many entries as a leaf. -/
lemma not_dense_of_length_one (hleaf : ∀ e, t ≠ .leaf e) {f : Entry κ ν}
    (hlength : t.entries.length = (Trie.leaf f).entries.length) : ¬ t.Dense := by
  intro hdense
  rcases dense_iff.mp hdense with ⟨e, he⟩ | hlong
  · exact hleaf e he
  · rw [hlength, entries_leaf, List.length_singleton] at hlong
    omega

/-- Two subtrees at one level that hold the same hashes have the same shape: a single entry is a leaf,
entries that differ in a digit further down share a branch, and those that do not form a chain. -/
theorem WellFormed.shape_eq (wf : WellFormed level t) (dense : t.Dense) (wf' : WellFormed level u)
    (dense' : u.Dense) (hperm : t.hashes.Perm u.hashes) : t.shape = u.shape := by
  have hlength : t.entries.length = u.entries.length := by
    rw [← length_hashes, ← length_hashes, hperm.length_eq]
  induction wf generalizing u with
  | leaf e =>
    rcases dense_iff.mp dense' with ⟨f, rfl⟩ | hlong
    · rfl
    · rw [← hlength, entries_leaf, List.length_singleton] at hlong
      omega
  | @branch level b ts inRange bits routed hchildren children ih =>
    have hbranch : WellFormed level (.branch b ts) := .branch inRange bits routed hchildren children
    cases wf' with
    | leaf f => exact absurd dense (not_dense_of_length_one (fun e => nofun) hlength)
    | chain last => exact absurd inRange (by omega)
    | branch inRange' bits' routed' hchildren' children' =>
      rw [hashes, hashes, entries_branch, entries_branch] at hperm
      apply shape_branch_eq hbranch (.branch inRange' bits' routed' hchildren' children') hperm
      intro s hs hsdense v hv hvdense hsv
      refine ih s hs hsdense hv hvdense hsv ?_
      rw [← length_hashes, ← length_hashes, hsv.length_eq]
  | chain last long agree =>
    cases wf' with
    | leaf f => exact absurd dense (not_dense_of_length_one (fun e => nofun) hlength)
    | branch inRange => exact absurd inRange (by omega)
    | chain =>
      rw [entries_chain, entries_chain] at hlength
      rw [shape, shape, hlength]

/-- So do two roots. -/
lemma Rooted.shape_eq (ht : Rooted t) (hu : Rooted u) (hperm : t.hashes.Perm u.hashes) :
    t.shape = u.shape := by
  obtain ⟨b, ts, rfl⟩ := ht.branch
  obtain ⟨c, us, rfl⟩ := hu.branch
  rw [hashes, hashes, entries_branch, entries_branch] at hperm
  apply shape_branch_eq ht.wellFormed hu.wellFormed hperm
  intro s hs hsdense v hv hvdense hsv
  have hsame := (wellFormed_branch_iff.mp ht.wellFormed).2.2
  exact ((forall₂_slot_iff.mp hsame).2 s hs).2.shape_eq hsdense hv hvdense hsv

end Trie

/-- The hashes of the keys that are present. -/
def Multimap.hashes (m : Multimap κ ν) : List UInt64 := m.keys.map m.keying.hash

namespace Represents

variable {m n : Multimap κ ν} {a b : AssociationList κ ν}

/-- Every entry is stored under the hash of its key. -/
lemma hashes_root (h : Represents m a) : m.root.hashes = m.hashes := by
  have hentries : m.root.entries = a.inHashOrder.map a.keying.entry := h.entries_eq
  rw [Multimap.hashes, Multimap.keys, Multimap.entries, Trie.hashes, hentries, h.keying]
  simp only [List.map_map]
  rfl

/-- The keys present are those of the list. -/
lemma hashes_perm (h : Represents m a) : m.hashes.Perm (a.table.map fun p => a.keying.hash p.1) := by
  have hentries : m.root.entries = a.inHashOrder.map a.keying.entry := h.entries_eq
  rw [← h.hashes_root, Trie.hashes, hentries, List.map_map]
  exact (List.mergeSort_perm a.table _).map _

lemma shape_eq (h : Represents m a) (h' : Represents n b) (hperm : m.hashes.Perm n.hashes) :
    m.root.shape = n.root.shape := by
  rw [← h.hashes_root, ← h'.hashes_root] at hperm
  exact h.rooted.shape_eq h'.rooted hperm

end Represents

namespace AssociationList

variable {a : AssociationList κ ν} {key : κ}

lemma binding?_eq_none (hnew : a.containsKey key = false) : a.binding? key = none := by
  rwa [containsKey, Option.isSome_eq_false_iff, Option.isNone_iff_eq_none] at hnew

lemma answers_self (hself : a.keying.same key key = true) : a.keying.answers key key = true := by
  simp [Keying.answers, hself]

lemma removeKey_store (hself : a.keying.same key key = true) (hnew : a.containsKey key = false)
    (values : List ν) : (a.store key values).removeKey key = a := by
  have hback := Table.erase_put_self _ (answers_self hself) values (binding?_eq_none hnew)
  exact congrArg (AssociationList.mk a.keying) hback

variable [BEq ν] {value : ν}

lemma insert_of_new (hnew : a.containsKey key = false) : a.insert key value = a.store key [value] := by
  rw [insert, contains, a.get_eq_nil_of_not_containsKey key hnew]
  rfl

lemma replace_of_new (hnew : a.containsKey key = false) : a.replace key value = a.store key [value] := by
  rw [replace, a.get_eq_nil_of_not_containsKey key hnew]

/-- A key that loses its only value disappears. -/
lemma remove_store (hself : a.keying.same key key = true) (hvalue : (value == value) = true) :
    (a.store key [value]).remove key value = (a.store key [value]).removeKey key := by
  have hget : (a.store key [value]).get key = [value] := by
    rw [get, binding?, store, Table.binding?_put_self _ (answers_self hself)]
    rfl
  rw [remove, contains, hget]
  simp [hvalue]

end AssociationList

/-- The shape of a trie does not depend on its history: two runs of updates, with any hashes, that end with
the same hashes of the keys present leave tries of the same shape. So a key that is added and removed
again, by itself or with its only value, leaves the shape as it was. -/
theorem multimap_run_shape [BEq ν] (keying : Keying κ) (updates : List (Update κ ν)) :
    let m := Multimap.run keying updates
    (∀ (keying' : Keying κ) (updates' : List (Update κ ν)),
      let n := Multimap.run keying' updates'
      m.hashes.Perm n.hashes → m.root.shape = n.root.shape) ∧
    ∀ key value, m.containsKey key = false → m.keying.same key key = true →
      ∀ n ∈ [m.insert key value, m.replace key value],
        (n.removeKey key).root.shape = m.root.shape ∧
        ((value == value) = true → (n.remove key value).root.shape = m.root.shape) := by
  intro m
  have h : Represents m (AssociationList.run keying updates) := Represents.run keying updates
  generalize AssociationList.run keying updates = a at h
  constructor
  · intro keying' updates' n hperm
    exact h.shape_eq (Represents.run keying' updates') hperm
  · intro key value hnew hself n hn
    rw [h.containsKey_eq] at hnew
    rw [h.keying] at hself
    have hn : Represents n (a.store key [value]) := by
      rcases List.mem_pair.mp hn with rfl | rfl
      · rw [← AssociationList.insert_of_new hnew]
        exact h.insert key value
      · rw [← AssociationList.replace_of_new hnew]
        exact h.replace key value
    have hback : (a.store key [value]).removeKey key = a :=
      AssociationList.removeKey_store hself hnew [value]
    have hshape {l : Multimap κ ν} (hl : Represents l a) : l.root.shape = m.root.shape :=
      hl.shape_eq h (hl.hashes_perm.trans h.hashes_perm.symm)
    refine ⟨hshape ?_, fun hvalue => hshape ?_⟩
    · rw [← hback]
      exact hn.removeKey key
    · rw [← hback, ← AssociationList.remove_store hself hvalue]
      exact hn.remove key value

/-- Keys whose hashes differ in the third digit first, two of them of one hash, are added in one order and
in another with a third one that is removed again. -/
theorem multimap_run_shape_chain :
    let keying : Keying Nat := ⟨fun n => if n < 2 then 5 else 1024 * n.toUInt64 + 5, (· == ·)⟩
    let m : Multimap Nat Nat := Multimap.run keying [.insert 0 10, .insert 2 20, .insert 1 30]
    let n : Multimap Nat Nat :=
      Multimap.run keying [.insert 1 10, .insert 3 20, .insert 0 30, .replace 2 40, .removeKey 3]
    m.hashes.Perm n.hashes ∧ m.root.shape = n.root.shape ∧ m.containsKey 3 = false ∧
      ((m.insert 3 20).removeKey 3).root.shape = m.root.shape := by
  intro keying m n
  have hm := Represents.run keying [.insert 0 10, .insert 2 20, .insert 1 30]
  have hn := Represents.run keying
    [.insert 1 10, .insert 3 20, .insert 0 30, .replace 2 40, .removeKey 3]
  have hperm : m.hashes.Perm n.hashes := by
    refine hm.hashes_perm.trans (List.Perm.trans ?_ hn.hashes_perm.symm)
    decide
  have hnew : m.containsKey 3 = false := by
    rw [hm.containsKey_eq]
    decide
  have hself : m.keying.same 3 3 = true := by
    rw [hm.keying]
    decide
  obtain ⟨hshape, hagain⟩ := multimap_run_shape keying [.insert 0 10, .insert 2 20, .insert 1 30]
  exact ⟨hperm, hshape keying _ hperm, hnew, (hagain 3 20 hnew hself _ List.mem_cons_self).1⟩

end TypedValues
