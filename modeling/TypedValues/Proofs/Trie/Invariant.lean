import TypedValues.Proofs.Trie.Distinct

/-!
# The shape of a trie

What holds at every node of a trie that updates have built: where its entries stand, how many children
it has, and how small it can be. Chains hold different keys when the comparison of keys is an
equivalence.
-/

namespace TypedValues

variable {κ ν : Type}

namespace Trie

/-- The subtree at the end of a path of digits, the outermost digit first. -/
inductive Below : Trie κ ν → List Nat → Trie κ ν → Prop where
  | here (t : Trie κ ν) : Below t [] t
  | child {bitmap d : Nat} {ts : List (Trie κ ν)} {t s : Trie κ ν} {path : List Nat}
      (slot : (d, t) ∈ (digits bitmap).zip ts) (below : Below t path s) :
      Below (.branch bitmap ts) (d :: path) s

/-- The node at the end of a path. A hash is shifted by five bits for every digit of the path. -/
structure Placed (k : Keying κ) (path : List Nat) (t : Trie κ ν) : Prop where
  routed : ∀ e ∈ t.entries, ∀ i (hi : i < path.length), digit e.hash i = path[i]
  dense : path ≠ [] → t.Dense
  branch : ∀ bitmap ts, t = .branch bitmap ts →
    5 * path.length < 64 ∧ bitmap < 2 ^ 32 ∧ ts.length = (digits bitmap).length ∧
    (digits bitmap).Pairwise (· < ·) ∧
    ∀ d < 32, position bitmap d + (if bitmap.testBit d then 1 else 0) ≤ ts.length
  chain : ∀ hash es, t = .chain hash es →
    path.length = levels ∧ 2 ≤ es.length ∧ (∀ e ∈ es, e.hash = hash) ∧
    es.Pairwise fun a b => k.same a.key b.key = false ∧ k.same b.key a.key = false

lemma digits_pairwise (bitmap : Nat) : (digits bitmap).Pairwise (· < ·) :=
  List.pairwise_lt_range.filter _

/-- A position counts no child twice and none that is not there. -/
lemma position_le (bitmap : Nat) {d : Nat} (hd : d < 32) :
    position bitmap d + (if bitmap.testBit d then 1 else 0) ≤ (digits bitmap).length := by
  rw [digits_split bitmap hd, ← length_digitsBelow]
  split <;> simp

lemma sublist_entriesOf {t : Trie κ ν} {ts : List (Trie κ ν)} (h : t ∈ ts) :
    t.entries.Sublist (entriesOf ts) := by
  obtain ⟨pre, post, rfl⟩ := List.append_of_mem h
  rw [entriesOf_append, entriesOf_cons]
  exact (List.sublist_append_left _ _).trans (List.sublist_append_right _ _)

lemma Below.sublist {t s : Trie κ ν} {path : List Nat} (h : Below t path s) :
    s.entries.Sublist t.entries := by
  induction h with
  | here t => exact List.Sublist.refl _
  | child slot _ ih =>
    rw [entries_branch]
    exact ih.trans (sublist_entriesOf (List.of_mem_zip slot).2)

lemma Below.spec {t s : Trie κ ν} {path : List Nat} (h : Below t path s) {level : Nat}
    (wf : WellFormed level t) :
    WellFormed (level + path.length) s ∧ (path ≠ [] → s.Dense) ∧
      ∀ e ∈ s.entries, ∀ i (hi : i < path.length), digit e.hash (level + i) = path[i] := by
  induction h generalizing level with
  | here t => exact ⟨wf, fun h => (h rfl).elim, fun _ _ i hi => absurd hi (Nat.not_lt_zero i)⟩
  | @child bitmap d ts t s path slot below ih =>
    have hslots := (wellFormed_branch_iff.mp wf).2.2
    obtain ⟨hrouted, hdense, hwf⟩ := (List.forall₂_iff_zip.mp hslots).2 slot
    obtain ⟨hs, hsdense, hsrouted⟩ := ih hwf
    refine ⟨?_, ?_, ?_⟩
    · rw [List.length_cons, Nat.add_comm path.length, ← Nat.add_assoc]
      exact hs
    · intro _
      cases below with
      | here => exact hdense
      | child => exact hsdense (List.cons_ne_nil _ _)
    · intro e he i hi
      cases i with
      | zero => exact hrouted e (below.sublist.subset he)
      | succ i =>
        have hi' : i < path.length := by simpa using hi
        have hlevel : level + (i + 1) = level + 1 + i := by omega
        rw [hlevel, List.getElem_cons_succ]
        exact hsrouted e he i hi'

end Trie

open Trie (bucket bucket_eq_self mem_bucket Below Placed)

/-- The keys of a chain differ from one another, as those of the list do. -/
lemma Represents.chain_distinct [BEq ν] {m : Multimap κ ν} {a : AssociationList κ ν}
    (h : Represents m a) (hdistinct : a.Distinct) {path : List Nat} {hash : UInt64}
    {es : List (Entry κ (List ν))} (below : Below m.root path (.chain hash es))
    (agree : ∀ e ∈ es, e.hash = hash) :
    es.Pairwise fun e f => m.keying.same e.key f.key = false ∧ m.keying.same f.key e.key = false := by
  have hkeys : a.entries.Pairwise fun e f => e.hash = f.hash → a.keying.same e.key f.key = false :=
    List.pairwise_map.mpr hdistinct.keys
  have hsub : es.Sublist (bucket hash a.entries) := by
    have hroot := below.sublist
    rw [Trie.entries_chain] at hroot
    rw [← h.bucket_eq hash, ← bucket_eq_self agree]
    exact hroot.filter _
  have hchain := hkeys.sublist (hsub.trans List.filter_sublist)
  rw [h.keying]
  refine hchain.imp_of_mem ?_
  intro e f he hf hef
  have hsame := hef ((agree e he).trans (agree f hf).symm)
  exact ⟨hsame, by rw [hdistinct.lawful.same_comm, hsame]⟩

lemma Represents.mem_entries {m : Multimap κ ν} {a : AssociationList κ ν} (h : Represents m a)
    {e : Entry κ (List ν)} (he : e ∈ m.entries) : e ∈ a.entries := by
  have hbucket : e ∈ bucket e.hash m.entries := mem_bucket.mpr ⟨he, rfl⟩
  rw [h.bucket_eq] at hbucket
  exact (mem_bucket.mp hbucket).1

/-- After any run of updates, with any hash: the root is a branch; each node stands where the digits of
its entries say, has a child for every bit of its bitmap in ascending order, is no deeper than the
hash is long and, below the root, holds two entries or more; chains are last and hold different keys
of one hash; every entry has the hash of its key and some values, none of them twice. -/
theorem multimap_run_invariant [BEq ν] [EquivBEq ν] (keying : Keying κ) (lawful : keying.Lawful)
    (updates : List (Update κ ν)) :
    let m := Multimap.run keying updates
    (∃ bitmap ts, m.root = .branch bitmap ts) ∧
    (∀ path t, Below m.root path t → Placed m.keying path t) ∧
    ∀ e ∈ m.entries, e.hash = m.keying.hash e.key ∧ e.payload ≠ [] ∧
      e.payload.Pairwise fun v w => (v == w) = false ∧ (w == v) = false := by
  intro m
  have h := Represents.run keying updates
  have hdistinct := AssociationList.Distinct.run lawful updates
  refine ⟨h.rooted.branch, ?_, ?_⟩
  · intro path t below
    obtain ⟨wf, dense, routed⟩ := below.spec h.rooted.wellFormed
    simp only [Nat.zero_add] at wf routed
    refine ⟨routed, dense, ?_, ?_⟩
    · rintro bitmap ts rfl
      obtain ⟨inRange, bits, hslots⟩ := Trie.wellFormed_branch_iff.mp wf
      have hlen := hslots.length_eq
      unfold Trie.levels at inRange
      refine ⟨by omega, bits, hlen.symm, Trie.digits_pairwise bitmap, ?_⟩
      intro d hd
      rw [← hlen]
      exact Trie.position_le bitmap hd
    · rintro hash es rfl
      cases wf with
      | chain last long agree =>
        exact ⟨last, long, agree, h.chain_distinct hdistinct below agree⟩
  · intro e he
    obtain ⟨p, hp, rfl⟩ := List.mem_map.mp (h.mem_entries he)
    refine ⟨by rw [h.keying]; rfl, h.nonempty p hp, ?_⟩
    refine (hdistinct.values p hp).imp ?_
    intro v w hvw
    exact ⟨hvw, by rw [BEq.comm, hvw]⟩

/-- Three keys of one hash, one of them removed again: the others stay in a chain thirteen levels
down. -/
theorem multimap_run_invariant_collision :
    Keying.Lawful (⟨fun _ => 7, (· == ·)⟩ : Keying Nat) ∧
    let m := Multimap.run (⟨fun _ => 7, (· == ·)⟩ : Keying Nat)
      [.insert 1 10, .insert 2 20, .insert 3 30, .removeKey 2, .insert 1 11]
    (∃ bitmap ts, m.root = .branch bitmap ts) ∧
    (∀ path t, Below m.root path t → Placed m.keying path t) ∧
    ∀ e ∈ m.entries, e.hash = m.keying.hash e.key ∧ e.payload ≠ [] ∧
      e.payload.Pairwise fun v w => (v == w) = false ∧ (w == v) = false := by
  have lawful := Keying.lawful_beq (κ := Nat) fun _ => 7
  exact ⟨lawful, multimap_run_invariant _ lawful _⟩

end TypedValues
