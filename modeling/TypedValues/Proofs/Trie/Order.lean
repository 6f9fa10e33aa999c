import TypedValues.Proofs.Trie.Invariant
import TypedValues.Proofs.Trie.Walk

/-!
# Iteration order

A trie lists its entries by the digits of their hashes, the first digit counting most, and entries of
one hash as its bucket has them. So a multimap lists its keys in the order of the association list,
sorted stably by those digits: nothing else of its history shows.
-/

namespace TypedValues

variable {κ ν : Type}

namespace Trie

/-- The digits of a hash, the one that a root branches on first. -/
def digitSequence (hash : UInt64) : List Nat := (List.range levels).map (digit hash)

lemma digitSequence_injective : Function.Injective digitSequence := by
  intro a b h
  apply eq_of_digits
  intro level hlevel
  exact List.map_inj_left.mp h level (List.mem_range.mpr hlevel)

/-- The first digit in which two hashes differ orders them. -/
lemma digitSequence_lt {a b : UInt64} {level : Nat} (hlevel : level < levels)
    (hbefore : ∀ i < level, digit a i = digit b i) (h : digit a level < digit b level) :
    digitSequence a < digitSequence b := by
  have hlength : ∀ hash, (digitSequence hash).length = levels := by
    intro hash
    rw [digitSequence, List.length_map, List.length_range]
  have hget : ∀ hash i, (hi : i < (digitSequence hash).length) →
      (digitSequence hash)[i] = digit hash i := by
    intro hash i hi
    simp only [digitSequence, List.getElem_map, List.getElem_range]
  apply List.lt_iff_exists.mpr
  right
  refine ⟨level, by rwa [hlength], by rwa [hlength], ?_, ?_⟩
  · intro i hi
    rw [hget, hget]
    exact hbefore i hi
  · rw [hget, hget]
    exact h

/-- One entry comes before another, or has the same hash. -/
def Precedes (e f : Entry κ ν) : Prop := digitSequence e.hash ≤ digitSequence f.hash

instance (e f : Entry κ ν) : Decidable (Precedes e f) :=
  inferInstanceAs (Decidable (digitSequence e.hash ≤ digitSequence f.hash))

section Sorting

lemma precedes_of_hash_eq {e f : Entry κ ν} (h : e.hash = f.hash) : Precedes e f := by
  rw [Precedes, h]

lemma hash_eq_of_precedes {e f : Entry κ ν} (hef : Precedes e f) (hfe : Precedes f e) :
    e.hash = f.hash :=
  digitSequence_injective (le_antisymm hef hfe)

lemma precedes_trans (e f g : Entry κ ν) (hef : decide (Precedes e f) = true)
    (hfg : decide (Precedes f g) = true) : decide (Precedes e g) = true := by
  apply decide_eq_true
  have hef : Precedes e f := of_decide_eq_true hef
  exact le_trans hef (of_decide_eq_true hfg)

lemma precedes_total (e f : Entry κ ν) : (decide (Precedes e f) || decide (Precedes f e)) = true := by
  simp only [Bool.or_eq_true, decide_eq_true_eq]
  exact le_total (digitSequence e.hash) (digitSequence f.hash)

lemma pairwise_of_hash_eq {hash : UInt64} {es : List (Entry κ ν)} (h : ∀ e ∈ es, e.hash = hash) :
    es.Pairwise Precedes := by
  apply List.pairwise_of_forall_mem_list
  intro e he f hf
  exact precedes_of_hash_eq ((h e he).trans (h f hf).symm)

lemma pairwise_mergeSort (es : List (Entry κ ν)) :
    (es.mergeSort fun e f => Precedes e f).Pairwise Precedes := by
  have hsorted := List.pairwise_mergeSort precedes_trans precedes_total es
  exact hsorted.imp of_decide_eq_true

/-- Sorting keeps entries of one hash in their order. -/
lemma bucket_mergeSort (hash : UInt64) (es : List (Entry κ ν)) :
    bucket hash (es.mergeSort fun e f => Precedes e f) = bucket hash es := by
  have hsame : (bucket hash es).Pairwise fun e f => decide (Precedes e f) = true :=
    (pairwise_of_hash_eq fun e he => (mem_bucket.mp he).2).imp decide_eq_true
  have hsub := (List.sublist_mergeSort precedes_trans precedes_total hsame List.filter_sublist).filter
    fun e => e.hash == hash
  rw [List.filter_eq_self.mpr fun e he => beq_iff_eq.mpr (mem_bucket.mp he).2] at hsub
  have hlength := ((List.mergeSort_perm es fun e f => decide (Precedes e f)).filter
    fun e => e.hash == hash).length_eq
  exact (hsub.eq_of_length hlength.symm).symm

/-- A sorted list of entries is known by its buckets. -/
lemma eq_of_bucket_eq {es fs : List (Entry κ ν)} (hes : es.Pairwise Precedes)
    (hfs : fs.Pairwise Precedes) (h : ∀ hash, bucket hash es = bucket hash fs) : es = fs := by
  have hmem : ∀ e, e ∈ es ↔ e ∈ fs := by
    intro e
    have he := congrArg (e ∈ ·) (h e.hash)
    simpa [mem_bucket] using he
  induction es generalizing fs with
  | nil =>
    symm
    exact List.eq_nil_iff_forall_not_mem.mpr fun e he => List.not_mem_nil ((hmem e).mpr he)
  | cons e es ih =>
    cases fs with
    | nil => exact absurd ((hmem e).mp List.mem_cons_self) List.not_mem_nil
    | cons f fs =>
      obtain ⟨he, htail⟩ := List.pairwise_cons.mp hes
      obtain ⟨hf, hftail⟩ := List.pairwise_cons.mp hfs
      have hef : e.hash = f.hash := by
        apply hash_eq_of_precedes
        · rcases List.mem_cons.mp ((hmem f).mpr List.mem_cons_self) with rfl | hmem
          · exact precedes_of_hash_eq rfl
          · exact he f hmem
        · rcases List.mem_cons.mp ((hmem e).mp List.mem_cons_self) with rfl | hmem
          · exact precedes_of_hash_eq rfl
          · exact hf e hmem
      have hhead := h f.hash
      simp only [bucket_cons, hef, if_true, List.cons.injEq] at hhead
      obtain ⟨rfl, -⟩ := hhead
      have hbuckets : ∀ hash, bucket hash es = bucket hash fs := by
        intro hash
        have hcons := h hash
        rw [bucket_cons, bucket_cons] at hcons
        split_ifs at hcons
        · exact List.tail_eq_of_cons_eq hcons
        · exact hcons
      refine congrArg (e :: ·) (ih htail hftail hbuckets fun g => ?_)
      have hg := congrArg (g ∈ ·) (hbuckets g.hash)
      simpa [mem_bucket] using hg

end Sorting

/-- Entries at this level share the digits of the path to it. -/
def SharePath (level : Nat) (es : List (Entry κ ν)) : Prop :=
  ∀ e ∈ es, ∀ f ∈ es, ∀ i < level, digit e.hash i = digit f.hash i

lemma Routed.of_forall₂ {level : Nat} {ds : List Nat} {ts : List (Trie κ ν)}
    (h : List.Forall₂ (Routed level) ds ts) {t : Trie κ ν} (ht : t ∈ ts) :
    ∃ d ∈ ds, Routed level d t := by
  obtain ⟨i, hi, rfl⟩ := List.getElem_of_mem ht
  have hi' : i < ds.length := by rwa [h.length_eq]
  exact ⟨ds[i], List.getElem_mem hi', (List.forall₂_iff_get.mp h).2 i hi' hi⟩

/-- Entries of different children differ at the level of the branch, in the order of the children. -/
lemma pairwise_entriesOf {level : Nat} (hlevel : level < levels) {ds : List Nat}
    {ts : List (Trie κ ν)} (routed : List.Forall₂ (Routed level) ds ts)
    (ascending : ds.Pairwise (· < ·)) (hts : ∀ t ∈ ts, t.entries.Pairwise Precedes)
    (shared : SharePath level (entriesOf ts)) : (entriesOf ts).Pairwise Precedes := by
  induction routed with
  | nil => exact List.Pairwise.nil
  | @cons d t ds ts hrouted routed ih =>
    obtain ⟨hd, hds⟩ := List.pairwise_cons.mp ascending
    rw [entriesOf_cons] at shared ⊢
    have hrest : (entriesOf ts).Pairwise Precedes := by
      apply ih hds
      · intro u hu
        exact hts u (List.mem_cons_of_mem _ hu)
      · intro e he f hf
        exact shared e (List.mem_append_right _ he) f (List.mem_append_right _ hf)
    refine List.pairwise_append.mpr ⟨hts t List.mem_cons_self, hrest, ?_⟩
    intro e he f hf
    obtain ⟨u, hu, hfu⟩ := mem_entriesOf.mp hf
    obtain ⟨c, hc, hu⟩ := Routed.of_forall₂ routed hu
    have hdigit : digit e.hash level < digit f.hash level := by
      rw [hrouted e he, hu f hfu]
      exact hd c hc
    have hbefore := shared e (List.mem_append_left _ he) f (List.mem_append_right _ hf)
    exact (digitSequence_lt hlevel hbefore hdigit).le

/-- A well-formed subtree lists its entries by their digits. -/
theorem WellFormed.pairwise_entries {level : Nat} {t : Trie κ ν} (wf : WellFormed level t)
    (shared : SharePath level t.entries) : t.entries.Pairwise Precedes := by
  induction wf with
  | leaf e =>
    rw [entries_leaf]
    exact List.pairwise_singleton _ _
  | @branch level bitmap ts inRange bits routed dense children ih =>
    rw [entries_branch] at shared ⊢
    refine pairwise_entriesOf inRange routed (digits_pairwise bitmap) ?_ shared
    intro t ht
    apply ih t ht
    intro e he f hf i hi
    obtain ⟨d, -, hrouted⟩ := Routed.of_forall₂ routed ht
    rcases Nat.lt_succ_iff_lt_or_eq.mp hi with hi | rfl
    · exact shared e (mem_entriesOf.mpr ⟨t, ht, he⟩) f (mem_entriesOf.mpr ⟨t, ht, hf⟩) i hi
    · exact (hrouted e he).trans (hrouted f hf).symm
  | chain last long agree =>
    rw [entries_chain]
    exact pairwise_of_hash_eq agree

end Trie

open Trie (digitSequence SharePath Precedes)

/-- The keys with their values, sorted by the digits of the hashes of the keys. Keys of one hash stay in
the order of the list. -/
def AssociationList.inHashOrder (a : AssociationList κ ν) : Table κ (List ν) :=
  a.table.mergeSort fun p q =>
    digitSequence (a.keying.hash p.1) ≤ digitSequence (a.keying.hash q.1)

/-- The multimap has the entries of the list, in the order of their hashes. -/
lemma Represents.entries_eq {m : Multimap κ ν} {a : AssociationList κ ν} (h : Represents m a) :
    m.entries = a.inHashOrder.map a.keying.entry := by
  have hroot : SharePath 0 m.entries := fun e _ f _ i hi => absurd hi (Nat.not_lt_zero i)
  have hsorted : m.entries.Pairwise Precedes := h.rooted.wellFormed.pairwise_entries hroot
  have hlist : a.inHashOrder.map a.keying.entry = a.entries.mergeSort fun e f => Precedes e f :=
    List.map_mergeSort fun p _ q _ => rfl
  rw [hlist]
  apply Trie.eq_of_bucket_eq hsorted (Trie.pairwise_mergeSort a.entries)
  intro hash
  rw [Trie.bucket_mergeSort, h.bucket_eq]

/-- After any run of updates the multimap lists its keys, its values and its associations, in each of
the ways it offers, as the association list has them once it is sorted by the digits of the hashes. -/
theorem multimap_run_iterates [BEq ν] (keying : Keying κ) (updates : List (Update κ ν)) :
    let m := Multimap.run keying updates
    let sorted := (AssociationList.run keying updates).inHashOrder
    m.grouped = sorted ∧ m.keys = sorted.map (·.1) ∧ m.values = sorted.flatMap (·.2) ∧
    (Cursor.start m.root).toList.map (fun e => (e.key, e.payload)) = sorted ∧
    m.associations.Yields (sorted.flatMap fun p => p.2.map (p.1, ·)) := by
  intro m sorted
  have hentries : m.entries = sorted.map _ := (Represents.run keying updates).entries_eq
  have hgrouped : m.grouped = sorted := by
    rw [Multimap.grouped, hentries, List.map_map]
    exact List.map_id _
  refine ⟨hgrouped, ?_, ?_, ?_, ?_⟩
  · rw [Multimap.keys, hentries, List.map_map]
    rfl
  · rw [Multimap.values, hentries, List.flatMap_map]
    rfl
  · rw [Cursor.toList_start]
    exact hgrouped
  · have hyields := Associations.yields_start m.root
    have hassociations : Associations.ofEntries m.root.entries =
        sorted.flatMap fun p => p.2.map (p.1, ·) := by
      change Associations.ofEntries m.entries = _
      rw [Associations.ofEntries, hentries, List.flatMap_map]
      rfl
    rw [hassociations] at hyields
    exact hyields

end TypedValues
