import TypedValues.Proofs.Value.Irredundant
import TypedValues.Proofs.Value.Stored
import TypedValues.Proofs.Value.Symmetry

/-!
# Products of sets

Of two pairs of the product the first elements differ or the second ones do, so that the tuple of the earlier
pair does not answer to that of the later one, although equality of the elements need not be transitive. The
product therefore keeps a tuple for every pair, also in a trie.
-/

namespace TypedValues

section Lists

variable {α β : Type} {R : α → α → Prop} {S : β → β → Prop} {xs : List α} {ys : List β}

/-- The pairs of two lists, a later pair being later in the first list or else in the second. -/
lemma pairwise_product (hxs : xs.Pairwise R) (hys : ys.Pairwise S) :
    (xs ×ˢ ys).Pairwise fun p q => R p.1 q.1 ∨ S p.2 q.2 := by
  refine List.pairwise_flatMap.mpr ⟨fun x _ => ?_, hxs.imp fun hxy p hp q hq => .inl ?_⟩
  · exact List.pairwise_map.mpr (hys.imp .inr)
  · obtain ⟨_, -, rfl⟩ := List.mem_map.mp hp
    obtain ⟨_, -, rfl⟩ := List.mem_map.mp hq
    exact hxy

end Lists

namespace Value

variable {a b c d : Value} {s t : Ty}

lemma answers_pair : (tuple s [a, b]).answers (tuple t [c, d]) = true ↔
    s.comparable t = true ∧ a.answers c = true ∧ b.answers d = true := by
  rw [answers_iff, equal_tuple, answers_iff, answers_iff]
  simp only [sameContents, sameEach, Bool.and_true, Bool.and_eq_true, List.forall₂_cons,
    List.forall₂_nil_left_iff]
  tauto

/-- The tuples of a type with these pairs of fields. -/
def pairTuples (ty : Ty) (ps : List (Value × Value)) : List Value := ps.map fun p => .tuple ty [p.1, p.2]

lemma filterMap_pairTuples (ty : Ty) (ps : List (Value × Value)) :
    ((pairTuples ty ps).filterMap tuple?).filterMap TupleValue.pair? = ps := by
  rw [pairTuples, List.filterMap_map, List.filterMap_filterMap]
  exact List.filterMap_some

variable {xs ys : List Value}

lemma length_pairTuples (ty : Ty) (xs ys : List Value) :
    (pairTuples ty (xs ×ˢ ys)).length = xs.length * ys.length := by
  rw [pairTuples, List.length_map, List.length_product]

/-- No tuple answers to a later one if this is so of the first fields and of the second. -/
lemma irredundant_pairTuples (ty : Ty) (hxs : xs.Pairwise fun x y => x.answers y = false)
    (hys : ys.Pairwise fun x y => x.answers y = false) :
    (pairTuples ty (xs ×ˢ ys)).Pairwise fun x y => x.answers y = false := by
  refine List.pairwise_map.mpr ((pairwise_product hxs hys).imp fun {p q} hpq => ?_)
  rw [Bool.eq_false_iff]
  intro hanswers
  obtain ⟨-, hfirst, hsecond⟩ := answers_pair.mp hanswers
  rcases hpq with hpq | hpq
  · rw [hpq] at hfirst
    cases hfirst
  · rw [hpq] at hsecond
    cases hsecond

end Value

open Value (pairTuples)
open Members (listed)

/-- The product of two sets in tries, as a trie: each element of the one, in the order of its trie, with
each of the other. -/
def TrieSet.product (k : Keying Value) (ty : Ty) (s t : TrieSet Value) : TrieSet Value :=
  .ofList k (pairTuples ty (s.toList ×ˢ t.toList))

namespace Relation

variable {home : UniverseId} {a b : SetValue}

/-- The type of the tuples of a product. -/
def productType (home : UniverseId) (a b : SetValue) : Ty :=
  .tuple home [.plain a.elementType, .plain b.elementType]

lemma product_eq (home : UniverseId) (a b : SetValue) : (product home a b).toSet.elements =
    Members.ofList (pairTuples (productType home a b) (a.elements ×ˢ b.elements)) := by
  have hpairs : pairTuples (productType home a b) (a.elements ×ˢ b.elements) =
      a.elements.flatMap fun x => b.elements.map fun y => .tuple (productType home a b) [x, y] := by
    simp only [pairTuples, SProd.sprod, List.product, List.map_flatMap, List.map_map]
    rfl
  rw [hpairs]
  rfl

section Irredundant

variable (ha : a.elements.Pairwise fun x y => x.answers y = false)
  (hb : b.elements.Pairwise fun x y => x.answers y = false)
include ha hb

lemma elements_product : (product home a b).toSet.elements =
    pairTuples (productType home a b) (a.elements ×ˢ b.elements) := by
  rw [product_eq, Members.ofList_eq_self (Value.irredundant_pairTuples _ ha hb)]

lemma contains_product {t : Ty} {x y : Value} : (product home a b).toSet.contains (.tuple t [x, y]) = true ↔
    (productType home a b).comparable t = true ∧ a.contains x = true ∧ b.contains y = true := by
  rw [SetValue.contains, elements_product ha hb, Members.contains, pairTuples, List.any_map, List.any_eq_true,
    SetValue.contains, Members.contains, List.any_eq_true, SetValue.contains, Members.contains,
    List.any_eq_true]
  simp only [Function.comp_apply, Value.answers_pair]
  constructor
  · rintro ⟨⟨u, v⟩, huv, hcomparable, hux, hvy⟩
    obtain ⟨hu, hv⟩ := List.pair_mem_product.mp huv
    exact ⟨hcomparable, ⟨u, hu, hux⟩, v, hv, hvy⟩
  · rintro ⟨hcomparable, ⟨u, hu, hux⟩, v, hv, hvy⟩
    exact ⟨(u, v), List.pair_mem_product.mpr ⟨hu, hv⟩, hcomparable, hux, hvy⟩

/-- In tries the product has the tuples that it has as a list, though in the order of the hashes. -/
lemma stored_product {k : Keying Value} {s t : TrieSet Value}
    (h : k.ByContents (a.elements ++ b.elements ++ (product home a b).toSet.elements))
    (hs : Represents s.members (listed k a.elements)) (ht : Represents t.members (listed k b.elements)) :
    (TrieSet.product k (productType home a b) s t).size = a.size * b.size ∧
      (TrieSet.product k (productType home a b) s t).toList.Perm (product home a b).toSet.elements := by
  have hperm : (pairTuples (productType home a b) (s.toList ×ˢ t.toList)).Perm
      (product home a b).toSet.elements := by
    rw [elements_product ha hb]
    exact ((Members.toList_perm_listed hs).product (Members.toList_perm_listed ht)).map _
  have hsub : pairTuples (productType home a b) (s.toList ×ˢ t.toList) ⊆
      a.elements ++ b.elements ++ (product home a b).toSet.elements :=
    List.Subset.trans hperm.subset (List.subset_append_right ..)
  have hpair := Value.irredundant_pairTuples (productType home a b)
    (Members.pairwise_toList hs h (by simp) ha)
    (Members.pairwise_toList ht h (by simp) hb)
  have hstored := Members.represents_ofList h hsub
  rw [Members.ofList_eq_self hpair] at hstored
  constructor
  · rw [TrieSet.product, Members.size_listed hstored, hperm.length_eq, elements_product ha hb,
      Value.length_pairTuples]
    rfl
  · exact (Members.toList_perm_listed hstored).trans hperm

end Irredundant

/-- The product of two sets has one tuple for each pair of an element of the one and an element of the other,
with these two as its fields, and no other tuples. So it has as many as the two sizes multiplied, and contains
a pair exactly if the sets contain its fields. In tries, with hashes made of the contents, it has the same. -/
theorem product_exact {s : Session} (hs : s.Reached) {a b : SetValue} (ha : (a : Value) ∈ s.values)
    (hb : (b : Value) ∈ s.values) (home : UniverseId) :
    let p := product home a b
    let ty := productType home a b
    p.toSet.elements = pairTuples ty (a.elements ×ˢ b.elements) ∧ p.pairs = a.elements ×ˢ b.elements ∧
    p.size = a.size * b.size ∧
    (∀ t x y, p.toSet.contains (.tuple t [x, y]) = true ↔
      ty.comparable t = true ∧ a.contains x = true ∧ b.contains y = true) ∧
    ∀ k : Keying Value, k.ByContents (a.elements ++ b.elements ++ p.toSet.elements) →
      ∀ t u : TrieSet Value, Represents t.members (listed k a.elements) →
        Represents u.members (listed k b.elements) →
        (TrieSet.product k ty t u).size = a.size * b.size ∧
          (TrieSet.product k ty t u).toList.Perm p.toSet.elements := by
  intro p ty
  have ha := SetValue.irredundant_elements (hs.irredundant a (s.values_subset_roots ha))
  have hb := SetValue.irredundant_elements (hs.irredundant b (s.values_subset_roots hb))
  have helements : p.toSet.elements = pairTuples ty (a.elements ×ˢ b.elements) := elements_product ha hb
  refine ⟨helements, ?_, ?_, fun t x y => contains_product ha hb, fun k hk t u ht hu => ?_⟩
  · rw [pairs, tuples, helements, Value.filterMap_pairTuples]
  · rw [size, SetValue.size, helements, Value.length_pairTuples]
    rfl
  · exact stored_product ha hb hk ht hu

section Lists

open Value

/-- Empty lists have one hash and pairs of them another. -/
def hashByShape : Value → UInt64
  | .tuple _ _ => 1
  | _ => 0

/-- The product of a set of two empty lists with itself: four tuples, all of the same contents, which only the
types of their fields keep apart. -/
theorem product_exact_empty_lists :
    let ints : ListValue := .empty 0 .int
    let strs : ListValue := .empty 0 .str
    let a : SetValue := .of 0 [ints, strs]
    let s : Session := ⟨[a, strs, ints], []⟩
    let k : Keying Value := ⟨hashByShape, Value.equal⟩
    let t : TrieSet Value := .ofList k a.elements
    let p := product 0 a a
    s.Reached ∧ (a : Value) ∈ s.values ∧ k.ByContents (a.elements ++ a.elements ++ p.toSet.elements) ∧
      Represents t.members (listed k a.elements) ∧
      p.pairs = [((ints : Value), (ints : Value)), (ints, strs), (strs, ints), (strs, strs)] ∧ p.size = 4 ∧
      (TrieSet.product k (productType 0 a a) t t).size = 4 := by
  intro ints strs a s k t p
  have hs : s.Reached := by
    have h₁ : Session.Reached ⟨[ints], []⟩ := .step .start (.make (.list (.empty 0 .int)))
    have h₂ : Session.Reached ⟨[strs, ints], []⟩ := .step h₁ (.make (.list (.empty 0 .str)))
    exact .step h₂ (.make (.set (.of 0 (by simp))))
  have ha : (a : Value) ∈ s.values := by simp [s]
  have hapart : (ints : Value).answers strs = false := (answers_empty _ _).trans (by decide)
  have helements : a.elements = [(ints : Value), strs] :=
    Members.ofList_eq_self (List.pairwise_pair.mpr hapart)
  obtain ⟨htuples, hpairs, hsize, -, hstored⟩ := product_exact hs ha ha 0
  have hshape : ∀ v ∈ a.elements ++ a.elements ++ p.toSet.elements,
      (∃ ty, v = list ty []) ∨ ∃ ty x y, v = tuple ty [list x [], list y []] := by
    have hlists : ∀ v ∈ a.elements, ∃ ty, v = list ty [] := by
      rw [helements]
      exact List.forall_mem_cons.mpr ⟨⟨_, rfl⟩, List.forall_mem_singleton.mpr ⟨_, rfl⟩⟩
    intro v hv
    rcases List.mem_append.mp hv with hv | hv
    · exact .inl ((List.mem_append.mp hv).elim (hlists v) (hlists v))
    · rw [htuples] at hv
      obtain ⟨⟨x, y⟩, hxy, rfl⟩ := List.mem_map.mp hv
      obtain ⟨hx, hy⟩ := List.pair_mem_product.mp hxy
      obtain ⟨u, rfl⟩ := hlists x hx
      obtain ⟨w, rfl⟩ := hlists y hy
      exact .inr ⟨_, u, w, rfl⟩
  have hk : k.ByContents (a.elements ++ a.elements ++ p.toSet.elements) := by
    refine ⟨rfl, fun v hv w hw => ?_⟩
    rcases hshape v hv with ⟨_, rfl⟩ | ⟨_, _, _, rfl⟩ <;>
      rcases hshape w hw with ⟨_, rfl⟩ | ⟨_, _, _, rfl⟩ <;>
        simp [k, hashByShape, sameContents, sameEach]
  have ht : Represents t.members (listed k a.elements) := by
    have hlist : Represents t.members (listed k (Members.ofList a.elements)) :=
      Members.represents_ofList hk (by simp)
    have hpair := SetValue.irredundant_elements (hs.irredundant a (s.values_subset_roots ha))
    rwa [Members.ofList_eq_self hpair] at hlist
  refine ⟨hs, ha, hk, ht, ?_, ?_, ?_⟩
  · rw [hpairs, helements]
    rfl
  · rw [hsize, SetValue.size, helements]
    rfl
  · rw [(hstored k hk t t ht ht).1, SetValue.size, helements]
    rfl

end Lists
end Relation
end TypedValues
