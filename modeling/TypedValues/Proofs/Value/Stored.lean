import TypedValues.Proofs.Trie.Algebra
import TypedValues.Proofs.Trie.Invariant
import TypedValues.Proofs.Trie.Shape
import TypedValues.Proofs.Value.Members

/-!
# Values in tries

Where hashes are made of the contents of values, a trie of values holds what the list of them in the order of
insertion holds: the same values answer, and those of the same contents keep their order. Values of other
contents may change places, as a walk over the trie follows the hashes. A set that is made in such a walk can
differ from the one made along the list, but only where equality is not transitive.
-/

namespace TypedValues

open Trie (bucket bucket_eq_self)

section Order

variable {κ ν : Type} {m : Multimap κ ν} {a : AssociationList κ ν} {R : κ → κ → Prop}

/-- Keys of one hash come in the order of the list. -/
lemma Represents.pairwise_keys (h : Represents m a)
    (hkeys : a.keys.Pairwise fun x y => a.keying.hash x = a.keying.hash y → R x y) :
    m.keys.Pairwise fun x y => a.keying.hash x = a.keying.hash y → R x y := by
  have hlist : a.entries.Pairwise fun e f => e.hash = f.hash → R e.key f.key :=
    List.pairwise_map.mpr (List.pairwise_map.mp hkeys)
  have hhash {e : Entry κ (List ν)} (he : e ∈ m.entries) : e.hash = a.keying.hash e.key := by
    obtain ⟨p, -, rfl⟩ := List.mem_map.mp (h.mem_entries he)
    rfl
  refine List.pairwise_map.mpr (List.pairwise_iff_forall_sublist.mpr fun {e f} hsub heq => ?_)
  have he := hhash (hsub.subset List.mem_cons_self)
  have hf := hhash (hsub.subset (List.mem_cons_of_mem _ List.mem_cons_self))
  have hef : e.hash = f.hash := by rw [he, hf, heq]
  have hbucket : [e, f].Sublist (bucket e.hash a.entries) := by
    have hself : bucket e.hash [e, f] = [e, f] := bucket_eq_self (by simp [hef])
    rw [← h.bucket_eq, ← hself]
    exact hsub.filter _
  exact List.pairwise_iff_forall_sublist.mp hlist (hbucket.trans List.filter_sublist) hef

end Order

/-- Values are compared by their equality, and of these just those of the same contents have one hash. -/
structure Keying.ByContents (k : Keying Value) (vs : List Value) : Prop where
  same_eq : k.same = Value.equal
  hash_eq_iff : ∀ v ∈ vs, ∀ w ∈ vs, k.hash v = k.hash w ↔ v.sameContents w = true

variable {k : Keying Value} {us vs xs : List Value} {v w : Value}

lemma Keying.ByContents.answers_eq (h : k.ByContents us) (hv : v ∈ us) (hw : w ∈ us) :
    k.answers w v = v.answers w := by
  rw [Keying.answers, Value.answers, h.same_eq]
  congr 1
  rw [Bool.eq_iff_iff, beq_iff_eq]
  exact h.hash_eq_iff v hv w hw

namespace Members

/-- Values as keys that carry nothing. -/
def listed (k : Keying Value) (xs : List Value) : AssociationList Value Unit := ⟨k, xs.map (·, [()])⟩

lemma keys_listed (k : Keying Value) (xs : List Value) : (listed k xs).keys = xs := by
  rw [AssociationList.keys, listed, List.map_map]
  exact List.map_id _

section Insertion

variable (h : k.ByContents us)
include h

lemma binding?_listed (hxs : xs ⊆ us) (hv : v ∈ us) :
    (listed k xs).binding? v = (xs.find? fun x => x.answers v).map (·, [()]) := by
  rw [AssociationList.binding?, Table.binding?, listed, List.find?_map]
  congr 1
  exact List.find?_congr fun x hx => h.answers_eq (hxs hx) hv

lemma containsKey_listed (hxs : xs ⊆ us) (hv : v ∈ us) : (listed k xs).containsKey v = contains xs v := by
  rw [AssociationList.containsKey, binding?_listed h hxs hv, Option.isSome_map, List.isSome_find?, contains]

lemma insert_listed (hxs : xs ⊆ us) (hv : v ∈ us) :
    (listed k xs).insert v () = listed k (insert xs v) := by
  have hkey := containsKey_listed h hxs hv
  by_cases hcontains : contains xs v = true
  · obtain ⟨x, hx⟩ := Option.isSome_iff_exists.mp (List.isSome_find?.trans hcontains)
    have hheld : (listed k xs).contains v () = true := by
      rw [AssociationList.contains, AssociationList.get, binding?_listed h hxs hv, hx]
      rfl
    rw [AssociationList.insert, if_pos hheld, insert, if_pos hcontains]
  · have hnew := hkey.trans (Bool.eq_false_iff.mpr hcontains)
    rw [AssociationList.insert_of_new hnew, insert, if_neg hcontains, AssociationList.store,
      Table.put_of_new _ (AssociationList.binding?_eq_none hnew)]
    simp only [listed, List.map_append, List.map_cons, List.map_nil]

/-- Inserting values into a trie or into the list of them. -/
lemma represents_insertAll {s : TrieSet Value} (hs : Represents s.members (listed k xs)) (hxs : xs ⊆ us)
    (hvs : vs ⊆ us) : Represents (s.insertAll vs).members (listed k (insertAll xs vs)) := by
  induction vs generalizing s xs with
  | nil => exact hs
  | cons v vs ih =>
    obtain ⟨hv, hvs⟩ := List.cons_subset.mp hvs
    have hinserted : Represents (s.insert v).members (listed k (insert xs v)) := by
      rw [← insert_listed h hxs hv]
      exact hs.insert v ()
    refine ih hinserted (fun x hx => ?_) hvs
    rcases mem_insert hx with hx | rfl
    · exact hxs hx
    · exact hv

lemma represents_ofList (hvs : vs ⊆ us) : Represents (TrieSet.ofList k vs).members (listed k (ofList vs)) :=
  represents_insertAll h (Represents.empty k) (List.nil_subset us) hvs

end Insertion

section Elements

variable {s : TrieSet Value} (hs : Represents s.members (listed k xs))
include hs

lemma toList_perm_listed : s.toList.Perm xs := by
  have hperm := TrieSet.toList_perm hs
  rwa [keys_listed] at hperm

lemma size_listed : s.size = xs.length := by
  rw [TrieSet.size, hs.keyCount_eq, listed, List.length_map]

/-- In the order of the trie, too, no value answers to a later one: those that could have one hash. -/
lemma pairwise_toList (h : k.ByContents us) (hxs : xs ⊆ us)
    (hpair : xs.Pairwise fun x y => x.answers y = false) :
    s.toList.Pairwise fun x y => x.answers y = false := by
  have hkeys : (listed k xs).keys.Pairwise fun x y => k.hash x = k.hash y → x.answers y = false := by
    rw [keys_listed]
    refine hpair.imp ?_
    intro x y hxy _
    exact hxy
  refine (hs.pairwise_keys hkeys).imp_of_mem fun {x y} hx hy hxy => ?_
  rw [Bool.eq_false_iff]
  intro hanswers
  have hx := hxs ((toList_perm_listed hs).subset hx)
  have hy := hxs ((toList_perm_listed hs).subset hy)
  have hhash : k.hash x = k.hash y := (h.hash_eq_iff x hx y hy).mpr (Value.answers_iff.mp hanswers).1
  rw [hxy hhash] at hanswers
  cases hanswers

end Elements
end Members
end TypedValues
