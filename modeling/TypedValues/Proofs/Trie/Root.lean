import TypedValues.Proofs.Trie.Erase
import TypedValues.Proofs.Trie.Put
import TypedValues.Trie.Multimap

/-!
# Roots

The root of a trie is a branch, also when it holds a single entry or none.
-/

namespace TypedValues.Trie

variable {κ ν : Type} (k : Keying κ)

/-- A whole trie: a well-formed branch, which need not be dense. -/
structure Rooted (root : Trie κ ν) : Prop where
  branch : ∃ bitmap ts, root = .branch bitmap ts
  wellFormed : WellFormed 0 root

lemma rooted_empty : Rooted (Trie.empty : Trie κ ν) where
  branch := ⟨0, [], rfl⟩
  wellFormed := wellFormed_branch_iff.mpr ⟨by decide, by decide, by rw [digits_zero]; exact .nil⟩

lemma rooted_singleton (e : Entry κ ν) : Rooted (singleton e) where
  branch := ⟨_, _, rfl⟩
  wellFormed := by
    have hd := digit_lt e.hash 0
    refine wellFormed_branch_iff.mpr ⟨by decide, bit_lt hd, ?_⟩
    rw [digits_bit hd]
    exact .cons ⟨by simp [Routed], trivial, .leaf e⟩ .nil

lemma Rooted.put {root : Trie κ ν} (h : Rooted root) (e : Entry κ ν) : Rooted (put k e 0 root) where
  branch := by
    obtain ⟨bitmap, ts, rfl⟩ := h.branch
    rw [Trie.put]
    split <;> exact ⟨_, _, rfl⟩
  wellFormed := h.wellFormed.put k (Nat.zero_le _) (onPath_root e.hash root)

lemma Rooted.eraseRoot {root : Trie κ ν} (h : Rooted root) (hash : UInt64) (key : κ) :
    Rooted (eraseRoot k hash key root) := by
  have hkept : ∀ t' ∈ erase k hash key 0 root, WellFormed 0 t' ∧ t'.Dense :=
    h.wellFormed.erase k (onPath_root hash root)
  rw [Trie.eraseRoot]
  split
  · exact rooted_empty
  · exact rooted_singleton _
  · rename_i t hleaf ht
    obtain ⟨wf, dense⟩ := hkept t ht
    refine ⟨?_, wf⟩
    cases wf with
    | leaf e => exact (hleaf e rfl).elim
    | branch => exact ⟨_, _, rfl⟩
    | chain last => exact absurd last (by decide)

lemma entries_eraseRoot (hash : UInt64) (key : κ) (root : Trie κ ν) :
    (eraseRoot k hash key root).entries = rest (erase k hash key 0 root) := by
  rw [eraseRoot]
  split <;> simp [Trie.empty, singleton, *]

end TypedValues.Trie
