import TypedValues.Proofs.Trie.WellFormed

/-!
# Lookup

On a well-formed trie `find?` looks through the bucket of the hash asked for and nothing else.
-/

namespace TypedValues.Trie

variable {κ ν : Type} (k : Keying κ)

/-- The entries of a subtree have the same digits as a hash, up to this level. -/
def OnPath (hash : UInt64) (level : Nat) (t : Trie κ ν) : Prop :=
  ∀ e ∈ t.entries, ∀ l < level, digit e.hash l = digit hash l

lemma onPath_root (hash : UInt64) (t : Trie κ ν) : OnPath hash 0 t := by
  intro e _ l hl
  omega

lemma OnPath.child {hash : UInt64} {level bitmap : Nat} {ts : List (Trie κ ν)} {t : Trie κ ν}
    (h : OnPath hash level (.branch bitmap ts)) (ht : t ∈ ts)
    (hrouted : Routed level (digit hash level) t) : OnPath hash (level + 1) t := by
  intro e he l hl
  by_cases hlevel : l = level
  · subst hlevel
    exact hrouted e he
  · refine h e ?_ l (by omega)
    rw [entries_branch]
    exact mem_entriesOf.mpr ⟨t, ht, he⟩

lemma OnPath.hash_eq {hash : UInt64} {t : Trie κ ν} (h : OnPath hash levels t) :
    ∀ e ∈ t.entries, e.hash = hash := fun e he => eq_of_digits (h e he)

/-- Children with another digit have nothing in the bucket. -/
lemma bucket_entriesOf_eq_nil {hash : UInt64} {level : Nat} {ds : List Nat} {ts : List (Trie κ ν)}
    (h : List.Forall₂ (Slot level) ds ts) (hd : digit hash level ∉ ds) :
    bucket hash (entriesOf ts) = [] := by
  induction h with
  | nil => rfl
  | @cons d t ds ts hslot _ ih =>
    simp only [List.mem_cons, not_or] at hd
    rw [entriesOf_cons, bucket_append, ih hd.2, List.append_nil]
    apply bucket_eq_nil
    rintro e he rfl
    exact hd.1 (hslot.1 e he)

lemma not_mem_digitsBelow (bitmap d : Nat) : d ∉ digitsBelow bitmap d :=
  fun h => lt_irrefl d (lt_of_mem_digitsBelow h)

lemma not_mem_digitsAbove (bitmap d : Nat) : d ∉ digitsAbove bitmap d :=
  fun h => lt_irrefl d (lt_of_mem_digitsAbove h)

/-- The child at a digit that a branch has, and its siblings on either side. -/
lemma slots_split {level bitmap d : Nat} {ts : List (Trie κ ν)} (hd : d < 32)
    (hbit : bitmap.testBit d = true) (h : List.Forall₂ (Slot level) (digits bitmap) ts) :
    ∃ pre t post, ts = pre ++ t :: post ∧ pre.length = position bitmap d ∧ Slot level d t ∧
      List.Forall₂ (Slot level) (digitsBelow bitmap d) pre ∧
      List.Forall₂ (Slot level) (digitsAbove bitmap d) post := by
  rw [digits_of_testBit hd hbit] at h
  obtain ⟨pre, t, post, rfl, hpre, ht, hpost⟩ := forall₂_cons_split h
  refine ⟨pre, t, post, rfl, ?_, ht, hpre, hpost⟩
  rw [← length_digitsBelow]
  exact hpre.length_eq.symm

/-- Where a branch lacks a digit, its children fall into those before and those after it. -/
lemma slots_gap {level bitmap d : Nat} {ts : List (Trie κ ν)} (hd : d < 32)
    (hbit : bitmap.testBit d = false) (h : List.Forall₂ (Slot level) (digits bitmap) ts) :
    ∃ pre post, ts = pre ++ post ∧ pre.length = position bitmap d ∧
      List.Forall₂ (Slot level) (digitsBelow bitmap d) pre ∧
      List.Forall₂ (Slot level) (digitsAbove bitmap d) post := by
  rw [digits_of_not_testBit hd hbit] at h
  obtain ⟨pre, post, rfl, hpre, hpost⟩ := forall₂_append_split h
  refine ⟨pre, post, rfl, ?_, hpre, hpost⟩
  rw [← length_digitsBelow]
  exact hpre.length_eq.symm

lemma findAt_append (hash : UInt64) (key : κ) (level : Nat) (pre : List (Trie κ ν)) (t : Trie κ ν)
    (post : List (Trie κ ν)) :
    findAt k hash key level (pre ++ t :: post) pre.length = find? k hash key level t := by
  induction pre with
  | nil => simp [findAt]
  | cons _ pre ih => simpa [findAt] using ih

/-- Lookup finds the first entry of the bucket whose key answers. -/
theorem find?_eq_find?_bucket (hash : UInt64) (key : κ) {level : Nat} {t : Trie κ ν}
    (wf : WellFormed level t) (path : OnPath hash level t) :
    find? k hash key level t = (bucket hash t.entries).find? fun e => k.same e.key key := by
  induction wf with
  | leaf e =>
    rw [find?, entries_leaf, bucket_cons, bucket_nil]
    by_cases h : e.hash = hash <;> by_cases hs : k.same e.key key = true <;> simp [answers, h, hs]
  | @branch level bitmap ts inRange bits routed dense children ih =>
    have hslots := (wellFormed_branch_iff.mp (.branch inRange bits routed dense children)).2.2
    have hd := digit_lt hash level
    rw [find?, entries_branch]
    by_cases hbit : bitmap.testBit (digit hash level) = true
    · obtain ⟨pre, t, post, rfl, hlen, ht, hpre, hpost⟩ := slots_split hd hbit hslots
      have hmem : t ∈ pre ++ t :: post := by simp
      rw [if_pos hbit, ← hlen, findAt_append, ih t hmem (path.child hmem ht.1), entriesOf_append,
        entriesOf_cons, bucket_append, bucket_append,
        bucket_entriesOf_eq_nil hpre (not_mem_digitsBelow _ _),
        bucket_entriesOf_eq_nil hpost (not_mem_digitsAbove _ _), List.nil_append, List.append_nil]
    · have hnone : digit hash level ∉ digits bitmap := fun h => hbit (mem_digits.mp h).2
      rw [if_neg hbit, bucket_entriesOf_eq_nil hslots hnone]
      rfl
  | chain last long agree =>
    subst last
    have hall := path.hash_eq
    rw [entries_chain] at hall
    rw [find?, entries_chain, bucket_eq_self hall]

end TypedValues.Trie
