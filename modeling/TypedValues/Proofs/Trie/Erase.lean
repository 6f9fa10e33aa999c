import TypedValues.Proofs.Trie.Lookup

/-!
# Removing an entry

A removal takes the first entry that answers to the key out of the bucket of its hash. What is left is
packed: a subtree without entries is gone, and one with a single entry has become that entry.
-/

namespace TypedValues.Trie

variable {κ ν : Type} (k : Keying κ)

/-- The entries of what a removal leaves. -/
def rest (t : Option (Trie κ ν)) : List (Entry κ ν) := t.elim [] entries

@[simp] lemma rest_none : rest (none : Option (Trie κ ν)) = [] := rfl

@[simp] lemma rest_some (t : Trie κ ν) : rest (some t) = t.entries := rfl

lemma eraseAt_append (hash : UInt64) (key : κ) (level : Nat) (pre : List (Trie κ ν)) (t : Trie κ ν)
    (post : List (Trie κ ν)) :
    eraseAt k hash key level (pre ++ t :: post) pre.length = erase k hash key level t := by
  induction pre with
  | nil => simp [eraseAt]
  | cons _ pre ih => simpa [eraseAt] using ih

@[simp] lemma rest_pack (bitmap : Nat) (ts : List (Trie κ ν)) :
    rest (pack bitmap ts) = entriesOf ts := by
  unfold pack
  split <;> simp

@[simp] lemma rest_packChain (hash : UInt64) (es : List (Entry κ ν)) :
    rest (packChain hash es) = es := by
  unfold packChain
  split <;> simp

/-- What is left of a branch is well formed and not a lone child. -/
lemma pack_spec {level bitmap : Nat} {ts : List (Trie κ ν)} (inRange : level < levels)
    (bits : bitmap < 2 ^ 32) (h : List.Forall₂ (Slot level) (digits bitmap) ts) :
    ∀ t ∈ pack bitmap ts, WellFormed level t ∧ t.Dense := by
  have hall := (forall₂_slot_iff.mp h).2
  unfold pack
  intro t ht
  split at ht
  · simp at ht
  · obtain rfl : Trie.leaf _ = t := by simpa using ht
    exact ⟨.leaf _, trivial⟩
  · rename_i hnil hleaf
    obtain rfl : Trie.branch bitmap ts = t := by simpa using ht
    refine ⟨wellFormed_branch_iff.mpr ⟨inRange, bits, h⟩, dense_iff.mpr (Or.inr ?_)⟩
    rw [entries_branch]
    match ts, hnil, hleaf, hall with
    | [t], _, hleaf, hall =>
      rcases dense_iff.mp (hall t (by simp)).1 with ⟨e, rfl⟩ | hlen
      · exact (hleaf e rfl).elim
      · simpa using hlen
    | s :: t :: ts, _, _, hall =>
      have hs := (hall s (by simp)).1.one_le_length
      have ht := (hall t (by simp)).1.one_le_length
      simp only [entriesOf_cons, List.length_append]
      omega

lemma packChain_spec {level : Nat} {hash : UInt64} {es : List (Entry κ ν)} (last : level = levels)
    (agree : ∀ e ∈ es, e.hash = hash) :
    ∀ t ∈ packChain hash es, WellFormed level t ∧ t.Dense := by
  intro t ht
  match es, agree, ht with
  | [e], _, ht =>
    obtain rfl : Trie.leaf e = t := by simpa [packChain] using ht
    exact ⟨.leaf e, trivial⟩
  | e :: f :: es, agree, ht =>
    obtain rfl : Trie.chain hash (e :: f :: es) = t := by simpa [packChain] using ht
    exact ⟨.chain last (by simp) agree, dense_iff.mpr (Or.inr (by simp))⟩
  | [], _, ht => simp [packChain] at ht

/-- A removal from a branch removes from the child of the digit, where there is one. -/
lemma erase_branch (hash : UInt64) (key : κ) {level bitmap : Nat} {ts : List (Trie κ ν)}
    (h : List.Forall₂ (Slot level) (digits bitmap) ts) :
    let d := digit hash level
    (∃ pre t post, ts = pre ++ t :: post ∧ bitmap.testBit d = true ∧ Slot level d t ∧
      List.Forall₂ (Slot level) (digitsBelow bitmap d) pre ∧
      List.Forall₂ (Slot level) (digitsAbove bitmap d) post ∧
      erase k hash key level (.branch bitmap ts) =
        match erase k hash key (level + 1) t with
        | some t' => pack bitmap (pre ++ t' :: post)
        | none => pack (bitmap ^^^ 1 <<< d) (pre ++ post)) ∨
    bitmap.testBit d = false ∧ erase k hash key level (.branch bitmap ts) = pack bitmap ts := by
  intro d
  have hd : d < 32 := digit_lt hash level
  by_cases hbit : bitmap.testBit d = true
  · obtain ⟨pre, t, post, rfl, hlen, ht, hpre, hpost⟩ := slots_split hd hbit h
    refine Or.inl ⟨pre, t, post, rfl, hbit, ht, hpre, hpost, ?_⟩
    rw [erase]
    simp only [d] at hbit hlen
    rw [if_pos hbit, ← hlen, eraseAt_append]
    split <;> simp [*, d, List.eraseIdx_append_of_length_le]
  · refine Or.inr ⟨by simpa using hbit, ?_⟩
    rw [erase]
    simp only [d] at hbit
    rw [if_neg hbit]

/-- A removal takes the first entry whose key answers out of the bucket of the hash and leaves all
other buckets alone. -/
theorem bucket_erase (hash : UInt64) (key : κ) {level : Nat} {t : Trie κ ν}
    (wf : WellFormed level t) (path : OnPath hash level t) (other : UInt64) :
    bucket other (rest (erase k hash key level t)) =
      if other = hash then (bucket other t.entries).eraseP fun e => k.same e.key key
      else bucket other t.entries := by
  induction wf with
  | leaf e =>
    rw [erase]
    by_cases hanswers : answers k hash key e = true
    · have hsame : e.hash = hash ∧ k.same e.key key = true := by simpa [answers] using hanswers
      rw [if_pos hanswers]
      simp only [rest_none, entries_leaf, bucket_cons, bucket_nil, hsame.1]
      by_cases h : hash = other
      · simp [h, hsame.2]
      · simp [h, Ne.symm h]
    · rw [if_neg hanswers]
      simp only [rest_some, entries_leaf, bucket_cons, bucket_nil]
      by_cases h : e.hash = other
      · by_cases ho : other = hash
        · have hsame : k.same e.key key = false := by simpa [answers, h, ho] using hanswers
          simp [h, ho, hsame]
        · simp [h, ho]
      · simp [h]
  | @branch level bitmap ts inRange bits routed dense children ih =>
    have hslots := (wellFormed_branch_iff.mp (.branch inRange bits routed dense children)).2.2
    rcases erase_branch k hash key hslots with
      ⟨pre, t, post, rfl, hbit, ht, hpre, hpost, herase⟩ | ⟨hbit, herase⟩
    · have hmem : t ∈ pre ++ t :: post := by simp
      have hrest : rest (erase k hash key level (.branch bitmap (pre ++ t :: post))) =
          entriesOf pre ++ rest (erase k hash key (level + 1) t) ++ entriesOf post := by
        rw [herase]
        split <;> simp [*]
      rw [hrest]
      simp only [entries_branch, entriesOf_append, entriesOf_cons, bucket_append,
        ih t hmem (path.child hmem ht.1)]
      by_cases h : other = hash
      · subst h
        rw [bucket_entriesOf_eq_nil hpre (not_mem_digitsBelow _ _),
          bucket_entriesOf_eq_nil hpost (not_mem_digitsAbove _ _)]
        simp
      · simp [h]
    · have hnone : digit hash level ∉ digits bitmap := by simp [mem_digits, hbit]
      rw [herase, rest_pack, entries_branch]
      by_cases h : other = hash
      · subst h
        rw [bucket_entriesOf_eq_nil hslots hnone]
        simp
      · simp [h]
  | @chain level chainHash es last long agree =>
    subst last
    have hall := path.hash_eq
    rw [entries_chain] at hall
    rw [erase, rest_packChain, entries_chain]
    by_cases h : other = hash
    · subst h
      rw [if_pos rfl, bucket_eq_self hall, bucket_eq_self]
      exact fun x hx => hall x (List.mem_of_mem_eraseP hx)
    · have hne : ∀ x ∈ es, x.hash ≠ other := fun x hx hxo => h (hxo.symm.trans (hall x hx))
      rw [if_neg h, bucket_eq_nil hne, bucket_eq_nil]
      exact fun x hx => hne x (List.mem_of_mem_eraseP hx)

lemma mem_rest_erase {hash : UInt64} {key : κ} {x : Entry κ ν} {level : Nat} {t : Trie κ ν}
    (wf : WellFormed level t) (path : OnPath hash level t)
    (h : x ∈ rest (erase k hash key level t)) : x ∈ t.entries := by
  have hx : x ∈ bucket x.hash (rest (erase k hash key level t)) := mem_bucket.mpr ⟨h, rfl⟩
  rw [bucket_erase k hash key wf path] at hx
  split at hx
  · exact (mem_bucket.mp (List.mem_of_mem_eraseP hx)).1
  · exact (mem_bucket.mp hx).1

theorem WellFormed.erase {hash : UInt64} {key : κ} {level : Nat} {t : Trie κ ν}
    (wf : WellFormed level t) (path : OnPath hash level t) :
    ∀ t' ∈ erase k hash key level t, WellFormed level t' ∧ t'.Dense := by
  induction wf with
  | leaf e =>
    intro t' ht'
    rw [Trie.erase] at ht'
    split at ht'
    · simp at ht'
    · obtain rfl : Trie.leaf e = t' := by simpa using ht'
      exact ⟨.leaf e, trivial⟩
  | @branch level bitmap ts inRange bits routed dense children ih =>
    have hslots := (wellFormed_branch_iff.mp (.branch inRange bits routed dense children)).2.2
    have hd : digit hash level < 32 := digit_lt hash level
    rcases erase_branch k hash key hslots with
      ⟨pre, t, post, rfl, hbit, ht, hpre, hpost, herase⟩ | ⟨hbit, herase⟩
    · have hmem : t ∈ pre ++ t :: post := by simp
      have hpath := path.child hmem ht.1
      rw [herase]
      split
      · rename_i t' ht'
        have hrouted : Routed level (digit hash level) t' := by
          intro x hx
          have hrest : x ∈ rest (Trie.erase k hash key (level + 1) t) := by
            rw [ht', rest_some]
            exact hx
          exact ht.1 x (mem_rest_erase k ht.2.2 hpath hrest)
        have hkept := ih t hmem hpath t' ht'
        refine pack_spec inRange bits ?_
        rw [digits_of_testBit hd hbit]
        exact List.rel_append hpre (.cons ⟨hrouted, hkept.2, hkept.1⟩ hpost)
      · refine pack_spec inRange (Nat.xor_lt_two_pow bits (bit_lt hd)) ?_
        rw [digits_clearBit hd hbit]
        exact List.rel_append hpre hpost
    · rw [herase]
      exact pack_spec inRange bits hslots
  | @chain level chainHash es last long agree =>
    rw [Trie.erase]
    exact packChain_spec last fun x hx => agree x (List.mem_of_mem_eraseP hx)

end TypedValues.Trie
