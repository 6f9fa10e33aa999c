import TypedValues.Proofs.Trie.Lookup

/-!
# Storing an entry

Storing an entry changes the bucket of its hash only, where it takes the place of the first entry that
its key answers to, or goes to the end. The trie stays well formed.
-/

namespace TypedValues.Trie

variable {κ ν : Type} (k : Keying κ)

lemma putAt_append (e : Entry κ ν) (level : Nat) (pre : List (Trie κ ν)) (t : Trie κ ν)
    (post : List (Trie κ ν)) :
    putAt k e level (pre ++ t :: post) pre.length = pre ++ put k e level t :: post := by
  induction pre with
  | nil => simp [putAt]
  | cons _ pre ih => simpa [putAt] using ih

lemma insertIdx_append_length {α : Type} (pre post : List α) (a : α) :
    (pre ++ post).insertIdx pre.length a = pre ++ a :: post := by
  induction pre with
  | nil => simp
  | cons _ pre ih => simpa using ih

/-- Storing in a branch stores in the child of the digit, or adds a child where there is none. -/
lemma put_branch (e : Entry κ ν) {level bitmap : Nat} {ts : List (Trie κ ν)}
    (h : List.Forall₂ (Slot level) (digits bitmap) ts) :
    let d := digit e.hash level
    (∃ pre t post, ts = pre ++ t :: post ∧ bitmap.testBit d = true ∧ Slot level d t ∧
      List.Forall₂ (Slot level) (digitsBelow bitmap d) pre ∧
      List.Forall₂ (Slot level) (digitsAbove bitmap d) post ∧
      put k e level (.branch bitmap ts) = .branch bitmap (pre ++ put k e (level + 1) t :: post)) ∨
    ∃ pre post, ts = pre ++ post ∧
      List.Forall₂ (Slot level) (digitsBelow bitmap d) pre ∧
      List.Forall₂ (Slot level) (digitsAbove bitmap d) post ∧
      put k e level (.branch bitmap ts) =
        .branch (bitmap ||| 1 <<< d) (pre ++ .leaf e :: post) := by
  intro d
  have hd : d < 32 := digit_lt e.hash level
  by_cases hbit : bitmap.testBit d = true
  · obtain ⟨pre, t, post, rfl, hlen, ht, hpre, hpost⟩ := slots_split hd hbit h
    refine Or.inl ⟨pre, t, post, rfl, hbit, ht, hpre, hpost, ?_⟩
    rw [put]
    simp only [d] at hbit hlen
    rw [if_pos hbit, ← hlen, putAt_append]
  · obtain ⟨pre, post, rfl, hlen, hpre, hpost⟩ := slots_gap hd (by simpa using hbit) h
    refine Or.inr ⟨pre, post, rfl, hpre, hpost, ?_⟩
    rw [put]
    simp only [d] at hbit hlen
    rw [if_neg hbit, ← hlen, insertIdx_append_length]

/-- The subtree of two entries is well formed and orders them by their first different digit. -/
lemma pair_spec (a b : Entry κ ν) {level : Nat} (hlevel : level ≤ levels)
    (h : ∀ l < level, digit a.hash l = digit b.hash l) :
    WellFormed level (pair a b level) ∧
      ((pair a b level).entries = [a, b] ∨
        (pair a b level).entries = [b, a] ∧ a.hash ≠ b.hash) := by
  fun_induction pair a b level with
  | case1 level hle =>
    have hlast : level = levels := le_antisymm hlevel hle
    have hhash : a.hash = b.hash := eq_of_digits fun l hl => h l (by omega)
    exact ⟨.chain hlast (by simp) (by simp [hhash]), Or.inl (entries_chain _ _)⟩
  | case2 level hlt i j hij ih =>
    have hnext : ∀ l < level + 1, digit a.hash l = digit b.hash l := by
      intro l hl
      by_cases hl' : l = level
      · subst hl'
        exact hij
      · exact h l (by omega)
    obtain ⟨wf, hentries⟩ := ih (by omega) hnext
    have hi : i < 32 := digit_lt a.hash level
    have hrouted : Routed level i (pair a b (level + 1)) := by
      intro e he
      have hab : e = a ∨ e = b := by
        rcases hentries with h' | ⟨h', -⟩ <;> rw [h'] at he <;> simpa [or_comm] using he
      rcases hab with rfl | rfl
      · rfl
      · exact hij.symm
    have hdense : (pair a b (level + 1)).Dense := by
      refine dense_iff.mpr (Or.inr ?_)
      rcases hentries with h' | ⟨h', -⟩ <;> simp [h']
    refine ⟨wellFormed_branch_iff.mpr ⟨by omega, bit_lt hi, ?_⟩, by simpa using hentries⟩
    rw [digits_bit hi]
    exact .cons ⟨hrouted, hdense, wf⟩ .nil
  | case3 level hlt i j hij =>
    have hi : i < 32 := digit_lt a.hash level
    have hj : j < 32 := digit_lt b.hash level
    have hne : a.hash ≠ b.hash := fun h' => hij (congrArg (digit · level) h')
    have hslot : ∀ e : Entry κ ν, Slot level (digit e.hash level) (.leaf e) := fun e =>
      ⟨by simp [Routed], trivial, .leaf e⟩
    have hbits : 1 <<< i ||| 1 <<< j < 2 ^ 32 := Nat.or_lt_two_pow (bit_lt hi) (bit_lt hj)
    rcases Nat.lt_or_gt_of_ne hij with hlt' | hgt
    · rw [if_pos hlt']
      refine ⟨wellFormed_branch_iff.mpr ⟨by omega, hbits, ?_⟩, Or.inl (by simp)⟩
      rw [digits_two_bits hlt' hj]
      exact .cons (hslot a) (.cons (hslot b) .nil)
    · rw [if_neg (by omega)]
      refine ⟨wellFormed_branch_iff.mpr ⟨by omega, hbits, ?_⟩, Or.inr ⟨by simp, hne⟩⟩
      rw [Nat.or_comm, digits_two_bits hgt hi]
      exact .cons (hslot b) (.cons (hslot a) .nil)

lemma bucket_pair (a b : Entry κ ν) {level : Nat} (hlevel : level ≤ levels)
    (h : ∀ l < level, digit a.hash l = digit b.hash l) (hash : UInt64) :
    bucket hash (pair a b level).entries = bucket hash [a, b] := by
  rcases (pair_spec a b hlevel h).2 with he | ⟨he, hne⟩
  · rw [he]
  · rw [he]
    simp only [bucket_cons, bucket_nil]
    by_cases ha : a.hash = hash
    · have hb : ¬b.hash = hash := fun hb => hne (ha.trans hb.symm)
      simp [ha, hb]
    · simp [ha]

lemma length_le_length_putChain (e : Entry κ ν) (es : List (Entry κ ν)) :
    es.length ≤ (putChain k e es).length := by
  induction es with
  | nil => simp
  | cons old es ih =>
    rw [putChain]
    split <;> simp [ih]

lemma mem_putChain {e x : Entry κ ν} {es : List (Entry κ ν)} (h : x ∈ putChain k e es) :
    x = e ∨ x ∈ es := by
  induction es with
  | nil => simpa [putChain] using h
  | cons old es ih =>
    rw [putChain] at h
    split at h
    · rcases List.mem_cons.mp h with h | h
      · exact Or.inl h
      · exact Or.inr (List.mem_cons_of_mem _ h)
    · rcases List.mem_cons.mp h with rfl | h
      · exact Or.inr (by simp)
      · exact (ih h).imp_right (List.mem_cons_of_mem _)

/-- Storing an entry puts it into the bucket of its hash and leaves all other buckets alone. -/
theorem bucket_put (e : Entry κ ν) {level : Nat} {t : Trie κ ν} (wf : WellFormed level t)
    (hlevel : level ≤ levels) (path : OnPath e.hash level t) (hash : UInt64) :
    bucket hash (put k e level t).entries =
      if hash = e.hash then putChain k e (bucket hash t.entries) else bucket hash t.entries := by
  induction wf with
  | leaf old =>
    have hagree : ∀ l < _, digit old.hash l = digit e.hash l := path old (by simp)
    rw [put]
    by_cases hanswers : answers k e.hash e.key old = true
    · have hsame : old.hash = e.hash ∧ k.same old.key e.key = true := by
        simpa [answers] using hanswers
      rw [if_pos hanswers]
      simp only [entries_leaf, bucket_cons, bucket_nil, hsame.1]
      by_cases h : e.hash = hash
      · simp [h, putChain, hsame.2]
      · simp [h, Ne.symm h]
    · rw [if_neg hanswers, bucket_pair old e hlevel hagree]
      simp only [entries_leaf, bucket_cons, bucket_nil]
      by_cases h : e.hash = hash
      · by_cases hold : old.hash = hash
        · have hsame : k.same old.key e.key = false := by
            simpa [answers, hold, h] using hanswers
          simp [h, hold, putChain, hsame]
        · simp [h, hold, putChain]
      · simp [h, Ne.symm h]
  | @branch level bitmap ts inRange bits routed dense children ih =>
    have hslots := (wellFormed_branch_iff.mp (.branch inRange bits routed dense children)).2.2
    have hbelow : digit e.hash level ∉ digitsBelow bitmap (digit e.hash level) :=
      not_mem_digitsBelow _ _
    have habove : digit e.hash level ∉ digitsAbove bitmap (digit e.hash level) :=
      not_mem_digitsAbove _ _
    rcases put_branch k e hslots with
      ⟨pre, t, post, rfl, -, ht, hpre, hpost, hput⟩ | ⟨pre, post, rfl, hpre, hpost, hput⟩
    · have hmem : t ∈ pre ++ t :: post := by simp
      rw [hput]
      simp only [entries_branch, entriesOf_append, entriesOf_cons, bucket_append,
        ih t hmem inRange (path.child hmem ht.1)]
      by_cases h : hash = e.hash
      · subst h
        rw [bucket_entriesOf_eq_nil hpre hbelow, bucket_entriesOf_eq_nil hpost habove]
        simp
      · simp [h]
    · rw [hput]
      simp only [entries_branch, entriesOf_append, entriesOf_cons, entries_leaf, bucket_append,
        bucket_cons, bucket_nil]
      by_cases h : hash = e.hash
      · subst h
        rw [bucket_entriesOf_eq_nil hpre hbelow, bucket_entriesOf_eq_nil hpost habove]
        simp [putChain]
      · simp [h, Ne.symm h]
  | @chain level chainHash es last long agree =>
    subst last
    have hall := path.hash_eq
    rw [entries_chain] at hall
    rw [put, entries_chain, entries_chain]
    by_cases h : hash = e.hash
    · subst h
      rw [if_pos rfl, bucket_eq_self hall, bucket_eq_self]
      intro x hx
      rcases mem_putChain k hx with rfl | hx
      · rfl
      · exact hall x hx
    · rw [if_neg h, bucket_eq_nil, bucket_eq_nil]
      · intro x hx hxh
        exact h (hxh.symm.trans (hall x hx))
      · intro x hx hxh
        rcases mem_putChain k hx with rfl | hx
        · exact h hxh.symm
        · exact h (hxh.symm.trans (hall x hx))

lemma mem_entries_put {e x : Entry κ ν} {level : Nat} {t : Trie κ ν} (wf : WellFormed level t)
    (hlevel : level ≤ levels) (path : OnPath e.hash level t) (h : x ∈ (put k e level t).entries) :
    x = e ∨ x ∈ t.entries := by
  have hx : x ∈ bucket x.hash (put k e level t).entries := mem_bucket.mpr ⟨h, rfl⟩
  rw [bucket_put k e wf hlevel path] at hx
  split at hx
  · exact (mem_putChain k hx).imp_right fun hx => (mem_bucket.mp hx).1
  · exact Or.inr (mem_bucket.mp hx).1

lemma length_entries_le_put (e : Entry κ ν) {level : Nat} {t : Trie κ ν} (wf : WellFormed level t)
    (hlevel : level ≤ levels) (path : OnPath e.hash level t) :
    t.entries.length ≤ (put k e level t).entries.length := by
  induction wf with
  | leaf old =>
    have hagree : ∀ l < _, digit old.hash l = digit e.hash l := path old (by simp)
    rw [put]
    split
    · simp
    · rcases (pair_spec old e hlevel hagree).2 with h | ⟨h, -⟩ <;> simp [h]
  | @branch level bitmap ts inRange bits routed dense children ih =>
    have hslots := (wellFormed_branch_iff.mp (.branch inRange bits routed dense children)).2.2
    rcases put_branch k e hslots with
      ⟨pre, t, post, rfl, -, ht, -, -, hput⟩ | ⟨pre, post, rfl, -, -, hput⟩
    · have hmem : t ∈ pre ++ t :: post := by simp
      have hle := ih t hmem inRange (path.child hmem ht.1)
      rw [hput]
      simp only [entries_branch, entriesOf_append, entriesOf_cons, List.length_append]
      omega
    · rw [hput]
      simp only [entries_branch, entriesOf_append, entriesOf_cons, List.length_append, entries_leaf]
      omega
  | chain last long agree =>
    rw [put, entries_chain, entries_chain]
    exact length_le_length_putChain k e _

lemma Dense.put {e : Entry κ ν} {level : Nat} {t : Trie κ ν} (h : t.Dense)
    (wf : WellFormed level t) (hlevel : level ≤ levels) (path : OnPath e.hash level t) :
    (put k e level t).Dense := by
  rcases dense_iff.mp h with ⟨old, rfl⟩ | hlen
  · have hagree : ∀ l < level, digit old.hash l = digit e.hash l := path old (by simp)
    rw [Trie.put]
    split
    · trivial
    · refine dense_iff.mpr (Or.inr ?_)
      rcases (pair_spec old e hlevel hagree).2 with h | ⟨h, -⟩ <;> simp [h]
  · exact dense_iff.mpr (Or.inr (hlen.trans (length_entries_le_put k e wf hlevel path)))

theorem WellFormed.put {e : Entry κ ν} {level : Nat} {t : Trie κ ν} (wf : WellFormed level t)
    (hlevel : level ≤ levels) (path : OnPath e.hash level t) : WellFormed level (put k e level t) := by
  induction wf with
  | leaf old =>
    have hagree : ∀ l < _, digit old.hash l = digit e.hash l := path old (by simp)
    rw [Trie.put]
    split
    · exact .leaf e
    · exact (pair_spec old e hlevel hagree).1
  | @branch level bitmap ts inRange bits routed dense children ih =>
    have hslots := (wellFormed_branch_iff.mp (.branch inRange bits routed dense children)).2.2
    have hd : digit e.hash level < 32 := digit_lt e.hash level
    rcases put_branch k e hslots with
      ⟨pre, t, post, rfl, hbit, ht, hpre, hpost, hput⟩ | ⟨pre, post, rfl, hpre, hpost, hput⟩
    · have hmem : t ∈ pre ++ t :: post := by simp
      have hpath := path.child hmem ht.1
      have hrouted : Routed level (digit e.hash level) (Trie.put k e (level + 1) t) := by
        intro x hx
        rcases mem_entries_put k ht.2.2 inRange hpath hx with rfl | hx
        · rfl
        · exact ht.1 x hx
      rw [hput]
      refine wellFormed_branch_iff.mpr ⟨inRange, bits, ?_⟩
      rw [digits_of_testBit hd hbit]
      exact List.rel_append hpre
        (.cons ⟨hrouted, ht.2.1.put k ht.2.2 inRange hpath, ih t hmem inRange hpath⟩ hpost)
    · rw [hput]
      refine wellFormed_branch_iff.mpr ⟨inRange, Nat.or_lt_two_pow bits (bit_lt hd), ?_⟩
      rw [digits_setBit bitmap hd]
      exact List.rel_append hpre (.cons ⟨by simp [Routed], trivial, .leaf e⟩ hpost)
  | @chain level chainHash es last long agree =>
    subst last
    have hall := path.hash_eq
    rw [entries_chain] at hall
    have hchain : chainHash = e.hash := by
      obtain ⟨x, hx⟩ := List.exists_mem_of_length_pos (by omega : 0 < es.length)
      exact (agree x hx).symm.trans (hall x hx)
    rw [Trie.put]
    refine .chain rfl (long.trans (length_le_length_putChain k e es)) ?_
    intro x hx
    rcases mem_putChain k hx with rfl | hx
    · exact hchain.symm
    · exact agree x hx

end TypedValues.Trie
