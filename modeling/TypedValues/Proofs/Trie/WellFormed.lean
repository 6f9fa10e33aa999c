import TypedValues.Proofs.Trie.Digits

/-!
# Well-formed tries

A well-formed trie routes every entry by the digits of its hash, has a child for each bit of a
branch, and is no deeper than needed. Lookup and update of such a trie are lookup and update of the
*bucket* of a hash: the entries that have this hash, in the order of the trie.
-/

namespace TypedValues.Trie

variable {κ ν : Type}

/-- The entries with one hash. -/
def bucket (hash : UInt64) (es : List (Entry κ ν)) : List (Entry κ ν) :=
  es.filter fun e => e.hash == hash

@[simp] lemma bucket_nil (hash : UInt64) : bucket hash ([] : List (Entry κ ν)) = [] := rfl

@[simp] lemma bucket_append (hash : UInt64) (es fs : List (Entry κ ν)) :
    bucket hash (es ++ fs) = bucket hash es ++ bucket hash fs := by
  simp [bucket]

lemma bucket_cons (hash : UInt64) (e : Entry κ ν) (es : List (Entry κ ν)) :
    bucket hash (e :: es) = if e.hash = hash then e :: bucket hash es else bucket hash es := by
  by_cases h : e.hash = hash <;> simp [bucket, h]

lemma mem_bucket {hash : UInt64} {e : Entry κ ν} {es : List (Entry κ ν)} :
    e ∈ bucket hash es ↔ e ∈ es ∧ e.hash = hash := by
  simp [bucket]

lemma bucket_eq_nil {hash : UInt64} {es : List (Entry κ ν)} (h : ∀ e ∈ es, e.hash ≠ hash) :
    bucket hash es = [] := by
  simpa [bucket, List.filter_eq_nil_iff] using h

lemma bucket_eq_self {hash : UInt64} {es : List (Entry κ ν)} (h : ∀ e ∈ es, e.hash = hash) :
    bucket hash es = es := by
  simpa [bucket, List.filter_eq_self] using h

@[simp] lemma entries_leaf (e : Entry κ ν) : (Trie.leaf e).entries = [e] := by
  rw [entries]

@[simp] lemma entries_branch (bitmap : Nat) (ts : List (Trie κ ν)) :
    (Trie.branch bitmap ts).entries = entriesOf ts := by
  rw [entries]

@[simp] lemma entries_chain (hash : UInt64) (es : List (Entry κ ν)) :
    (Trie.chain hash es).entries = es := by
  rw [entries]

@[simp] lemma entriesOf_nil : entriesOf ([] : List (Trie κ ν)) = [] := by
  rw [entriesOf]

@[simp] lemma entriesOf_cons (t : Trie κ ν) (ts : List (Trie κ ν)) :
    entriesOf (t :: ts) = t.entries ++ entriesOf ts := by
  rw [entriesOf]

@[simp] lemma entriesOf_append (ts us : List (Trie κ ν)) :
    entriesOf (ts ++ us) = entriesOf ts ++ entriesOf us := by
  induction ts with
  | nil => simp
  | cons t ts ih => simp [ih]

lemma mem_entriesOf {e : Entry κ ν} {ts : List (Trie κ ν)} :
    e ∈ entriesOf ts ↔ ∃ t ∈ ts, e ∈ t.entries := by
  induction ts with
  | nil => simp
  | cons t ts ih => simp [ih]

/-- A subtree other than a single entry holds at least two. -/
def Dense : Trie κ ν → Prop
  | .leaf _ => True
  | t => 2 ≤ t.entries.length

/-- The entries of a child have its digit. -/
def Routed (level d : Nat) (t : Trie κ ν) : Prop := ∀ e ∈ t.entries, digit e.hash level = d

/-- A subtree at this level that lookup can rely on. -/
inductive WellFormed : Nat → Trie κ ν → Prop where
  | leaf {level : Nat} (e : Entry κ ν) : WellFormed level (.leaf e)
  | branch {level bitmap : Nat} {ts : List (Trie κ ν)} (inRange : level < levels)
      (bits : bitmap < 2 ^ 32) (routed : List.Forall₂ (Routed level) (digits bitmap) ts)
      (dense : ∀ t ∈ ts, t.Dense) (children : ∀ t ∈ ts, WellFormed (level + 1) t) :
      WellFormed level (.branch bitmap ts)
  | chain {level : Nat} {hash : UInt64} {es : List (Entry κ ν)} (last : level = levels)
      (long : 2 ≤ es.length) (agree : ∀ e ∈ es, e.hash = hash) : WellFormed level (.chain hash es)

/-- What a branch at this level asks of the child at a digit. -/
def Slot (level d : Nat) (t : Trie κ ν) : Prop :=
  Routed level d t ∧ t.Dense ∧ WellFormed (level + 1) t

lemma forall₂_slot_iff {level : Nat} {ds : List Nat} {ts : List (Trie κ ν)} :
    List.Forall₂ (Slot level) ds ts ↔
      List.Forall₂ (Routed level) ds ts ∧ ∀ t ∈ ts, t.Dense ∧ WellFormed (level + 1) t := by
  constructor
  · intro h
    induction h with
    | nil => simp
    | cons hslot _ ih => exact ⟨.cons hslot.1 ih.1, by simpa using ⟨hslot.2, ih.2⟩⟩
  · rintro ⟨h, ht⟩
    induction h with
    | nil => exact .nil
    | cons hrouted _ ih =>
      simp only [List.mem_cons, forall_eq_or_imp] at ht
      exact .cons ⟨hrouted, ht.1⟩ (ih ht.2)

lemma wellFormed_branch_iff {level bitmap : Nat} {ts : List (Trie κ ν)} :
    WellFormed level (.branch bitmap ts) ↔
      level < levels ∧ bitmap < 2 ^ 32 ∧ List.Forall₂ (Slot level) (digits bitmap) ts := by
  rw [forall₂_slot_iff]
  constructor
  · rintro (_ | ⟨inRange, bits, routed, dense, children⟩)
    exact ⟨inRange, bits, routed, fun t ht => ⟨dense t ht, children t ht⟩⟩
  · rintro ⟨inRange, bits, routed, h⟩
    exact .branch inRange bits routed (fun t ht => (h t ht).1) (fun t ht => (h t ht).2)

lemma dense_iff {t : Trie κ ν} : t.Dense ↔ (∃ e, t = .leaf e) ∨ 2 ≤ t.entries.length := by
  cases t <;> simp [Dense]

lemma Dense.one_le_length {t : Trie κ ν} (h : t.Dense) : 1 ≤ t.entries.length := by
  rcases dense_iff.mp h with ⟨e, rfl⟩ | h
  · simp
  · omega

section Split

variable {α β : Type} {R : α → β → Prop}

/-- What is paired with two lists joined together comes apart in the same place. -/
lemma forall₂_append_split {as bs : List α} {xs : List β} (h : List.Forall₂ R (as ++ bs) xs) :
    ∃ pre post, xs = pre ++ post ∧ List.Forall₂ R as pre ∧ List.Forall₂ R bs post := by
  refine ⟨xs.take as.length, xs.drop as.length, (List.take_append_drop _ _).symm, ?_, ?_⟩
  · simpa using List.forall₂_take as.length h
  · simpa using List.forall₂_drop as.length h

lemma forall₂_cons_split {as bs : List α} {a : α} {xs : List β}
    (h : List.Forall₂ R (as ++ a :: bs) xs) :
    ∃ pre x post, xs = pre ++ x :: post ∧ List.Forall₂ R as pre ∧ R a x ∧
      List.Forall₂ R bs post := by
  obtain ⟨pre, rest, rfl, hpre, hrest⟩ := forall₂_append_split h
  cases hrest with
  | cons hx hpost => exact ⟨pre, _, _, rfl, hpre, hx, hpost⟩

end Split

end TypedValues.Trie
