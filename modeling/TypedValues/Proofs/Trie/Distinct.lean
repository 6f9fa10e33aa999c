import TypedValues.Proofs.Trie.Representation

/-!
# Distinct keys and values

Where the comparison of keys is an equivalence, an association list never holds two keys of one hash
that are the same, and where equality of values is one, no key has a value twice.
-/

namespace TypedValues

variable {κ ν : Type}

/-- A comparison of keys that is an equivalence. Nothing is asked of the hash. -/
structure Keying.Lawful (k : Keying κ) : Prop where
  refl : ∀ a, k.same a a = true
  symm : ∀ a b, k.same a b = true → k.same b a = true
  trans : ∀ a b c, k.same a b = true → k.same b c = true → k.same a c = true

lemma Keying.Lawful.same_comm {k : Keying κ} (h : k.Lawful) (a b : κ) :
    k.same a b = k.same b a := by
  rw [Bool.eq_iff_iff]
  exact ⟨h.symm a b, h.symm b a⟩

lemma Keying.lawful_beq [BEq κ] [EquivBEq κ] (hash : κ → UInt64) :
    Keying.Lawful ⟨hash, fun stored asked => stored == asked⟩ where
  refl _ := BEq.rfl
  symm _ _ h := BEq.symm h
  trans _ _ _ h h' := BEq.trans h h'

namespace AssociationList

/-- Keys of one hash differ from those before them. -/
def DistinctKeys (k : Keying κ) (table : Table κ (List ν)) : Prop :=
  table.Pairwise fun p q => k.hash p.1 = k.hash q.1 → k.same p.1 q.1 = false

lemma DistinctKeys.put {k : Keying κ} (lawful : k.Lawful) {table : Table κ (List ν)}
    (h : DistinctKeys k table) (key : κ) (values : List ν) :
    DistinctKeys k (Table.put (k.answers key) key values table) := by
  unfold DistinctKeys at *
  induction table with
  | nil => simp
  | cons p table ih =>
    obtain ⟨hp, htable⟩ := List.pairwise_cons.mp h
    rw [Table.put_cons]
    by_cases hanswers : k.answers key p.1 = true
    · have hkey : k.hash p.1 = k.hash key ∧ k.same p.1 key = true := by
        simpa [Keying.answers] using hanswers
      rw [if_pos hanswers]
      refine List.pairwise_cons.mpr ⟨?_, htable⟩
      intro q hq hhash
      have hpq := hp q hq (hkey.1.trans hhash)
      cases hsame : k.same key q.1
      · rfl
      · rw [lawful.trans _ _ _ hkey.2 hsame] at hpq
        exact absurd hpq (by decide)
    · rw [if_neg hanswers]
      refine List.pairwise_cons.mpr ⟨?_, ih htable⟩
      intro q hq hhash
      rcases Table.mem_put _ hq with rfl | hq
      · simpa [Keying.answers, hhash] using hanswers
      · exact hp q hq hhash

variable [BEq ν]

/-- The list has no key and no value of a key twice. -/
structure Distinct (a : AssociationList κ ν) : Prop where
  lawful : a.keying.Lawful
  keys : DistinctKeys a.keying a.table
  values : ∀ p ∈ a.table, p.2.Pairwise fun v w => (v == w) = false

namespace Distinct

variable {a : AssociationList κ ν}

lemma empty {keying : Keying κ} (lawful : keying.Lawful) :
    Distinct (AssociationList.empty keying : AssociationList κ ν) where
  lawful := lawful
  keys := List.Pairwise.nil
  values p hp := by simp [AssociationList.empty] at hp

lemma get (h : Distinct a) (key : κ) : (a.get key).Pairwise fun v w => (v == w) = false := by
  rw [AssociationList.get]
  cases hkey : a.binding? key with
  | none => simp
  | some p => exact h.values p (Table.mem_of_binding? _ hkey)

lemma store (h : Distinct a) (key : κ) {values : List ν}
    (hvalues : values.Pairwise fun v w => (v == w) = false) : Distinct (a.store key values) where
  lawful := h.lawful
  keys := h.keys.put h.lawful key values
  values p hp := by
    rcases Table.mem_put _ hp with rfl | hp
    · exact hvalues
    · exact h.values p hp

lemma removeKey (h : Distinct a) (key : κ) : Distinct (a.removeKey key) where
  lawful := h.lawful
  keys := List.Pairwise.sublist (List.eraseP_sublist) h.keys
  values p hp := h.values p (Table.mem_of_mem_erase _ hp)

lemma insert (h : Distinct a) (key : κ) (value : ν) : Distinct (a.insert key value) := by
  unfold AssociationList.insert
  by_cases hcontains : a.contains key value = true
  · rwa [if_pos hcontains]
  · rw [if_neg hcontains]
    refine h.store key (List.pairwise_append.mpr ⟨h.get key, List.pairwise_singleton _ _, ?_⟩)
    intro v hv w hw
    obtain rfl : w = value := by simpa using hw
    have hall : ∀ x ∈ a.get key, (x == w) = false := by
      simpa [AssociationList.contains] using hcontains
    exact hall v hv

lemma replace (h : Distinct a) (key : κ) (value : ν) : Distinct (a.replace key value) := by
  have hstore := h.store key (List.pairwise_singleton (fun v w => (v == w) = false) value)
  unfold AssociationList.replace
  split
  · split
    · exact h
    · exact hstore
  · exact hstore

lemma remove (h : Distinct a) (key : κ) (value : ν) : Distinct (a.remove key value) := by
  have hrest := (h.get key).filter fun v => !(v == value)
  unfold AssociationList.remove
  split
  · split
    · exact h.removeKey key
    · exact h.store key hrest
  · exact h

lemma ofList {keying : Keying κ} (lawful : keying.Lawful) (pairs : List (κ × ν)) :
    Distinct (AssociationList.ofList keying pairs) := by
  unfold AssociationList.ofList
  have hstep : ∀ a : AssociationList κ ν, Distinct a →
      Distinct (pairs.foldl (fun a p => a.insert p.1 p.2) a) := by
    induction pairs with
    | nil => exact fun a h => h
    | cons p pairs ih => exact fun a h => ih _ (h.insert p.1 p.2)
  exact hstep _ (empty lawful)

lemma update (h : Distinct a) (u : Update κ ν) : Distinct (a.update u) := by
  cases u with
  | insert key value => exact h.insert key value
  | replace key value => exact h.replace key value
  | remove key value => exact h.remove key value
  | removeKey key => exact h.removeKey key
  | collect hash pairs =>
    have lawful : Keying.Lawful { a.keying with hash } :=
      ⟨h.lawful.refl, h.lawful.symm, h.lawful.trans⟩
    exact ofList lawful pairs

lemma run {keying : Keying κ} (lawful : keying.Lawful) (updates : List (Update κ ν)) :
    Distinct (AssociationList.run keying updates) := by
  unfold AssociationList.run
  have hstep : ∀ a : AssociationList κ ν, Distinct a →
      Distinct (updates.foldl AssociationList.update a) := by
    induction updates with
    | nil => exact fun a h => h
    | cons u updates ih => exact fun a h => ih _ (h.update u)
  exact hstep _ (empty lawful)

end Distinct
end AssociationList

end TypedValues
