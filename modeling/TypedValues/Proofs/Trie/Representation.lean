import TypedValues.Proofs.Trie.AssociationList

/-!
# Runs of a multimap

Every run of updates takes a multimap and an association list through states that agree: in what a key
has, in the number of associations and in the number of keys.
-/

namespace TypedValues

variable {κ ν : Type}

open Trie (bucket Rooted)

/-- The multimap holds what the association list holds. -/
structure Represents (m : Multimap κ ν) (a : AssociationList κ ν) : Prop where
  keying : m.keying = a.keying
  rooted : Rooted m.root
  bucket_eq : ∀ hash, bucket hash m.entries = bucket hash a.entries
  nonempty : ∀ p ∈ a.table, p.2 ≠ []
  size_eq : m.size = a.total
  keyCount_eq : m.keyCount = a.table.length

namespace Represents

variable {m : Multimap κ ν} {a : AssociationList κ ν}

lemma empty (keying : Keying κ) :
    Represents (Multimap.empty keying : Multimap κ ν) (AssociationList.empty keying) where
  keying := rfl
  rooted := Trie.rooted_empty
  bucket_eq hash := by simp [Multimap.entries, Multimap.empty, Trie.empty, AssociationList.entries,
    AssociationList.empty]
  nonempty p hp := by simp [AssociationList.empty] at hp
  size_eq := rfl
  keyCount_eq := rfl

/-- Lookup in the trie finds what lookup in the list finds. -/
lemma binding?_eq (h : Represents m a) (key : κ) :
    m.binding? key = (a.binding? key).map a.keying.entry := by
  have hbucket := h.bucket_eq (m.keying.hash key)
  unfold Multimap.entries AssociationList.entries at hbucket
  rw [Multimap.binding?, Trie.find?_eq_find?_bucket m.keying _ key h.rooted.wellFormed
    (Trie.onPath_root _ _), hbucket, h.keying, AssociationList.find?_bucket]
  rfl

lemma get_eq (h : Represents m a) (key : κ) : m.get key = a.get key := by
  rw [Multimap.get, h.binding?_eq, AssociationList.get, Option.map_map]
  rfl

lemma containsKey_eq (h : Represents m a) (key : κ) : m.containsKey key = a.containsKey key := by
  rw [Multimap.containsKey, h.binding?_eq, AssociationList.containsKey, Option.isSome_map]

lemma contains_eq [BEq ν] (h : Represents m a) (key : κ) (value : ν) :
    m.contains key value = a.contains key value := by
  rw [Multimap.contains, h.get_eq, AssociationList.contains]

lemma isEmpty_get (h : Represents m a) (key : κ) :
    (m.get key).isEmpty = !(a.binding? key).isSome := by
  rw [h.get_eq]
  cases hkey : a.containsKey key
  · have hnone : (a.binding? key).isSome = false := hkey
    rw [a.get_eq_nil_of_not_containsKey key hkey, hnone]
    rfl
  · have hsome : (a.binding? key).isSome = true := hkey
    have hget := a.get_ne_nil key h.nonempty hkey
    rw [hsome]
    simpa using hget

lemma length_get_le (h : Represents m a) (key : κ) : (m.get key).length ≤ m.size := by
  have htotal := a.total_removeKey key
  rw [h.get_eq, h.size_eq]
  omega

lemma one_le_keyCount (h : Represents m a) (key : κ) :
    (if (m.get key).isEmpty then 0 else 1) ≤ m.keyCount := by
  have hlen := Table.length_erase (a.keying.answers key) a.table
  rw [h.isEmpty_get, h.keyCount_eq, AssociationList.binding?]
  cases hs : (Table.binding? (a.keying.answers key) a.table).isSome
  · simp
  · simp only [hs, if_true] at hlen
    simp only [Bool.not_true, Bool.false_eq_true, if_false]
    omega

lemma store (h : Represents m a) (key : κ) {values : List ν} (hvalues : values ≠ []) :
    Represents (m.store key values) (a.store key values) where
  keying := h.keying
  rooted := h.rooted.put m.keying _
  bucket_eq hash := by
    have hb := h.bucket_eq hash
    unfold Multimap.entries AssociationList.entries at hb
    unfold Multimap.entries AssociationList.entries Multimap.store AssociationList.store
    rw [Trie.bucket_put m.keying _ h.rooted.wellFormed (Nat.zero_le _) (Trie.onPath_root _ _),
      AssociationList.bucket_put, hb, h.keying]
    rfl
  nonempty p hp := by
    rcases Table.mem_put _ hp with rfl | hp
    · exact hvalues
    · exact h.nonempty p hp
  size_eq := by
    have htotal := a.total_store key values
    have hle := h.length_get_le key
    rw [h.get_eq, h.size_eq] at hle
    simp only [Multimap.store, h.get_eq, h.size_eq]
    omega
  keyCount_eq := by
    have hle := h.one_le_keyCount key
    have hlen := Table.length_put (a.keying.answers key) key values a.table
    have hempty : values.isEmpty = false := by simpa using hvalues
    rw [h.isEmpty_get, h.keyCount_eq] at hle
    simp only [Multimap.store, AssociationList.store, hlen, h.isEmpty_get, h.keyCount_eq, hempty,
      AssociationList.binding?] at hle ⊢
    cases hs : (Table.binding? (a.keying.answers key) a.table).isSome
    · simp
    · simp only [hs, Bool.not_true, Bool.false_eq_true, if_false, if_true] at hle ⊢
      omega

lemma discard (h : Represents m a) (key : κ) : Represents (m.discard key) (a.removeKey key) where
  keying := h.keying
  rooted := h.rooted.eraseRoot m.keying _ key
  bucket_eq hash := by
    have hb := h.bucket_eq hash
    unfold Multimap.entries AssociationList.entries at hb
    unfold Multimap.entries AssociationList.entries Multimap.discard AssociationList.removeKey
    rw [Trie.entries_eraseRoot, Trie.bucket_erase m.keying _ key h.rooted.wellFormed
      (Trie.onPath_root _ _), AssociationList.bucket_erase, hb, h.keying]
  nonempty p hp := h.nonempty p (Table.mem_of_mem_erase _ hp)
  size_eq := by
    have htotal := a.total_removeKey key
    simp only [Multimap.discard, h.get_eq, h.size_eq]
    omega
  keyCount_eq := by
    have hlen := Table.length_erase (a.keying.answers key) a.table
    simp only [Multimap.discard, AssociationList.removeKey, h.isEmpty_get, h.keyCount_eq,
      AssociationList.binding?]
    cases hs : (Table.binding? (a.keying.answers key) a.table).isSome
    · simpa [hs] using hlen.symm
    · simp only [hs, Bool.not_true, Bool.false_eq_true, if_false, if_true] at hlen ⊢
      omega

lemma removeKey (h : Represents m a) (key : κ) : Represents (m.removeKey key) (a.removeKey key) := by
  unfold Multimap.removeKey
  split
  · exact h.discard key
  · rename_i hkey
    have hnone : a.binding? key = none := by
      rw [h.containsKey_eq] at hkey
      simpa [AssociationList.containsKey] using hkey
    have hsame : a.removeKey key = a := by
      have herase : Table.erase (a.keying.answers key) a.table = a.table := by
        refine List.eraseP_of_forall_not ?_
        simpa [AssociationList.binding?, Table.binding?] using hnone
      unfold AssociationList.removeKey
      rw [herase]
    rwa [hsame]

variable [BEq ν]

lemma insert (h : Represents m a) (key : κ) (value : ν) :
    Represents (m.insert key value) (a.insert key value) := by
  unfold Multimap.insert AssociationList.insert
  rw [h.contains_eq, h.get_eq]
  split
  · exact h
  · exact h.store key (by simp)

lemma replace (h : Represents m a) (key : κ) (value : ν) :
    Represents (m.replace key value) (a.replace key value) := by
  unfold Multimap.replace AssociationList.replace
  rw [h.get_eq]
  match a.get key with
  | [existing] =>
    by_cases hsame : (existing == value) = true
    · simpa [hsame] using h
    · simpa [hsame] using h.store key (List.cons_ne_nil value [])
  | [] => exact h.store key (List.cons_ne_nil value [])
  | _ :: _ :: _ => exact h.store key (List.cons_ne_nil value [])

lemma remove (h : Represents m a) (key : κ) (value : ν) :
    Represents (m.remove key value) (a.remove key value) := by
  unfold Multimap.remove AssociationList.remove
  rw [h.contains_eq, h.get_eq]
  split
  · match (a.get key).filter fun v => !(v == value) with
    | [] => exact h.discard key
    | v :: vs => exact h.store key (List.cons_ne_nil v vs)
  · exact h

lemma ofList (keying : Keying κ) (pairs : List (κ × ν)) :
    Represents (Multimap.ofList keying pairs) (AssociationList.ofList keying pairs) := by
  unfold Multimap.ofList AssociationList.ofList
  have hstep : ∀ (m : Multimap κ ν) (a : AssociationList κ ν), Represents m a →
      Represents (pairs.foldl (fun m p => m.insert p.1 p.2) m)
        (pairs.foldl (fun a p => a.insert p.1 p.2) a) := by
    induction pairs with
    | nil => exact fun m a h => h
    | cons p pairs ih => exact fun m a h => ih _ _ (h.insert p.1 p.2)
  exact hstep _ _ (empty keying)

/-- One update keeps a multimap and its association list together. -/
theorem update (h : Represents m a) (u : Update κ ν) : Represents (m.update u) (a.update u) := by
  cases u with
  | insert key value => exact h.insert key value
  | replace key value => exact h.replace key value
  | remove key value => exact h.remove key value
  | removeKey key => exact h.removeKey key
  | collect hash pairs =>
    simp only [Multimap.update, AssociationList.update, h.keying]
    exact ofList _ pairs

/-- So does a run of updates. -/
theorem run (keying : Keying κ) (updates : List (Update κ ν)) :
    Represents (Multimap.run keying updates) (AssociationList.run keying updates) := by
  unfold Multimap.run AssociationList.run
  have hstep : ∀ (m : Multimap κ ν) (a : AssociationList κ ν), Represents m a →
      Represents (updates.foldl Multimap.update m) (updates.foldl AssociationList.update a) := by
    induction updates with
    | nil => exact fun m a h => h
    | cons u updates ih => exact fun m a h => ih _ _ (h.update u)
  exact hstep _ _ (empty keying)

end Represents

/-- After any run of updates, with any hash and any comparison of keys, the multimap answers as the
association list does and its counters are those of the list. No counter falls below what the next
update takes from it, whatever its key. -/
theorem multimap_run_agrees [BEq ν] (keying : Keying κ) (updates : List (Update κ ν)) :
    let m := Multimap.run keying updates
    let a := AssociationList.run keying updates
    (∀ key, m.get key = a.get key ∧ m.containsKey key = a.containsKey key ∧
      ∀ value, m.contains key value = a.contains key value) ∧
    (∀ p ∈ a.table, p.2 ≠ []) ∧ m.size = a.total ∧ m.keyCount = a.table.length ∧
    ∀ key, (m.get key).length ≤ m.size ∧ (if (m.get key).isEmpty then 0 else 1) ≤ m.keyCount := by
  intro m a
  have h : Represents m a := Represents.run keying updates
  exact ⟨fun key => ⟨h.get_eq key, h.containsKey_eq key, h.contains_eq key⟩, h.nonempty, h.size_eq,
    h.keyCount_eq, fun key => ⟨h.length_get_le key, h.one_le_keyCount key⟩⟩

end TypedValues
