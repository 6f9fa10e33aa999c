import TypedValues.Proofs.Table
import TypedValues.Proofs.Trie.Root

/-!
# Multimaps as association lists

A multimap behaves as an association list kept in insertion order, in which a key answers to the first
entry of the same hash that compares equal to it. The two are related bucket by bucket: for every
hash, the trie has the entries of the list with that hash, in the order of the list.
-/

namespace TypedValues

variable {κ ν : Type}

/-- Whether a stored key is the one for a key asked for. -/
def Keying.answers (k : Keying κ) (key stored : κ) : Bool :=
  k.hash stored == k.hash key && k.same stored key

/-- A key and its payload with the hash of the key. -/
def Keying.entry (k : Keying κ) (p : κ × ν) : Entry κ ν := ⟨k.hash p.1, p.1, p.2⟩

/-- Keys with their values, in the order in which the keys were added. -/
structure AssociationList (κ ν : Type) where
  keying : Keying κ
  table : Table κ (List ν)

namespace AssociationList

def empty (keying : Keying κ) : AssociationList κ ν := ⟨keying, []⟩

def binding? (a : AssociationList κ ν) (key : κ) : Option (κ × List ν) :=
  Table.binding? (a.keying.answers key) a.table

def get (a : AssociationList κ ν) (key : κ) : List ν := ((a.binding? key).map (·.2)).getD []

def containsKey (a : AssociationList κ ν) (key : κ) : Bool := (a.binding? key).isSome

/-- The number of associations. -/
def total (a : AssociationList κ ν) : Nat := (a.table.map fun p => p.2.length).sum

/-- Makes these the values of a key. The entry that answers keeps its place and takes the key. -/
def store (a : AssociationList κ ν) (key : κ) (values : List ν) : AssociationList κ ν :=
  { a with table := Table.put (a.keying.answers key) key values a.table }

def removeKey (a : AssociationList κ ν) (key : κ) : AssociationList κ ν :=
  { a with table := Table.erase (a.keying.answers key) a.table }

variable [BEq ν]

def contains (a : AssociationList κ ν) (key : κ) (value : ν) : Bool := (a.get key).any (· == value)

def insert (a : AssociationList κ ν) (key : κ) (value : ν) : AssociationList κ ν :=
  if a.contains key value then a else a.store key (a.get key ++ [value])

/-- Makes a value the only one of a key, unless it is that already. -/
def replace (a : AssociationList κ ν) (key : κ) (value : ν) : AssociationList κ ν :=
  match a.get key with
  | [existing] => if existing == value then a else a.store key [value]
  | _ => a.store key [value]

/-- Removes one value of a key; an entry that loses its last value disappears. -/
def remove (a : AssociationList κ ν) (key : κ) (value : ν) : AssociationList κ ν :=
  if a.contains key value then
    match (a.get key).filter fun v => !(v == value) with
    | [] => a.removeKey key
    | rest => a.store key rest
  else a

def ofList (keying : Keying κ) (pairs : List (κ × ν)) : AssociationList κ ν :=
  pairs.foldl (fun a (key, value) => a.insert key value) (empty keying)

end AssociationList

/-- One update of a multimap. Collecting pairs starts a new map, possibly with another hash. -/
inductive Update (κ ν : Type) where
  | insert (key : κ) (value : ν)
  | replace (key : κ) (value : ν)
  | remove (key : κ) (value : ν)
  | removeKey (key : κ)
  | collect (hash : κ → UInt64) (pairs : List (κ × ν))

section Runs

variable [BEq ν]

def Multimap.update (m : Multimap κ ν) : Update κ ν → Multimap κ ν
  | .insert key value => m.insert key value
  | .replace key value => m.replace key value
  | .remove key value => m.remove key value
  | .removeKey key => m.removeKey key
  | .collect hash pairs => .ofList { m.keying with hash } pairs

/-- The multimap after these updates of the empty one. -/
def Multimap.run (keying : Keying κ) (updates : List (Update κ ν)) : Multimap κ ν :=
  updates.foldl Multimap.update (.empty keying)

def AssociationList.update (a : AssociationList κ ν) : Update κ ν → AssociationList κ ν
  | .insert key value => a.insert key value
  | .replace key value => a.replace key value
  | .remove key value => a.remove key value
  | .removeKey key => a.removeKey key
  | .collect hash pairs => .ofList { a.keying with hash } pairs

/-- The association list after these updates of the empty one. -/
def AssociationList.run (keying : Keying κ) (updates : List (Update κ ν)) : AssociationList κ ν :=
  updates.foldl AssociationList.update (.empty keying)

end Runs

namespace AssociationList

open Trie (bucket bucket_cons bucket_nil putChain)

/-- The entries of the list as the trie stores them. -/
def entries (a : AssociationList κ ν) : List (Entry κ (List ν)) := a.table.map a.keying.entry

section Buckets

variable (k : Keying κ) (key : κ)

lemma bucket_entry_cons (p : κ × ν) (table : Table κ ν) (hash : UInt64) :
    bucket hash ((p :: table).map k.entry) =
      if k.hash p.1 = hash then k.entry p :: bucket hash (table.map k.entry)
      else bucket hash (table.map k.entry) := by
  rw [List.map_cons, bucket_cons]
  rfl

/-- Searching the bucket of a key is searching the list. -/
lemma find?_bucket (table : Table κ ν) :
    (bucket (k.hash key) (table.map k.entry)).find? (fun e => k.same e.key key) =
      (Table.binding? (k.answers key) table).map k.entry := by
  induction table with
  | nil => rfl
  | cons p table ih =>
    rw [bucket_entry_cons, Table.binding?_cons]
    by_cases hhash : k.hash p.1 = k.hash key
    · by_cases hsame : k.same p.1 key = true
      · simp [Keying.answers, Keying.entry, hhash, hsame]
      · have hanswers : k.answers key p.1 = false := by simp [Keying.answers, hsame]
        have hentry : k.same (k.entry p).key key = false := by simpa [Keying.entry] using hsame
        rw [if_pos hhash, List.find?_cons, hentry, hanswers, ih]
        rfl
    · have hanswers : k.answers key p.1 = false := by simp [Keying.answers, hhash]
      rw [if_neg hhash, hanswers, ih]
      rfl

/-- What changes the bucket of a key behind a binding that does not answer leaves that binding. -/
lemma bucket_cons_of_not_answers {k : Keying κ} {key : κ} {hash : UInt64} {p : κ × ν}
    {table table' : Table κ ν} {change : List (Entry κ ν) → List (Entry κ ν)}
    (hanswers : ¬ k.answers key p.1 = true)
    (hchange : k.same p.1 key = false → ∀ b, change (k.entry p :: b) = k.entry p :: change b)
    (ih : bucket hash (table'.map k.entry) =
      if hash = k.hash key then change (bucket hash (table.map k.entry))
      else bucket hash (table.map k.entry)) :
    bucket hash ((p :: table').map k.entry) =
      if hash = k.hash key then change (bucket hash ((p :: table).map k.entry))
      else bucket hash ((p :: table).map k.entry) := by
  rw [bucket_entry_cons, bucket_entry_cons, ih]
  by_cases h : hash = k.hash key
  · subst h
    by_cases hhash : k.hash p.1 = k.hash key
    · have hsame : k.same p.1 key = false := by simpa [Keying.answers, hhash] using hanswers
      simp [hhash, hchange hsame]
    · simp [hhash]
  · simp [h]

lemma bucket_put (payload : ν) (table : Table κ ν) (hash : UInt64) :
    bucket hash ((Table.put (k.answers key) key payload table).map k.entry) =
      if hash = k.hash key then putChain k (k.entry (key, payload)) (bucket hash (table.map k.entry))
      else bucket hash (table.map k.entry) := by
  induction table with
  | nil =>
    rw [Table.put_nil, bucket_entry_cons]
    simp only [List.map_nil, bucket_nil, putChain, eq_comm]
  | cons p table ih =>
    rw [Table.put_cons]
    by_cases hanswers : k.answers key p.1 = true
    · have hp : k.hash p.1 = k.hash key ∧ k.same p.1 key = true := by
        simpa [Keying.answers] using hanswers
      rw [if_pos hanswers, bucket_entry_cons, bucket_entry_cons]
      by_cases h : hash = k.hash key
      · simp [h, putChain, hp, Keying.entry]
      · simp [h, Ne.symm h, hp]
    · rw [if_neg hanswers]
      exact bucket_cons_of_not_answers hanswers
        (fun hsame b => by simp [putChain, hsame, Keying.entry]) ih

lemma bucket_erase (table : Table κ ν) (hash : UInt64) :
    bucket hash ((Table.erase (k.answers key) table).map k.entry) =
      if hash = k.hash key then (bucket hash (table.map k.entry)).eraseP fun e => k.same e.key key
      else bucket hash (table.map k.entry) := by
  induction table with
  | nil => simp
  | cons p table ih =>
    rw [Table.erase_cons]
    by_cases hanswers : k.answers key p.1 = true
    · have hp : k.hash p.1 = k.hash key ∧ k.same p.1 key = true := by
        simpa [Keying.answers] using hanswers
      rw [if_pos hanswers, bucket_entry_cons]
      by_cases h : hash = k.hash key
      · simp [h, hp, Keying.entry]
      · simp [h, Ne.symm h, hp]
    · rw [if_neg hanswers]
      exact bucket_cons_of_not_answers hanswers (fun hsame b => by simp [hsame, Keying.entry]) ih

end Buckets

section Lists

variable (a : AssociationList κ ν) (key : κ)

lemma total_cons (keying : Keying κ) (p : κ × List ν) (table : Table κ (List ν)) :
    total ⟨keying, p :: table⟩ = p.2.length + total ⟨keying, table⟩ := by
  simp [total]

lemma total_removeKey : (a.removeKey key).total + (a.get key).length = a.total := by
  obtain ⟨keying, table⟩ := a
  simp only [removeKey, get, binding?]
  induction table with
  | nil => simp
  | cons p table ih =>
    rw [Table.erase_cons, Table.binding?_cons]
    by_cases h : keying.answers key p.1 = true
    · simp only [if_pos h, total_cons, Option.map_some, Option.getD_some]
      omega
    · simp only [if_neg h, total_cons]
      omega

lemma total_store (values : List ν) :
    (a.store key values).total + (a.get key).length = a.total + values.length := by
  have hperm := Table.put_perm (a.keying.answers key) key values a.table
  have hstored : (a.store key values).total = values.length + (a.removeKey key).total := by
    rw [total, store, (hperm.map fun p => p.2.length).sum_eq, List.map_cons, List.sum_cons]
    rfl
  have hrest := a.total_removeKey key
  omega

lemma get_eq_nil_of_not_containsKey (h : a.containsKey key = false) : a.get key = [] := by
  have hnone : a.binding? key = none := by simpa [containsKey] using h
  simp [get, hnone]

lemma get_ne_nil (hne : ∀ p ∈ a.table, p.2 ≠ []) (h : a.containsKey key = true) :
    a.get key ≠ [] := by
  obtain ⟨p, hp⟩ := Option.isSome_iff_exists.mp h
  have hmem := hne p (Table.mem_of_binding? _ hp)
  simpa [get, hp] using hmem

end Lists

end AssociationList
end TypedValues
