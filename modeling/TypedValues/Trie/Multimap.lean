import TypedValues.Trie.Cursor

/-!
# Multimaps

A persistent map from keys to sets of values, on a hash trie. A key without values is absent. The
values of a key keep the order in which they were added.
-/

namespace TypedValues

structure Multimap (κ ν : Type) where
  keying : Keying κ
  root : Trie κ (List ν)
  /-- The number of associations. -/
  size : Nat
  keyCount : Nat

namespace Multimap
variable {κ ν : Type}

def empty (keying : Keying κ) : Multimap κ ν := ⟨keying, .empty, 0, 0⟩

def isEmpty (m : Multimap κ ν) : Bool := m.size == 0

def binding? (m : Multimap κ ν) (key : κ) : Option (Entry κ (List ν)) :=
  m.root.find? m.keying (m.keying.hash key) key 0

/-- The values of a key; none if it is absent. -/
def get (m : Multimap κ ν) (key : κ) : List ν := ((m.binding? key).map (·.payload)).getD []

def containsKey (m : Multimap κ ν) (key : κ) : Bool := (m.binding? key).isSome

/-- The entries in the order of the digits of their hashes. -/
def entries (m : Multimap κ ν) : List (Entry κ (List ν)) := m.root.entries

def keys (m : Multimap κ ν) : List κ := m.entries.map (·.key)

def values (m : Multimap κ ν) : List ν := m.entries.flatMap (·.payload)

def grouped (m : Multimap κ ν) : List (κ × List ν) := m.entries.map fun e => (e.key, e.payload)

/-- A walk over all associations. -/
def associations (m : Multimap κ ν) : Associations κ ν := .start m.root

/-- Makes these the values of a key. -/
def store (m : Multimap κ ν) (key : κ) (values : List ν) : Multimap κ ν :=
  let before := m.get key
  { m with
    root := m.root.put m.keying ⟨m.keying.hash key, key, values⟩ 0
    size := m.size - before.length + values.length
    keyCount := m.keyCount - (if before.isEmpty then 0 else 1) + (if values.isEmpty then 0 else 1) }

/-- Removes a key that is present. -/
def discard (m : Multimap κ ν) (key : κ) : Multimap κ ν :=
  let before := m.get key
  { m with
    root := m.root.eraseRoot m.keying (m.keying.hash key) key
    size := m.size - before.length
    keyCount := m.keyCount - (if before.isEmpty then 0 else 1) }

/-- Removes a key with all of its values. -/
def removeKey (m : Multimap κ ν) (key : κ) : Multimap κ ν :=
  if m.containsKey key then m.discard key else m

variable [BEq ν]

def contains (m : Multimap κ ν) (key : κ) (value : ν) : Bool := (m.get key).any (· == value)

/-- Adds a value to a key, behind those it has. -/
def insert (m : Multimap κ ν) (key : κ) (value : ν) : Multimap κ ν :=
  if m.contains key value then m else m.store key (m.get key ++ [value])

/-- Makes a value the only one of a key. -/
def replace (m : Multimap κ ν) (key : κ) (value : ν) : Multimap κ ν :=
  match m.get key with
  | [existing] => if existing == value then m else m.store key [value]
  | _ => m.store key [value]

/-- Removes one value of a key, and the key with the last of its values. -/
def remove (m : Multimap κ ν) (key : κ) (value : ν) : Multimap κ ν :=
  if m.contains key value then
    match (m.get key).filter fun v => !(v == value) with
    | [] => m.discard key
    | rest => m.store key rest
  else m

def ofList (keying : Keying κ) (pairs : List (κ × ν)) : Multimap κ ν :=
  pairs.foldl (fun m (key, value) => m.insert key value) (empty keying)

/-- Whether two maps hold the same associations: counted alike, and each of the one found in the
other. -/
def beq (m n : Multimap κ ν) : Bool :=
  m.size == n.size && m.keyCount == n.keyCount &&
    m.grouped.all fun (key, values) =>
      let theirs := n.get key
      theirs.length == values.length && values.all fun v => theirs.any (· == v)

omit [BEq ν] in
/-- The map as text, given the texts of its keys and values. -/
def text (keyText : κ → String) (valueText : ν → String) (m : Multimap κ ν) : String :=
  let group := fun (key, values) =>
    keyText key ++ ": [" ++ ", ".intercalate (values.map valueText) ++ "]"
  "\x7b" ++ ", ".intercalate (m.grouped.map group) ++ "\x7d"

end Multimap
end TypedValues
