/-!
# Hash tries

A trie stores entries under the digits of their hashes, five bits to a level, least significant
first. A branch keeps its children densely, with a bitmap that says which digits they belong to.
Entries that share a digit move one level down; entries whose hashes agree in all digits form a
chain below the last branch.
-/

namespace TypedValues

/-- How keys are hashed and compared. Nothing is assumed of the comparison. -/
structure Keying (κ : Type) where
  hash : κ → UInt64
  /-- Whether a stored key is the key asked for. -/
  same : (stored asked : κ) → Bool

structure Entry (κ ν : Type) where
  hash : UInt64
  key : κ
  payload : ν

inductive Trie (κ ν : Type) where
  | leaf (e : Entry κ ν)
  | branch (bitmap : Nat) (children : List (Trie κ ν))
  | chain (hash : UInt64) (entries : List (Entry κ ν))

namespace Trie
variable {κ ν : Type}

/-- Twelve digits of five bits and a last one of four make up a hash. -/
def levels : Nat := 13

/-- The digit that chooses the child of a branch at this level. -/
def digit (hash : UInt64) (level : Nat) : Nat := hash.toNat >>> (5 * level) % 32

/-- How many children come before the one of this digit. -/
def position (bitmap digit : Nat) : Nat := (List.range digit).countP bitmap.testBit

def empty : Trie κ ν := .branch 0 []

/-- A root with one entry. -/
def singleton (e : Entry κ ν) : Trie κ ν := .branch (1 <<< digit e.hash 0) [.leaf e]

/-- Whether an entry is the one of this key. -/
def answers (k : Keying κ) (hash : UInt64) (key : κ) (e : Entry κ ν) : Bool :=
  e.hash == hash && k.same e.key key

mutual
/-- The entry stored for a key in the subtree at this level. -/
def find? (k : Keying κ) (hash : UInt64) (key : κ) (level : Nat) : Trie κ ν → Option (Entry κ ν)
  | .leaf e => if answers k hash key e then some e else none
  | .branch bitmap children =>
    let d := digit hash level
    if bitmap.testBit d then findAt k hash key (level + 1) children (position bitmap d) else none
  | .chain _ es => es.find? fun e => k.same e.key key

/-- The same in the child at a position. -/
def findAt (k : Keying κ) (hash : UInt64) (key : κ) (level : Nat) :
    List (Trie κ ν) → Nat → Option (Entry κ ν)
  | [], _ => none
  | t :: _, 0 => find? k hash key level t
  | _ :: ts, n + 1 => findAt k hash key level ts n
end

/-- The smallest subtree at this level that holds two entries of different keys. -/
def pair (a b : Entry κ ν) (level : Nat) : Trie κ ν :=
  if levels ≤ level then .chain a.hash [a, b]
  else
    let i := digit a.hash level
    let j := digit b.hash level
    if i = j then .branch (1 <<< i) [pair a b (level + 1)]
    else .branch (1 <<< i ||| 1 <<< j) (if i < j then [.leaf a, .leaf b] else [.leaf b, .leaf a])
termination_by levels - level

/-- In a chain the first entry of the key is replaced in its place; a new key goes to the end. -/
def putChain (k : Keying κ) (e : Entry κ ν) : List (Entry κ ν) → List (Entry κ ν)
  | [] => [e]
  | old :: es => if k.same old.key e.key then e :: es else old :: putChain k e es

mutual
/-- The subtree with an entry stored in it, in place of the one its key had. -/
def put (k : Keying κ) (e : Entry κ ν) (level : Nat) : Trie κ ν → Trie κ ν
  | .leaf old => if answers k e.hash e.key old then .leaf e else pair old e level
  | .branch bitmap children =>
    let d := digit e.hash level
    let p := position bitmap d
    if bitmap.testBit d then .branch bitmap (putAt k e (level + 1) children p)
    else .branch (bitmap ||| 1 <<< d) (children.insertIdx p (.leaf e))
  | .chain hash es => .chain hash (putChain k e es)

def putAt (k : Keying κ) (e : Entry κ ν) (level : Nat) : List (Trie κ ν) → Nat → List (Trie κ ν)
  | [], _ => []
  | t :: ts, 0 => put k e level t :: ts
  | t :: ts, n + 1 => t :: putAt k e level ts n
end

/-- A branch after a removal: without children it disappears, and a single entry takes its place. -/
def pack (bitmap : Nat) : List (Trie κ ν) → Option (Trie κ ν)
  | [] => none
  | [.leaf e] => some (.leaf e)
  | children => some (.branch bitmap children)

/-- A chain after a removal, likewise. -/
def packChain (hash : UInt64) : List (Entry κ ν) → Option (Trie κ ν)
  | [] => none
  | [e] => some (.leaf e)
  | es => some (.chain hash es)

mutual
/-- The subtree without the entry of a key, or `none` if nothing is left of it. -/
def erase (k : Keying κ) (hash : UInt64) (key : κ) (level : Nat) : Trie κ ν → Option (Trie κ ν)
  | .leaf e => if answers k hash key e then none else some (.leaf e)
  | .branch bitmap children =>
    let d := digit hash level
    let p := position bitmap d
    if bitmap.testBit d then
      match eraseAt k hash key (level + 1) children p with
      | some t => pack bitmap (children.set p t)
      | none => pack (bitmap ^^^ 1 <<< d) (children.eraseIdx p)
    else pack bitmap children
  | .chain h es => packChain h (es.eraseP fun e => k.same e.key key)

def eraseAt (k : Keying κ) (hash : UInt64) (key : κ) (level : Nat) :
    List (Trie κ ν) → Nat → Option (Trie κ ν)
  | [], _ => none
  | t :: _, 0 => erase k hash key level t
  | _ :: ts, n + 1 => eraseAt k hash key level ts n
end

/-- The root after a removal. It stays a branch. -/
def eraseRoot (k : Keying κ) (hash : UInt64) (key : κ) (root : Trie κ ν) : Trie κ ν :=
  match erase k hash key 0 root with
  | none => .empty
  | some (.leaf e) => singleton e
  | some t => t

mutual
/-- The entries depth first, children in the order of their digits. -/
def entries : Trie κ ν → List (Entry κ ν)
  | .leaf e => [e]
  | .branch _ children => entriesOf children
  | .chain _ es => es

def entriesOf : List (Trie κ ν) → List (Entry κ ν)
  | [] => []
  | t :: ts => entries t ++ entriesOf ts
end

end Trie
end TypedValues
