import TypedValues.Trie.Multimap

/-!
# Trie sets

A persistent set: a multimap whose keys carry nothing. The operations on two sets walk over the
smaller one.
-/

namespace TypedValues

structure TrieSet (α : Type) where
  members : Multimap α Unit

namespace TrieSet
variable {α : Type}

def empty (keying : Keying α) : TrieSet α := ⟨.empty keying⟩

def size (s : TrieSet α) : Nat := s.members.keyCount

def isEmpty (s : TrieSet α) : Bool := s.members.isEmpty

def toList (s : TrieSet α) : List α := s.members.keys

def contains (s : TrieSet α) (a : α) : Bool := s.members.containsKey a

def insert (s : TrieSet α) (a : α) : TrieSet α := ⟨s.members.insert a ()⟩

def erase (s : TrieSet α) (a : α) : TrieSet α := ⟨s.members.removeKey a⟩

def insertAll (s : TrieSet α) (as : List α) : TrieSet α := as.foldl insert s

def eraseAll (s : TrieSet α) (as : List α) : TrieSet α := as.foldl erase s

def ofList (keying : Keying α) (as : List α) : TrieSet α := (empty keying).insertAll as

/-- The larger of two sets and the smaller one, the first counting as larger if they are of one size. -/
def bySize (s t : TrieSet α) : TrieSet α × TrieSet α := if t.size ≤ s.size then (s, t) else (t, s)

/-- The larger set with the elements of the smaller one inserted. -/
def union (s t : TrieSet α) : TrieSet α :=
  let (larger, smaller) := bySize s t
  larger.insertAll smaller.toList

/-- The smaller set without the elements that the larger one lacks. -/
def inter (s t : TrieSet α) : TrieSet α :=
  let (larger, smaller) := bySize s t
  smaller.eraseAll (smaller.toList.filter fun a => !larger.contains a)

/-- The elements of the first set that the second one lacks. -/
def diff (s t : TrieSet α) : TrieSet α :=
  if s.size ≤ t.size then s.eraseAll (s.toList.filter t.contains) else s.eraseAll t.toList

def isSubset (s t : TrieSet α) : Bool := s.size ≤ t.size && s.toList.all t.contains

def beq (s t : TrieSet α) : Bool := s.members.beq t.members

def text (elementText : α → String) (s : TrieSet α) : String :=
  "\x7b" ++ ", ".intercalate (s.toList.map elementText) ++ "\x7d"

end TrieSet
end TypedValues
