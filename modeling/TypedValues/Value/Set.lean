import TypedValues.Value.Members
import TypedValues.Value.Tuple

/-!
# Sets

Sets without repetition. Adding an element widens the type of a set as far as needed.
-/

namespace TypedValues.SetValue

/-- The set of these values, typed by the join of their types. -/
def of (home : UniverseId) (vs : List Value) : SetValue :=
  ⟨.set home (.joinAll home (Value.runtimeTypes vs)), Members.ofList vs⟩

/-- The empty set of an element type. -/
def empty (home : UniverseId) (element : Ty) : SetValue := ⟨.set home element, []⟩

def size (s : SetValue) : Nat := s.elements.length

def isEmpty (s : SetValue) : Bool := s.elements.isEmpty

def isRelation (s : SetValue) : Bool := s.ty.isRelation

def contains (s : SetValue) (v : Value) : Bool := Members.contains s.elements v

def insert (home : UniverseId) (s : SetValue) (v : Value) : SetValue :=
  let joined := Ty.join home s.elementType v.runtimeType
  ⟨if joined = s.elementType then s.ty else .set home joined, Members.insert s.elements v⟩

def erase (s : SetValue) (v : Value) : SetValue :=
  { s with elements := Members.erase s.elements v }

/-- The union, typed by the join of both types. -/
def union (home : UniverseId) (s t : SetValue) : SetValue :=
  ⟨.join home s.ty t.ty, Members.union s.elements t.elements⟩

/-- The intersection, typed by the join of both types. -/
def inter (home : UniverseId) (s t : SetValue) : SetValue :=
  ⟨.join home s.ty t.ty, Members.inter s.elements t.elements⟩

/-- The elements of the first set that the second lacks, with the type of the first. -/
def diff (s t : SetValue) : SetValue := { s with elements := Members.diff s.elements t.elements }

def isSubset (s t : SetValue) : Bool := Members.isSubset s.elements t.elements

/-- A set whose elements are not tuples. -/
def asPlainSet (s : SetValue) : Except Error SetValue :=
  if s.isRelation then .error (.of (.resultTypeMismatch .set s.ty)) else .ok s

end TypedValues.SetValue
