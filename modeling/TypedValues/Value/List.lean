import TypedValues.Value.Equality
import TypedValues.Value.Tuple

/-!
# Lists

Adding an element widens the type of a list as far as needed.
-/

namespace TypedValues.ListValue

/-- The list of these values, typed by the join of their types. -/
def of (home : UniverseId) (vs : List Value) : ListValue :=
  ⟨.list home (.joinAll home (Value.runtimeTypes vs)), vs⟩

/-- The empty list of an element type. -/
def empty (home : UniverseId) (element : Ty) : ListValue := ⟨.list home element, []⟩

def length (l : ListValue) : Nat := l.elements.length

def isEmpty (l : ListValue) : Bool := l.elements.isEmpty

def get? (l : ListValue) (index : Nat) : Option Value := l.elements[index]?

def contains (l : ListValue) (v : Value) : Bool := l.elements.any fun x => v.equal x

/-- The type of the list once an element of another type has joined it. -/
def widened (home : UniverseId) (l : ListValue) (added : Ty) : Ty :=
  let joined := Ty.join home l.elementType added
  if joined = l.elementType then l.ty else .list home joined

/-- Adds an element in front. -/
def cons (home : UniverseId) (l : ListValue) (v : Value) : ListValue :=
  ⟨l.widened home v.runtimeType, v :: l.elements⟩

/-- Adds an element at the end. -/
def concat (home : UniverseId) (l : ListValue) (v : Value) : ListValue :=
  ⟨l.widened home v.runtimeType, l.elements ++ [v]⟩

/-- One list after the other, typed by the join of their types. -/
def append (home : UniverseId) (l m : ListValue) : ListValue :=
  ⟨.join home l.ty m.ty, l.elements ++ m.elements⟩

def reverse (l : ListValue) : ListValue := { l with elements := l.elements.reverse }

end TypedValues.ListValue
