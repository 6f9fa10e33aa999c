import TypedValues.Ty.Projection
import TypedValues.Value.Basic

/-!
# Tuples

A tuple has as many fields as its type, each of the declared type of its place.
-/

namespace TypedValues

def Value.runtimeTypes (vs : List Value) : List Ty := vs.map runtimeType

/-- Checks a value against one field of a tuple or constructor type. -/
def Value.checkField (t : Ty) (index : Nat) (v : Value) : Except Error Unit :=
  match t.fieldType? index with
  | none => .error (.indexOutOfBounds index t.arity)
  | some expected =>
    if v.hasType expected then .ok () else .error (.typeMismatch expected v.runtimeType)

/-- Checks values against the fields of a type, one by one. -/
def Value.checkFields (t : Ty) (vs : List Value) : Except Error Unit :=
  vs.zipIdx.forM fun (v, i) => checkField t i v

namespace TupleValue

/-- The tuple of these values, typed by their own types. -/
def of (home : UniverseId) (vs : List Value) : TupleValue :=
  ⟨.tupleOf home (Value.runtimeTypes vs), vs⟩

def checked (home : UniverseId) (t : Ty) (vs : List Value) : Except Error TupleValue := do
  if !t.isTuple then throw (.unsupported "tuple" t)
  if vs.length != t.arity then
    throw (.typeMismatch t (.tupleOf home (Value.runtimeTypes vs)))
  Value.checkFields t vs
  return ⟨t, vs⟩

/-- The tuple of these values with a declared type. -/
def ofType (home : UniverseId) (t : Ty) (vs : List Value) : Except Error TupleValue :=
  (checked home t vs).mapError (.inOperation "tuple_of")

def arity (t : TupleValue) : Nat := t.fields.length

def get (t : TupleValue) (index : Nat) : Except Error Value :=
  match t.fields[index]? with
  | some v => .ok v
  | none => .error (.indexOutOfBounds index t.arity)

def getLabel (t : TupleValue) (label : String) : Except Error Value := do
  t.get (← t.ty.indexOf label)

/-- Replaces one field. -/
def set (t : TupleValue) (index : Nat) (v : Value) : Except Error TupleValue := do
  let _ ← t.get index
  (Value.checkField t.ty index v).mapError (.inOperation "tuple.set")
  return { t with fields := t.fields.set index v }

def setLabel (t : TupleValue) (label : String) (v : Value) : Except Error TupleValue := do
  t.set (← t.ty.indexOf label) v

/-- The fields at these positions, in this order. -/
def select (home : UniverseId) (t : TupleValue) (indices : List Nat) : Except Error TupleValue := do
  let ty ← t.ty.select home indices
  return ⟨ty, ← indices.mapM t.get⟩

/-- The fields with these labels, in this order. -/
def selectLabels (home : UniverseId) (t : TupleValue) (labels : List String) :
    Except Error TupleValue := do
  t.select home (← labels.mapM t.ty.indexOf)

/-- The two fields of a pair. -/
def pair? (t : TupleValue) : Option (Value × Value) :=
  match t.fields with
  | [a, b] => some (a, b)
  | _ => none

end TupleValue
end TypedValues
