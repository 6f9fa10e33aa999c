import TypedValues.Value.List
import TypedValues.Value.Members

/-!
# List relations

A list relation is a list whose type says that its elements are tuples. Order and repetitions are kept.
-/

namespace TypedValues

structure ListRelation where
  toList : ListValue
  isListRelation : toList.ty.isListRelation = true

instance : Coe ListRelation ListValue := ⟨ListRelation.toList⟩

/-- The list relation that a list is. -/
def ListValue.asListRelation (l : ListValue) : Except Error ListRelation :=
  if h : l.ty.isListRelation then .ok ⟨l, h⟩
  else .error (.of (.resultTypeMismatch .listRelation l.ty))

namespace ListRelation

def ty (r : ListRelation) : Ty := r.toList.ty

def length (r : ListRelation) : Nat := r.toList.length

def isEmpty (r : ListRelation) : Bool := r.toList.isEmpty

def tuples (r : ListRelation) : List TupleValue := r.toList.elements.filterMap Value.tuple?

/-- The tuples of a binary list relation. -/
def pairs (r : ListRelation) : List (Value × Value) := r.tuples.filterMap TupleValue.pair?

def arity (r : ListRelation) : Nat := r.ty.arity

def fieldType? (r : ListRelation) (index : Nat) : Option Ty := r.ty.fieldType? index

/-- The values of one field as a list, or several fields of every tuple as a list relation. -/
def select (home : UniverseId) (r : ListRelation) (indices : List Nat) : Except Error ListValue := do
  let element := r.toList.elementType
  match indices with
  | [index] =>
    match element.fieldType? index with
    | none => throw (.indexOutOfBounds index r.arity)
    | some t => return ⟨.list home t, ← r.tuples.mapM (·.get index)⟩
  | _ =>
    let t ← element.select home indices
    let selected ← r.tuples.mapM (TupleValue.select home · indices)
    return ⟨.list home t, selected.map (·.toValue)⟩

/-- A pair `a`, `c` for every pair `a`, `b` of the one and every `b`, `c` of the other, as they are
met. -/
def compose (home : UniverseId) (r s : ListRelation) : Except Error ListRelation := do
  if r.arity != 2 then throw (.unsupported "list_relation.compose" r.ty)
  if s.arity != 2 then throw (.unsupported "list_relation.compose" s.ty)
  let fields ← r.toList.elementType.composedFields s.toList.elementType
  let composed := r.pairs.flatMap fun (a, b) =>
    (s.pairs.filter fun (b', _) => b'.equal b).map fun (_, c) =>
      Value.tuple (.tuple home fields) [a, c]
  return ⟨⟨.list home (.tuple home fields), composed⟩, rfl⟩

/-- The set of all field values. -/
def carrier (home : UniverseId) (r : ListRelation) : SetValue :=
  let types := r.toList.elementType.fields.map (·.item)
  ⟨.set home (.joinAll home types), Members.ofList (r.tuples.flatMap (·.fields))⟩

end ListRelation
end TypedValues
