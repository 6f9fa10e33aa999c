import TypedValues.Error
import TypedValues.Ty.Join

/-!
# Tuple types from tuple types

Products, compositions, closures and projections of tuple types, aliases of tuples included.
-/

namespace TypedValues.Ty

def tupleFieldsFor (operation : String) (t : Ty) : Except Error (List Field) :=
  match t.tupleFields? with
  | some fields => .ok fields
  | none => .error (.unsupported operation t)

/-- The relation type over a tuple type. -/
def relationOver (home : UniverseId) (t : Ty) : Except Error Ty :=
  if t.isTuple then .ok (.set home t) else .error (.unsupported "relation_type_from" t)

/-- The list relation type over a tuple type. -/
def listRelationOver (home : UniverseId) (t : Ty) : Except Error Ty :=
  if t.isTuple then .ok (.list home t) else .error (.unsupported "list_relation_type_from" t)

/-- The fields of the one followed by the fields of the other. -/
def product (home : UniverseId) (s t : Ty) : Except Error Ty := do
  let fs ← s.tupleFieldsFor "tuple_product"
  let gs ← t.tupleFieldsFor "tuple_product"
  return .tuple home (fs ++ gs)

/-- The fields of the one without its last, followed by those of the other without its first. -/
def composedFields (s t : Ty) : Except Error (List Field) := do
  let fs ← s.tupleFieldsFor "tuple_compose"
  let gs ← t.tupleFieldsFor "tuple_compose"
  if fs.isEmpty || gs.isEmpty then throw (.unsupported "tuple_compose" s)
  return fs.dropLast ++ gs.drop 1

def compose (home : UniverseId) (s t : Ty) : Except Error Ty :=
  return .tuple home (← composedFields s t)

/-- Both fields of a pair widened to their join, labels kept. -/
def closedFields (home : UniverseId) (t : Ty) : Except Error (List Field) := do
  match ← t.tupleFieldsFor "tuple_closure" with
  | [start, stop] =>
    let joined := join home start.item stop.item
    return [⟨joined, start.label⟩, ⟨joined, stop.label⟩]
  | _ => throw (.unsupported "tuple_closure" t)

def closure (home : UniverseId) (t : Ty) : Except Error Ty :=
  return .tuple home (← t.closedFields home)

/-- The fields at these positions, in this order. -/
def select (home : UniverseId) (t : Ty) (indices : List Nat) : Except Error Ty := do
  let fields ← t.tupleFieldsFor "tuple_select"
  let selected ← indices.mapM fun i =>
    match fields[i]? with
    | some f => .ok f
    | none => .error (Error.indexOutOfBounds i fields.length)
  return .tuple home selected

/-- The position of a label among the fields of a type. -/
def indexOf (t : Ty) (label : String) : Except Error Nat :=
  match t.fieldIndex? label with
  | some i => .ok i
  | none => .error (.labelNotFound label t)

/-- The fields with these labels, in this order. -/
def selectLabels (home : UniverseId) (t : Ty) (labels : List String) : Except Error Ty := do
  t.select home (← labels.mapM t.indexOf)

end TypedValues.Ty
